import Aic8800.ReorderRun
import Aic8800.ReorderTimer

/-!
# No frame is left behind

While frames wait on the list somebody will come for them: the timer, the work
item, a handler or worker on its way, or the party inside the lock that is
about to arm the timer. A party inside the lock is judged by the list it will
leave; that list is empty whenever it does not arm the timer.
-/

set_option autoImplicit false

namespace AIC.ReorderPending
open AIC.ReorderMachine hiding step
open AIC.ReorderWindow AIC.ReorderRun AIC.ReorderTimer Lib.GuardedRun Lib.ReorderBuffer

/-! ## What one locked section does to the control -/

theorem follows_congr {c d : ReordCtrl} (hw : d.wsizeB = c.wsizeB) (hi : d.indSn = c.indSn)
    (hl : d.reordList = c.reordList) (h : Follows c) : Follows d := by
  rcases h with h | ⟨b, h, hb⟩
  · exact Or.inl ⟨hw.trans h.wsize, hi.trans h.indSn, hl.trans h.empty⟩
  · exact Or.inr ⟨b, ⟨hw.trans h.wsize, hi.trans h.indSn, hl.trans h.list, h.numbered⟩, hb⟩

theorem follows_emptied {c : ReordCtrl} (h : Follows c) : Follows (emptied c) := by
  rcases h with h | ⟨b, h, -⟩
  · exact Or.inl ⟨h.wsize, h.indSn, rfl⟩
  · exact Or.inr ⟨⟨b.next, []⟩, ⟨h.wsize, h.indSn, rfl, by simp [Numbered]⟩, empty_windowed _⟩

/-- The control inside the lock, with the frames that will not go up now. -/
structure Settles (c : ReordCtrl) (more : Bool) : Prop where
  follows : Follows (indicated c)
  emptied : more = false → (indicated c).reordList = []

theorem follows_setTimer {c : ReordCtrl} {t : Bool} : Follows (setTimer c t) ↔ Follows c :=
  ⟨follows_congr rfl rfl rfl, follows_congr rfl rfl rfl⟩

theorem follows_setWork {c : ReordCtrl} {w : Bool} : Follows (setWork c w) ↔ Follows c :=
  ⟨follows_congr rfl rfl rfl, follows_congr rfl rfl rfl⟩

theorem process_setWork (c : ReordCtrl) (w forced : Bool) :
    reordRxframesProcess (setWork c w) forced =
      (setWork (reordRxframesProcess c forced).1 w, (reordRxframesProcess c forced).2) := by
  unfold reordRxframesProcess
  simp only [setWork]
  split <;> rfl

/-- The list and the flags stay as they are. -/
structure Keeps (c d : ReordCtrl) : Prop where
  list : d.reordList = c.reordList
  enable : d.enable = c.enable
  timer : d.reordTimer = c.reordTimer
  work : d.reordTimerWork = c.reordTimerWork

theorem needCheck_keeps (c : ReordCtrl) (n : ℕ) : Keeps c (reordNeedCheck c n).1 := by
  unfold reordNeedCheck
  dsimp only
  split_ifs <;> exact ⟨rfl, rfl, rfl, rfl⟩

theorem process_keeps (c : ReordCtrl) (forced : Bool) :
    Keeps c (reordRxframesProcess c forced).1 := by
  unfold reordRxframesProcess
  split <;> exact ⟨rfl, rfl, rfl, rfl⟩

theorem enqueue_ne_nil {f : RecvMsdu} {l l' : List RecvMsdu}
    (h : reordRxframeEnqueue f l = some l') : l' ≠ [] := by
  cases l with
  | nil =>
    obtain rfl := Option.some.inj h
    simp
  | cons g gs =>
    simp only [reordRxframeEnqueue] at h
    split_ifs at h
    · obtain ⟨k, -, rfl⟩ := Option.map_eq_some_iff.mp h
      simp
    · obtain rfl := Option.some.inj h
      simp

/-- An arrival at a buffer that enters the list. -/
theorem tracks_settles {c d : ReordCtrl} {b : Buffer RecvMsdu} (h : Tracks c b)
    (hb : Windowed 64 b) {f : RecvMsdu} (hf : f.seqNum < 4096)
    (hcheck : reordNeedCheck c f.seqNum = (d, false)) {l : List RecvMsdu}
    (henq : reordRxframeEnqueue f d.reordList = some l)
    (hmore : (reordRxframesProcess { d with reordList := l } false).2 = false) :
    (indicated (reordRxframesProcess { d with reordList := l } false).1).reordList = [] := by
  obtain ⟨h1, h2, h3⟩ := arrivalAt_spec b hf
  by_cases hlate : arrivalAt b f < b.next
  · rw [h1, needCheck_late h hlate h2] at hcheck
    cases hcheck
  have hle : b.next ≤ arrivalAt b f := not_lt.mp hlate
  rw [h1, needCheck_slide h hle h3] at hcheck
  obtain rfl := (Prod.mk.inj hcheck).1
  have hplace := enqueue_place (arrivalAt b f, f) b.held h1 h.numbered (fun g hg => by
    have := hb.above g hg
    have := hb.inside g hg
    simp only
    omega)
  rw [← h.list, henq] at hplace
  obtain ⟨k, hp, rfl⟩ := Option.map_eq_some_iff.mp hplace.symm
  obtain ⟨hn, hB⟩ := placed_bounds hb hp hle h3
  have ho := place_ordered hb.ordered hp
  have hk := placed_numbered h.numbered hp h1
  cases k with
  | nil => exact absurd rfl (enqueue_ne_nil henq)
  | cons g gs =>
    exact settle_emptied (c := { c with reordList := (g::gs).map Prod.snd }) ho hk h.wsize rfl
      hn hB hmore c.reordTimer

theorem arrival_settles {c d : ReordCtrl} (h : Follows c) {f : RecvMsdu} (hf : f.seqNum < 4096)
    (hcheck : reordNeedCheck c f.seqNum = (d, false)) {l : List RecvMsdu}
    (henq : reordRxframeEnqueue f d.reordList = some l) :
    Settles (reordRxframesProcess { d with reordList := l } false).1
      (reordRxframesProcess { d with reordList := l } false).2 where
  follows := by
    have hs : Follows (reordUnit c f).1 := step_follows h (e := .arrival f) hf
    have hu : reordUnit c f = reordRxframesInd (setTimer
        (reordRxframesProcess { d with reordList := l } false).1
        (reordRxframesProcess { d with reordList := l } false).2) := by
      simp only [reordUnit, hcheck, henq, Bool.false_eq_true, if_false, setTimer]
    rw [hu] at hs
    exact follows_setTimer.mp hs
  emptied hmore := by
    rcases h with h | ⟨b, h, hb⟩
    · -- the first arrival at a fresh control takes up its own number
      have hs : reordNeedCheck { c with indSn := f.seqNum } f.seqNum = (d, false) := by
        have hne : f.seqNum ≠ 0xFFFF := by omega
        have hless : snLess f.seqNum f.seqNum = false := by simp [snLess]
        simpa [reordNeedCheck, h.indSn, hne, hless, snEqual] using hcheck
      exact tracks_settles (fresh_tracks h hf) (empty_windowed _) hf hs henq hmore
    · exact tracks_settles h hb hf hcheck henq hmore

theorem worker_settles {c : ReordCtrl} (h : Follows c) :
    Settles (reordRxframesProcess c true).1 (reordRxframesProcess c true).2 where
  follows := by
    have hs : Follows (reordTimeoutWorker c).1 := step_follows h (e := .timeoutWorker) trivial
    have hw := process_setWork c false true
    simp only [setWork] at hw
    simp only [reordTimeoutWorker, hw] at hs
    exact follows_setWork.mp (follows_setTimer.mp hs)
  emptied hmore := by
    rcases h with h | ⟨b, h, hb⟩
    · simp [reordRxframesProcess, h.empty, indicated, reordRxframesInd]
    · cases hh : b.held with
      | nil =>
        have hnil : c.reordList = [] := by rw [h.list, hh]; rfl
        simp [reordRxframesProcess, hnil, indicated, reordRxframesInd]
      | cons g gs =>
        have hlist : c.reordList = (g::gs).map Prod.snd := hh ▸ h.list
        have hin : ∀ x ∈ g::gs, b.next < x.1 ∧ x.1 < b.next+64 := fun x hx =>
          ⟨hb.above x (hh ▸ hx), hb.inside x (hh ▸ hx)⟩
        have hg := hin g (by simp)
        rw [h.process_forced hh] at hmore ⊢
        exact settle_emptied (c := c) (B := b.next+64) (hh ▸ hb.ordered) (hh ▸ h.numbered)
          h.wsize hlist (by omega) (by intro x hx; have := hin x hx; omega) hmore c.reordTimer

/-! ## The invariant -/

/-- The control as the party inside the lock will leave it. -/
def landing (m : Machine) : ReordCtrl :=
  if m.rx.holds || m.worker.holds then indicated m.ctrl else m.ctrl

/-- Somebody will come for the frames, or is about to see to it. -/
def Expected (m : Machine) : Prop :=
  m.ctrl.reordTimer = true ∨ m.ctrl.reordTimerWork = true ∨ m.handler ≠ .idle ∨
    m.worker = .waiting ∨ m.worker = .processed true ∨ m.rx = .processed true ∨ m.rx = .arm

/-- The receive thread may stop the timer from here. -/
def stops : RxPhase → Bool
  | .processed false | .disarm => true
  | _ => false

/-- `reord_flush_tid` emptied the list and is not through yet. -/
def flushing : RxPhase → Bool
  | .flushed | .deleteTimer | .cancelWork => true
  | _ => false

structure Watched (m : Machine) : Prop where
  exclusive : m.rx.holds = true → m.worker.holds = false
  follows : Follows (landing m)
  expected : (landing m).reordList ≠ [] → Expected m
  stopping : stops m.rx = true → (landing m).reordList = []
  flushed : flushing m.rx = true → m.ctrl.reordList = []
  disabled : m.ctrl.enable = false → m.ctrl.reordList = []
  arriving : ∀ f, m.rx = .arrival f → f.seqNum < 4096 ∧ m.ctrl.enable = true

theorem init_watched : Watched init where
  exclusive := by simp [init, RxPhase.holds]
  follows := Or.inl init_fresh
  expected := by simp [init, landing, reordInitCtrl, RxPhase.holds, WorkerPhase.holds]
  stopping := by simp [init, stops]
  flushed := by simp [init, flushing]
  disabled := by simp [init, reordInitCtrl]
  arriving := by simp [init]

/-- A step that moves timer, work item and phases, and leaves the lock as it is. -/
theorem Watched.flags {m : Machine} (h : Watched m) (t w : Bool) {r : RxPhase}
    {d : HandlerPhase} {k : WorkerPhase} (hr : r.holds = m.rx.holds)
    (hk : k.holds = m.worker.holds)
    (he : (landing m).reordList ≠ [] → Expected m →
      Expected ⟨setTimer (setWork m.ctrl w) t, r, d, k⟩)
    (hs : stops r = true → (landing m).reordList = [])
    (hf : flushing r = true → m.ctrl.reordList = [])
    (ha : ∀ f, r = .arrival f → f.seqNum < 4096 ∧ m.ctrl.enable = true) :
    Watched ⟨setTimer (setWork m.ctrl w) t, r, d, k⟩ := by
  have hl : landing ⟨setTimer (setWork m.ctrl w) t, r, d, k⟩ =
      setTimer (setWork (landing m) w) t := by
    simp only [landing, hr, hk]
    split_ifs <;> rfl
  refine ⟨?_, ?_, ?_, ?_, hf, h.disabled, ha⟩
  · intro hx
    exact hk.trans (h.exclusive (hr ▸ hx))
  · rw [hl]
    exact follows_setTimer.mpr (follows_setWork.mpr h.follows)
  · rw [hl]
    exact fun hne => he hne (h.expected hne)
  · rw [hl]
    exact hs

theorem landing_of_free {m : Machine} (hr : m.rx.holds = false) (hw : m.worker.holds = false) :
    landing m = m.ctrl := by simp [landing, hr, hw]

theorem landing_of_rx {m : Machine} (hr : m.rx.holds = true) : landing m = indicated m.ctrl := by
  simp [landing, hr]

theorem landing_of_worker {m : Machine} (hw : m.worker.holds = true) :
    landing m = indicated m.ctrl := by simp [landing, hw]

theorem indicated_nil {c : ReordCtrl} (h : c.reordList = []) : (indicated c).reordList = [] := by
  simp [indicated, reordRxframesInd, h]

theorem landing_nil {m : Machine} (h : m.ctrl.reordList = []) : (landing m).reordList = [] := by
  unfold landing
  split_ifs
  · exact indicated_nil h
  · exact h

/-- The lock is free, and the thread is not about to take it. -/
theorem watched_of_free {m : Machine} (hr : m.rx.holds = false) (hw : m.worker.holds = false)
    (hf : Follows m.ctrl) (he : m.ctrl.reordList ≠ [] → Expected m)
    (hflush : flushing m.rx = true → m.ctrl.reordList = [])
    (hd : m.ctrl.enable = false → m.ctrl.reordList = [])
    (ha : ∀ f, m.rx = .arrival f → f.seqNum < 4096 ∧ m.ctrl.enable = true) : Watched m := by
  have hl := landing_of_free hr hw
  refine ⟨by simp [hr], hl.symm ▸ hf, hl.symm ▸ he, fun hs => ?_, hflush, hd, ha⟩
  cases hx : m.rx <;> simp_all [stops, RxPhase.holds]

/-! ## The steps of the receive thread -/

section
variable {m n : Machine}

theorem Watched.free (h : Watched m) (hr : m.rx.holds = false) (hw : m.worker.holds = false) :
    Follows m.ctrl ∧ (m.ctrl.reordList ≠ [] → Expected m) := by
  have hl := landing_of_free hr hw
  exact ⟨hl ▸ h.follows, hl ▸ h.expected⟩

theorem reenable_nil {c : ReordCtrl} (h : c.reordList = []) : (reenable c).reordList = [] := by
  unfold reenable
  split_ifs <;> exact h

theorem arrive_watched (h : Watched m) {f : RecvMsdu} (hf : f.seqNum < 4096) (hr : m.rx = .idle) :
    Watched { m with ctrl := reenable m.ctrl, rx := .arrival f } := by
  by_cases he : m.ctrl.enable = true
  · have hc : reenable m.ctrl = m.ctrl := by rw [reenable, if_pos he]
    rw [hc]
    exact h.flags m.ctrl.reordTimer m.ctrl.reordTimerWork (by rw [hr]; rfl) rfl
      (fun _ hx => by simpa [Expected, hr] using hx) (by simp [stops]) (by simp [flushing])
      (fun g hg => by cases hg; exact ⟨hf, he⟩)
  · -- a flush disabled the control, so that the list is empty
    have hnil : m.ctrl.reordList = [] := h.disabled (by simpa using he)
    have hland := landing_nil (m := ⟨reenable m.ctrl, .arrival f, m.handler, m.worker⟩)
      (reenable_nil hnil)
    have hfresh : Fresh (landing ⟨reenable m.ctrl, .arrival f, m.handler, m.worker⟩) := by
      refine ⟨?_, ?_, hland⟩ <;> unfold landing <;> split_ifs <;>
        simp [indicated, reordRxframesInd, reenable, he]
    exact ⟨by simp [RxPhase.holds], Or.inl hfresh, fun hx => absurd hland hx, fun _ => hland,
      fun _ => reenable_nil hnil, fun _ => reenable_nil hnil,
      fun g hg => by cases hg; exact ⟨hf, by simp [reenable, he]⟩⟩

/-- A frame that does not enter the list leaves list and timer as they are. -/
theorem aside_watched (h : Watched m) {f : RecvMsdu} (hr : m.rx = .arrival f)
    (hw : m.worker.holds = false) {c : ReordCtrl} (hk : Keeps m.ctrl c) (hc : Follows c) :
    Watched { m with ctrl := c, rx := .idle } := by
  obtain ⟨-, he⟩ := h.free (by rw [hr]; rfl) hw
  refine watched_of_free rfl hw hc ?_ (by simp [flushing]) ?_ (by simp)
  · intro hne
    simpa [Expected, hr, hk.timer, hk.work] using he (hk.list ▸ hne)
  · intro hd
    exact hk.list.trans (h.disabled (hk.enable ▸ hd))

theorem lockArrival_watched (h : Watched m) {f : RecvMsdu} (hr : m.rx = .arrival f)
    (hw : m.worker.holds = false) : Watched (lockArrival m f) := by
  obtain ⟨hfollows, he⟩ := h.free (by rw [hr]; rfl) hw
  obtain ⟨hf, hon⟩ := h.arriving f hr
  have hk := needCheck_keeps m.ctrl f.seqNum
  have hs : Follows (reordUnit m.ctrl f).1 := step_follows hfollows (e := .arrival f) hf
  cases hcheck : reordNeedCheck m.ctrl f.seqNum with
  | mk c noNeed =>
    rw [hcheck] at hk
    cases noNeed with
    | true =>
      have hc : Follows c := by
        simp only [reordUnit, hcheck, if_true] at hs
        split_ifs at hs <;> exact hs
      simp only [lockArrival, hcheck, if_true]
      exact aside_watched h hr hw hk hc
    | false =>
      cases henq : reordRxframeEnqueue f c.reordList with
      | none =>
        rw [unit_of_none hcheck henq] at hs
        simp only [lockArrival, hcheck, henq, Bool.false_eq_true, if_false]
        exact aside_watched h hr hw hk hs
      | some l =>
        have hset := arrival_settles hfollows hf hcheck henq
        have hp := process_keeps { c with reordList := l } false
        simp only [lockArrival, hcheck, henq, Bool.false_eq_true, if_false]
        refine ⟨fun _ => hw, hset.follows, fun hne => ?_, fun hx => ?_, by simp [flushing],
          fun hd => ?_, by simp⟩
        · cases hm : (reordRxframesProcess { c with reordList := l } false).2 with
          | true => simp [Expected]
          | false => exact absurd (hset.emptied hm) hne
        · apply hset.emptied
          cases hm : (reordRxframesProcess { c with reordList := l } false).2 <;>
            simp_all [stops]
        · have hc := (hp.enable.trans hk.enable).symm.trans hd
          rw [hon] at hc
          cases hc

/-- The thread goes on from one test or timer call to the next. -/
theorem rxMove_watched (h : Watched m) {r : RxPhase} (t w : Bool) (hr : r.holds = m.rx.holds)
    (he : (landing m).reordList ≠ [] → Expected m →
      Expected ⟨setTimer (setWork m.ctrl w) t, r, m.handler, m.worker⟩)
    (hs : stops r = true → (landing m).reordList = [])
    (hf : flushing r = true → m.ctrl.reordList = []) (ha : ∀ f, r ≠ .arrival f) :
    Watched ⟨setTimer (setWork m.ctrl w) t, r, m.handler, m.worker⟩ :=
  h.flags t w hr rfl he hs hf (fun f hx => absurd hx (ha f))

theorem processed_watched (h : Watched m) {more : Bool} (hr : m.rx = .processed more)
    (hs : rxStep m = some n) : Watched n := by
  have hstop := h.stopping
  simp only [rxStep, hr, Option.some.injEq] at hs
  subst hs
  apply rxMove_watched h m.ctrl.reordTimer m.ctrl.reordTimerWork
  · rw [hr]
    cases more <;> cases m.ctrl.reordTimer <;> rfl
  · intro hne hx
    cases more with
    | true => cases ht : m.ctrl.reordTimer <;> simp [Expected]
    | false => exact absurd (hstop (by rw [hr]; rfl)) hne
  · intro hx
    apply hstop
    rw [hr]
    cases more with
    | false => rfl
    | true => cases ht : m.ctrl.reordTimer <;> simp [ht, stops] at hx
  · cases more <;> cases m.ctrl.reordTimer <;> simp [flushing]
  · cases more <;> cases m.ctrl.reordTimer <;> simp

theorem indicate_watched (h : Watched m) (hr : m.rx = .indicate) :
    Watched { m with ctrl := indicated m.ctrl, rx := .idle } := by
  have hw := h.exclusive (by rw [hr]; rfl)
  have hl := landing_of_rx (m := m) (by rw [hr]; rfl)
  refine watched_of_free rfl hw (hl ▸ h.follows) (fun hne => ?_) (by simp [flushing])
    (fun hd => indicated_nil (h.disabled hd)) (by simp)
  have hx := h.expected (hl ▸ hne)
  simpa [Expected, hr, indicated, reordRxframesInd] using hx

theorem lockFlush_watched (h : Watched m) (hr : m.rx = .flush) (hw : m.worker.holds = false) :
    Watched { m with ctrl := emptied m.ctrl, rx := .flushed } :=
  watched_of_free rfl hw (follows_emptied (h.free (by rw [hr]; rfl) hw).1)
    (fun hne => absurd rfl hne) (fun _ => rfl) (fun _ => rfl) (by simp)

theorem rxStep_watched (h : Watched m) (hs : rxStep m = some n) : Watched n := by
  have hflush := h.flushed
  cases hr : m.rx with
  | idle => simp [rxStep, hr] at hs
  | arrival f =>
    simp only [rxStep, hr] at hs
    split_ifs at hs with hw
    obtain rfl := Option.some.inj hs
    exact lockArrival_watched h hr (by simpa using hw)
  | processed more => exact processed_watched h hr hs
  | arm =>
    simp only [rxStep, hr, Option.some.injEq] at hs
    subst hs
    exact rxMove_watched h true m.ctrl.reordTimerWork (by rw [hr]; rfl)
      (fun _ _ => by simp [Expected]) (by simp [stops]) (by simp [flushing]) (by simp)
  | disarm =>
    have hnil := h.stopping (by rw [hr]; rfl)
    simp only [rxStep, hr, Option.some.injEq] at hs
    subst hs
    exact rxMove_watched h false m.ctrl.reordTimerWork (by rw [hr]; rfl)
      (fun hne => absurd hnil hne) (by simp [stops]) (by simp [flushing]) (by simp)
  | indicate =>
    simp only [rxStep, hr, Option.some.injEq] at hs
    subst hs
    exact indicate_watched h hr
  | flush =>
    simp only [rxStep, hr] at hs
    split_ifs at hs with hw
    obtain rfl := Option.some.inj hs
    exact lockFlush_watched h hr (by simpa using hw)
  | flushed =>
    have hnil := hflush (by rw [hr]; rfl)
    simp only [rxStep, hr, Option.some.injEq] at hs
    subst hs
    apply rxMove_watched h m.ctrl.reordTimer m.ctrl.reordTimerWork
    · rw [hr]
      cases m.ctrl.reordTimer <;> rfl
    · exact fun hne => absurd (landing_nil hnil) hne
    · exact fun _ => landing_nil hnil
    · exact fun _ => hnil
    · cases m.ctrl.reordTimer <;> simp
  | deleteTimer =>
    have hnil := hflush (by rw [hr]; rfl)
    simp only [rxStep, hr] at hs
    split_ifs at hs
    obtain rfl := Option.some.inj hs
    exact rxMove_watched h false m.ctrl.reordTimerWork (by rw [hr]; rfl)
      (fun hne => absurd (landing_nil hnil) hne) (by simp [stops]) (fun _ => hnil) (by simp)
  | cancelWork =>
    have hnil := hflush (by rw [hr]; rfl)
    simp only [rxStep, hr] at hs
    split_ifs at hs
    obtain rfl := Option.some.inj hs
    exact rxMove_watched h m.ctrl.reordTimer false (by rw [hr]; rfl)
      (fun hne => absurd (landing_nil hnil) hne) (by simp [stops]) (by simp [flushing]) (by simp)

/-! ## The handler and the worker -/

theorem handlerStep_watched (h : Watched m) (hs : handlerStep m = some n) : Watched n := by
  cases hd : m.handler with
  | idle => simp [handlerStep, hd] at hs
  | entered =>
    simp only [handlerStep, hd, Option.some.injEq] at hs
    subst hs
    refine h.flags m.ctrl.reordTimer m.ctrl.reordTimerWork rfl rfl (fun _ _ => ?_) h.stopping
      h.flushed h.arriving
    cases hw : m.ctrl.reordTimerWork <;> simp [Expected]
  | schedule =>
    simp only [handlerStep, hd, Option.some.injEq] at hs
    subst hs
    exact h.flags m.ctrl.reordTimer true rfl rfl (fun _ _ => by simp [Expected]) h.stopping
      h.flushed h.arriving

theorem lockWork_watched (h : Watched m) (hw : m.worker = .waiting) (hr : m.rx.holds = false) :
    Watched { m with
      ctrl := (reordRxframesProcess m.ctrl true).1
      worker := .processed (reordRxframesProcess m.ctrl true).2 } := by
  obtain ⟨hfollows, -⟩ := h.free hr (by rw [hw]; rfl)
  have hset := worker_settles hfollows
  have hk := process_keeps m.ctrl true
  have hl := landing_of_worker (m := ⟨(reordRxframesProcess m.ctrl true).1, m.rx, m.handler,
    .processed (reordRxframesProcess m.ctrl true).2⟩) rfl
  refine ⟨fun hx => ?_, hl ▸ hset.follows, fun hne => ?_, fun hx => ?_, fun hx => ?_,
    fun hx => ?_, fun f hf => ?_⟩
  · simp only at hx
    rw [hr] at hx
    cases hx
  · cases hm : (reordRxframesProcess m.ctrl true).2 with
    | true => simp [Expected]
    | false => exact absurd (hset.emptied hm) (hl ▸ hne)
  · simp only at hx
    cases hp : m.rx <;> simp_all [stops, RxPhase.holds]
  · exact hk.list.trans (h.flushed hx)
  · exact hk.list.trans (h.disabled (hk.enable ▸ hx))
  · exact ⟨(h.arriving f hf).1, hk.enable.trans (h.arriving f hf).2⟩

theorem indicateWork_watched (h : Watched m) (hw : m.worker = .indicate) :
    Watched { m with ctrl := indicated m.ctrl, worker := .idle } := by
  have hl := landing_of_worker (m := m) (by rw [hw]; rfl)
  have hr : m.rx.holds = false := by
    cases hx : m.rx.holds with
    | false => rfl
    | true => simpa [hw, WorkerPhase.holds] using h.exclusive hx
  refine watched_of_free hr rfl (hl ▸ h.follows) (fun hne => ?_)
    (fun hx => indicated_nil (h.flushed hx)) (fun hd => indicated_nil (h.disabled hd)) h.arriving
  have hx := h.expected (hl ▸ hne)
  simpa [Expected, hw, indicated, reordRxframesInd] using hx

theorem workerStep_watched (h : Watched m) (hs : workerStep m = some n) : Watched n := by
  cases hw : m.worker with
  | idle => simp [workerStep, hw] at hs
  | waiting =>
    simp only [workerStep, hw] at hs
    split_ifs at hs with hr
    obtain rfl := Option.some.inj hs
    exact lockWork_watched h hw (by simpa using hr)
  | processed more =>
    simp only [workerStep, hw, Option.some.injEq] at hs
    subst hs
    cases more with
    | true =>
      exact h.flags true m.ctrl.reordTimerWork rfl (by rw [hw]; rfl)
        (fun _ _ => by simp [Expected]) h.stopping h.flushed h.arriving
    | false =>
      exact h.flags m.ctrl.reordTimer m.ctrl.reordTimerWork rfl (by rw [hw]; rfl)
        (fun _ hx => by simpa [Expected, hw] using hx) h.stopping h.flushed h.arriving
  | indicate =>
    simp only [workerStep, hw, Option.some.injEq] at hs
    subst hs
    exact indicateWork_watched h hw

theorem step_watched (h : Watched m) {a : Act} (ha : a.Valid) (hs : step m a = some n) :
    Watched n := by
  cases a with
  | arrive f =>
    cases hr : m.rx <;> simp only [step, hr, reduceCtorEq, Option.some.injEq] at hs
    subst hs
    exact arrive_watched h ha hr
  | flush =>
    cases hr : m.rx <;> simp only [step, hr, reduceCtorEq, Option.some.injEq] at hs
    subst hs
    apply rxMove_watched h m.ctrl.reordTimer m.ctrl.reordTimerWork
    · rw [hr]
      cases m.ctrl.enable <;> rfl
    · intro _ hx
      cases m.ctrl.enable <;> simpa [Expected, hr] using hx
    all_goals cases m.ctrl.enable <;> simp [stops, flushing]
  | rxStep => exact rxStep_watched h hs
  | expire =>
    simp only [step] at hs
    split_ifs at hs with hc
    obtain rfl := Option.some.inj hs
    exact h.flags false m.ctrl.reordTimerWork rfl rfl (fun _ _ => by simp [Expected]) h.stopping
      h.flushed h.arriving
  | handlerStep => exact handlerStep_watched h hs
  | startWork =>
    simp only [step] at hs
    split_ifs at hs with hc
    obtain rfl := Option.some.inj hs
    exact h.flags m.ctrl.reordTimer false rfl (by rw [hc.2]; rfl) (fun _ _ => by simp [Expected])
      h.stopping h.flushed h.arriving
  | workerStep => exact workerStep_watched h hs

end

theorem run_watched {acts : List Act} (hv : ∀ a ∈ acts, a.Valid) {m : Machine}
    (h : exec step init acts = some m) : Watched m := by
  have hm : Meets step (fun _ a => a.Valid) init acts := meets_of_mem init hv
  exact exec_invariant (fun _ _ _ ha hs hw => step_watched hw ha hs) init_watched hm h

/-- Whatever the order of arrivals, flushes, expiries and work runs, once all
parties rest the timer or the work item is pending while frames are on the list. -/
theorem run_awaited (acts : List Act) (hv : ∀ a ∈ acts, a.Valid) {m : Machine}
    (h : exec step init acts = some m) (hq : Quiet m) (hne : m.ctrl.reordList ≠ []) :
    m.ctrl.reordTimer = true ∨ m.ctrl.reordTimerWork = true := by
  obtain ⟨hr, hd, hw⟩ := hq
  have hidle : m.rx = .idle := by cases hx : m.rx <;> simp_all [RxPhase.isIdle]
  have hwatched := run_watched hv h
  have he := (hwatched.free (by rw [hidle]; rfl) (by rw [hw]; rfl)).2 hne
  simpa [Expected, hidle, hd, hw] using he

/-- Two frames past a gap; the timer runs out while the second is on its way,
and the worker finds the list after it. -/
def gapRun : List Act :=
  [.arrive (sampleMsdu 7), .rxStep, .rxStep, .rxStep, .arrive (sampleMsdu 9), .rxStep, .rxStep,
    .rxStep, .rxStep, .arrive (sampleMsdu 12), .expire, .rxStep, .handlerStep, .rxStep, .rxStep,
    .rxStep, .handlerStep, .startWork, .workerStep, .workerStep, .workerStep]

theorem run_awaited_gap :
    ∃ m, exec step init gapRun = some m ∧ m.ctrl.reordList ≠ [] ∧
      (m.ctrl.reordTimer = true ∨ m.ctrl.reordTimerWork = true) := by
  have hrun : exec step init gapRun = some ((exec step init gapRun).get (by decide +kernel)) :=
    (Option.some_get _).symm
  have hquiet : Quiet ((exec step init gapRun).get (by decide +kernel)) := by decide +kernel
  have hlist : ((exec step init gapRun).get (by decide +kernel)).ctrl.reordList.isEmpty = false := by
    decide +kernel
  have hne := List.isEmpty_eq_false_iff.mp hlist
  exact ⟨_, hrun, hne, run_awaited gapRun (by simp [gapRun, Act.Valid, sampleMsdu]) hrun hquiet hne⟩

end AIC.ReorderPending
