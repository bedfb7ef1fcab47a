import Aic8800.UsbRx

/-!
# Receive buffers, skbs and the refill

Buffers and skbs are kept over every run. The counter and the pending work are
kept over the runs whose steps avoid the branches that forget them.
-/

set_option autoImplicit false

namespace AIC.UsbRxBuffers
open AIC.UsbRx Lib.GuardedRun Lib.LoadedBuffers Lib.RunningFrames

variable {s t : State} {f : Frame} {ok : Bool}

/-! ## Buffers and skbs -/

def empty (s : State) : List BufId := s.rxFreeList++s.running.flatMap Frame.empty

def loaded (s : State) : List BufId := s.submitted++s.running.flatMap Frame.loaded

/-- Where skbs are outside the frames. -/
def away (s : State) : List ℕ := s.rxq.map Skb.id++s.thread.skb++s.freed

def Kept (s : State) : Prop :=
  Ledger s.skb (empty s) (loaded s) (away s++s.running.flatMap Frame.skb) s.skbs

theorem init_kept : Kept init where
  placed b := by
    simp only [empty, loaded, init, List.flatMap_nil, List.append_nil, List.count_nil]
    exact List.count_eq_one_of_mem (List.nodup_finRange _) (List.mem_finRange b)
  clear _ _ := rfl
  full b hb := by simp [loaded, init] at hb
  once n := rfl

/-- A function moves buffers and skbs but loads or drains none. -/
theorem Kept.moves (h : Kept s) (hf : f ∈ s.running) (hskb : (s.advance f ok).1.skb = s.skb)
    (hskbs : (s.advance f ok).1.skbs = s.skbs)
    (hempty : ∀ x, (s.advance f ok).1.rxFreeList.count x+
      ((s.advance f ok).2.flatMap Frame.empty).count x = s.rxFreeList.count x+f.empty.count x)
    (hloaded : ∀ x, (s.advance f ok).1.submitted.count x+
      ((s.advance f ok).2.flatMap Frame.loaded).count x = s.submitted.count x+f.loaded.count x)
    (hout : ∀ n, (away (s.advance f ok).1).count n+
      ((s.advance f ok).2.flatMap Frame.skb).count n = (away s).count n+f.skb.count n) :
    Kept (s.goOn f ok) := by
  have hnew := Ledger.frame_moves h hf hempty hloaded hout
  rw [← hskb, ← hskbs] at hnew
  exact hnew

/-- A function takes the skb out of its buffer. -/
theorem Kept.drains (h : Kept s) (hf : f ∈ s.running) {b : BufId} {n : ℕ} (hn : s.skb b = some n)
    (hskb : (s.advance f ok).1.skb = Function.update s.skb b none)
    (hskbs : (s.advance f ok).1.skbs = s.skbs)
    (hempty : ∀ x, (s.advance f ok).1.rxFreeList.count x+
      ((s.advance f ok).2.flatMap Frame.empty).count x =
        s.rxFreeList.count x+f.empty.count x+[b].count x)
    (hloaded : ∀ x, (s.advance f ok).1.submitted.count x+
      ((s.advance f ok).2.flatMap Frame.loaded).count x+[b].count x =
        s.submitted.count x+f.loaded.count x)
    (hout : ∀ m, (away (s.advance f ok).1).count m+
      ((s.advance f ok).2.flatMap Frame.skb).count m =
        (away s).count m+f.skb.count m+[n].count m) : Kept (s.goOn f ok) := by
  have hnew := Ledger.frame_drain h hf hn hempty hloaded hout
  rw [← hskb, ← hskbs] at hnew
  exact hnew

/-- The allocator's skb is put into an empty buffer. -/
theorem allocSkb_kept (h : Kept s) {b : BufId} (hf : Frame.allocSkb b ∈ s.running) :
    Kept (s.goOn (.allocSkb b) true) := by
  have hmint : Ledger s.skb (empty s) (loaded s)
      ((s.skbs::away s)++s.running.flatMap Frame.skb) (s.skbs+1) :=
    Ledger.mint h (fun _ => rfl) (fun _ => rfl) fun n => count_head s.skbs _ n
  apply hmint.frame_fill hf
  · simp [State.goOn, State.advance, State.setSkb]
  · simp [State.goOn, State.advance, State.setSkb]
  · intro n
    exact (count_head s.skbs (away s) n).symm

theorem token_of_loaded (h : Kept s) (hf : f ∈ s.running) {b : BufId} (hb : f.loaded = [b]) :
    ∃ n, s.skb b = some n := by
  have hmem : b ∈ s.running.flatMap Frame.loaded :=
    List.mem_flatMap.mpr ⟨f, hf, by rw [hb]; exact List.mem_singleton_self b⟩
  exact Ledger.token h (List.mem_append_right _ hmem)

theorem away_skbFree (s : State) (n m : ℕ) :
    (away (s.skbFree (some n))).count m = (away s).count m+[n].count m := by
  have hcons : (n::s.freed).count m = s.freed.count m+[n].count m := count_head n s.freed m
  simp only [away, State.skbFree, Option.toList_some, List.singleton_append, List.count_append]
  omega

@[simp] theorem away_setSkb (s : State) (b : BufId) (v : Option ℕ) :
    away (s.setSkb b v) = away s := rfl

theorem away_enqueue (s : State) (skb : Skb) (m : ℕ) :
    (away { s with rxq := s.rxq++[skb] }).count m = (away s).count m+[skb.id].count m := by
  simp only [away, List.map_append, List.map_cons, List.map_nil, List.count_append]
  omega

theorem rxComplete_kept (h : Kept s) {b : BufId} {urb : Urb}
    (hf : Frame.rxComplete b urb ∈ s.running) : Kept (s.goOn (.rxComplete b urb) ok) := by
  obtain ⟨n, hn⟩ := token_of_loaded h hf rfl
  have hput (schedule : Bool) (hadv : s.advance (.rxComplete b urb) ok =
      ((s.setSkb b none).skbFree (some n), [.put b schedule])) :
      Kept (s.goOn (.rxComplete b urb) ok) := by
    apply h.drains hf hn <;> rw [hadv]
    · rfl
    · rfl
    · intro x
      simp [State.setSkb, State.skbFree]
    · intro x
      simp [State.setSkb, State.skbFree]
    · simp [away_skbFree]
  simp only [State.advance, hn] at hput
  by_cases hbad : urb.actualLength > AICWF_USB_MAX_PKT_SIZE ∨ urb.status ≠ 0 ∨ urb.actualLength = 0
  · exact hput true (if_pos hbad)
  · by_cases hup : s.state = .up
    · have hadv : s.advance (.rxComplete b urb) ok =
          (s.setSkb b none, [.enqueue b ⟨n, urb.actualLength, urb.data⟩]) := by
        simp only [State.advance, hn, if_neg hbad, if_pos hup]
        rfl
      apply h.drains hf hn <;> rw [hadv] <;> simp [State.setSkb, away, Nat.add_comm]
    · exact hput false ((if_neg hbad).trans (if_neg hup))

theorem enqueue_kept (h : Kept s) {b : BufId} {skb : Skb}
    (hf : Frame.enqueue b skb ∈ s.running) : Kept (s.goOn (.enqueue b skb) ok) := by
  by_cases hroom : s.rxq.length < MAX_RXQLEN
  · have hadv : s.advance (.enqueue b skb) ok = ({ s with rxq := s.rxq++[skb] }, [.count b]) :=
      if_pos hroom
    apply h.moves hf <;> rw [hadv]
    case hout => simp [away_enqueue, Nat.add_comm]
    all_goals simp
  · have hadv : s.advance (.enqueue b skb) ok = (s.skbFree (some skb.id), [.put b false]) :=
      if_neg hroom
    apply h.moves hf <;> rw [hadv]
    case hout => simp [away_skbFree, Nat.add_comm]
    all_goals simp [State.skbFree]

theorem get_kept (h : Kept s) (hf : Frame.get ∈ s.running) : Kept (s.goOn .get ok) := by
  cases hfree : s.rxFreeList with
  | nil => apply h.moves hf <;> simp [State.advance, hfree, away]
  | cons b rest =>
    have hcons := count_head b rest
    apply h.moves hf <;> simp [State.advance, hfree, away]
    exact fun x => (hcons x).symm

theorem submitUrb_kept (h : Kept s) {b : BufId} (hf : Frame.submitUrb b ∈ s.running) :
    Kept (s.goOn (.submitUrb b) ok) := by
  obtain ⟨n, hn⟩ := token_of_loaded h hf rfl
  cases ok with
  | true => apply h.moves hf rfl rfl <;> simp [State.advance, away, Nat.add_comm]
  | false =>
    have hadv : s.advance (.submitUrb b) false =
        ((s.setSkb b none).skbFree (some n), [.putRefused b]) := by
      simp [State.advance, hn]
    apply h.drains hf hn <;> rw [hadv]
    case hout => simp [away_skbFree]
    all_goals simp [State.setSkb, State.skbFree]

/-- One function goes on: every buffer and every skb stays in one place. -/
theorem goOn_kept (h : Kept s) (hf : f ∈ s.running) : Kept (s.goOn f ok) := by
  cases f with
  | rxComplete b urb => exact rxComplete_kept h hf
  | enqueue b skb => exact enqueue_kept h hf
  | get => exact get_kept h hf
  | submitUrb b => exact submitUrb_kept h hf
  | allocSkb b =>
    cases ok with
    | true => exact allocSkb_kept h hf
    | false => apply h.moves hf rfl rfl <;> simp [State.advance, away]
  | put b schedule =>
    cases schedule <;> apply h.moves hf rfl rfl <;>
      simp [State.advance, State.rxBufPut, away, Nat.add_comm]
  | count _ | start | stop | schedule | killAnchored | putFail _ | putRefused _ =>
    apply h.moves hf rfl rfl <;> simp [State.advance, State.rxBufPut, away, Nat.add_comm]
  | submitAll | submitRxUrb _ | refillFail =>
    by_cases hup : s.state = .up <;> apply h.moves hf rfl rfl <;> simp [State.advance, hup, away]

/-! ## The counter and the pending work -/

/-- Functions that go on to schedule the work or to refill themselves. -/
def Frame.refills : Frame → Bool
  | .rxComplete .. | .enqueue .. | .put _ false | .stop | .killAnchored => false
  | _ => true

def Refilling (s : State) : Prop := s.rxUrbWork = true ∨ ∃ f ∈ s.running, Frame.refills f = true

instance (s : State) : Decidable (Refilling s) := inferInstanceAs (Decidable (_ ∨ _))

/-- A received skb is long enough for its header, and there is room for a copy of it. -/
def Fits (ok : Bool) : Thread → Prop
  | .parse skb => (skb.pktLen ≤ 1600 → ok = true) ∧ skb.parsed ok ≤ skb.len
  | _ => True

/-- A buffer that goes back without the work being scheduled meets no bus that is up, or
another refill. -/
def Careful (s : State) : Act → Prop
  | .process ok => Fits ok s.thread
  | .advance (.put _ false) _ => s.state = .up → Refilling s
  | _ => True

instance (ok : Bool) : ∀ t, Decidable (Fits ok t)
  | .parse _ => inferInstanceAs (Decidable ((_ → _) ∧ _))
  | .idle | .dequeue | .free _ | .dec => inferInstanceAs (Decidable True)

instance (s : State) (a : Act) : Decidable (Careful s a) := by
  unfold Careful
  split <;> infer_instance

/-- Frames that have queued an skb and not yet counted it. -/
def Frame.uncounted : Frame → List Unit
  | .count _ => [()]
  | _ => []

def Thread.counted : Thread → ℕ
  | .parse _ | .free _ | .dec => 1
  | _ => 0

def Counted (s : State) : Prop :=
  s.rxCnt+(s.running.flatMap Frame.uncounted).count () = s.rxq.length+Thread.counted s.thread

def Covered (s : State) : Prop := s.state = .up → s.rxFreeList ≠ [] → Refilling s

structure Inv (s : State) : Prop where
  kept : Kept s
  inside : s.overread = false
  counted : Counted s
  covered : Covered s

theorem init_inv : Inv init where
  kept := init_kept
  inside := rfl
  counted := rfl
  covered h := by cases h

theorem advance_thread (s : State) (f : Frame) (ok : Bool) :
    (s.advance f ok).1.thread = s.thread ∧ (s.advance f ok).1.overread = s.overread := by
  fun_cases State.advance s f ok <;> exact ⟨rfl, rfl⟩

theorem advance_counted (s : State) (f : Frame) (ok : Bool) :
    (s.advance f ok).1.rxCnt+((s.advance f ok).2.flatMap Frame.uncounted).count ()+s.rxq.length =
      s.rxCnt+(Frame.uncounted f).count ()+(s.advance f ok).1.rxq.length := by
  fun_cases State.advance s f ok
  case case2 b urb t hgood hup =>
    have hframes : ((s.skb b).toList.map fun id =>
        Frame.enqueue b ⟨id, urb.actualLength, urb.data⟩).flatMap Frame.uncounted = [] := by
      cases s.skb b <;> rfl
    rw [hframes]
    rfl
  case case4 =>
    simp only [Frame.uncounted, List.length_append, List.length_singleton, List.flatMap_cons,
      List.flatMap_nil, List.append_nil, List.count_nil, List.count_singleton_self]
    omega
  case case6 =>
    simp only [Frame.uncounted, List.flatMap_cons, List.flatMap_nil, List.append_nil,
      List.count_nil, List.count_singleton_self]
    omega
  case case7 | case9 | case12 | case18 => split <;> rfl
  all_goals rfl

theorem goOn_counted (h : Counted s) (hf : f ∈ s.running) : Counted (s.goOn f ok) := by
  have hframes := count_goOn Frame.uncounted hf (s.advance f ok).2 ()
  have hadv := advance_counted s f ok
  unfold Counted at h ⊢
  simp only [State.goOn, (advance_thread s f ok).1]
  omega

theorem advance_work (h : s.rxUrbWork = true) : (s.advance f ok).1.rxUrbWork = true := by
  fun_cases State.advance s f ok <;> first | exact h | rfl

/-- A refill that leaves a free buffer on a bus that is up has scheduled the work, or goes on. -/
theorem advance_refills (hrefills : Frame.refills f = true)
    (hup : (s.advance f ok).1.state = .up) (hfree : (s.advance f ok).1.rxFreeList ≠ []) :
    (s.advance f ok).1.rxUrbWork = true ∨ ∃ g ∈ (s.advance f ok).2, Frame.refills g = true := by
  have hone (g : Frame) (hg : Frame.refills g = true) : ∃ x ∈ [g], Frame.refills x = true :=
    ⟨g, List.mem_singleton_self g, hg⟩
  cases f with
  | rxComplete _ _ | enqueue _ _ | stop | killAnchored => cases hrefills
  | put b schedule =>
    cases schedule with
    | true => exact .inr (hone .schedule rfl)
    | false => cases hrefills
  | schedule => exact .inl rfl
  | submitAll | refillFail =>
    simp only [State.advance] at hup ⊢
    rw [if_pos hup]
    exact .inr (hone .get rfl)
  | get =>
    cases hlist : s.rxFreeList with
    | nil =>
      simp only [State.advance, hlist] at hfree
      exact absurd rfl hfree
    | cons b rest =>
      simp only [State.advance, hlist]
      exact .inr (hone (.submitRxUrb b) rfl)
  | submitRxUrb b =>
    simp only [State.advance] at hup ⊢
    rw [if_pos hup]
    exact .inr (hone (.allocSkb b) rfl)
  | allocSkb b =>
    cases ok with
    | true => exact .inr (hone (.submitUrb b) rfl)
    | false => exact .inr (hone (.putFail b) rfl)
  | submitUrb b =>
    cases ok with
    | true => exact .inr (hone .get rfl)
    | false => exact .inr (hone (.putRefused b) rfl)
  | count b => exact .inr (hone (.put b true) rfl)
  | putFail b => exact .inr (hone .refillFail rfl)
  | putRefused b => exact .inr (hone .get rfl)
  | start => exact .inr (hone .submitAll rfl)

/-- Another function leaves the free list and the state as they are, or stops the bus. -/
theorem advance_keeps (hrefills : Frame.refills f = false) (hcare : Careful s (.advance f ok))
    (h : Covered s) (hup : (s.advance f ok).1.state = .up)
    (hfree : (s.advance f ok).1.rxFreeList ≠ []) : Refilling s := by
  cases f with
  | rxComplete b urb =>
    simp only [State.advance] at hup hfree
    split_ifs at hup hfree <;> exact h hup hfree
  | enqueue b skb =>
    simp only [State.advance] at hup hfree
    split_ifs at hup hfree <;> exact h hup hfree
  | put b schedule =>
    cases schedule with
    | true => cases hrefills
    | false => exact hcare hup
  | stop => cases hup
  | killAnchored => exact h hup hfree
  | _ => cases hrefills

theorem goOn_covered (hf : f ∈ s.running) (hcare : Careful s (.advance f ok)) (h : Covered s) :
    Covered (s.goOn f ok) := by
  intro hup hfree
  by_cases hrefills : Frame.refills f = true
  · rcases advance_refills hrefills hup hfree with hwork | ⟨g, hg, hg'⟩
    · exact .inl hwork
    · exact .inr ⟨g, mem_goOn_new hg, hg'⟩
  · have hno : Frame.refills f = false := by simpa using hrefills
    rcases advance_keeps hno hcare h hup hfree with hwork | ⟨g, hg, hg'⟩
    · exact .inl (advance_work hwork)
    · have hne : g ≠ f := by
        rintro rfl
        exact hrefills hg'
      exact .inr ⟨g, mem_goOn_of_ne hg hne, hg'⟩

/-! ## Every step -/

theorem goOn_inv (h : Inv s) (hf : f ∈ s.running) (hcare : Careful s (.advance f ok)) :
    Inv (s.goOn f ok) where
  kept := goOn_kept h.kept hf
  inside := (advance_thread s f ok).2.trans h.inside
  counted := goOn_counted h.counted hf
  covered := goOn_covered hf hcare h.covered

theorem complete_inv (h : Inv s) {b : BufId} (urb : Urb) (hb : b ∈ s.submitted) :
    Inv ({ s with submitted := s.submitted.erase b }.call (.rxComplete b urb)) where
  kept := by
    refine Ledger.congr h.kept (fun _ => rfl) (fun x => ?_) (fun _ => rfl)
    have hsplit : s.submitted.count x = (b::s.submitted.erase b).count x :=
      (List.perm_cons_erase hb).count_eq x
    rw [count_head] at hsplit
    simp only [loaded, State.call, Frame.loaded, List.flatMap_cons, List.count_append]
    omega
  inside := h.inside
  counted := h.counted
  covered hup hfree := by
    rcases h.covered hup hfree with hwork | ⟨g, hg, hrefills⟩
    · exact .inl hwork
    · exact .inr ⟨g, List.mem_cons_of_mem _ hg, hrefills⟩

theorem work_inv (h : Inv s) : Inv ({ s with rxUrbWork := false }.call .submitAll) where
  kept := h.kept
  inside := h.inside
  counted := h.counted
  covered _ _ := .inr ⟨.submitAll, List.mem_cons_self, rfl⟩

theorem call_inv (h : Inv s) (hf : f = .start ∨ f = .stop) : Inv (s.call f) where
  kept := by rcases hf with rfl | rfl <;> exact h.kept
  inside := h.inside
  counted := by rcases hf with rfl | rfl <;> exact h.counted
  covered hup hfree := by
    rcases h.covered hup hfree with hwork | ⟨g, hg, hrefills⟩
    · exact .inl hwork
    · exact .inr ⟨g, List.mem_cons_of_mem _ hg, hrefills⟩

/-- The receive thread leaves the buffers alone. -/
theorem thread_inv (h : Inv s) (rxq : List Skb) (rxCnt : ℤ) (thread : Thread) (freed : List ℕ)
    (hout : ∀ n, (rxq.map Skb.id++thread.skb++freed).count n = (away s).count n)
    (hcounted : rxCnt-rxq.length-Thread.counted thread =
      s.rxCnt-s.rxq.length-Thread.counted s.thread) :
    Inv { s with rxq := rxq, rxCnt := rxCnt, thread := thread, freed := freed } where
  kept := by
    refine Ledger.congr h.kept (fun _ => rfl) (fun _ => rfl) fun n => ?_
    have := hout n
    simp only [away, List.count_append] at this ⊢
    omega
  inside := h.inside
  counted := by
    have hcount := h.counted
    unfold Counted at hcount ⊢
    dsimp only
    omega
  covered := h.covered

theorem process_inv (h : Inv s) (hcare : Careful s (.process ok)) : Inv (s.process ok) := by
  unfold State.process
  simp only [Careful] at hcare
  cases hthread : s.thread with
  | idle =>
    apply thread_inv h s.rxq s.rxCnt .dequeue s.freed
    · simp [away, hthread, Thread.skb]
    · simp [hthread, Thread.counted]
  | dequeue =>
    cases hq : s.rxq with
    | nil =>
      apply thread_inv h [] s.rxCnt .idle s.freed
      · simp [away, hthread, hq, Thread.skb]
      · simp [hthread, hq, Thread.counted]
    | cons skb rest =>
      apply thread_inv h rest s.rxCnt (.parse skb) s.freed
      · intro n
        have := count_head skb.id (rest.map Skb.id) n
        simp only [away, hthread, hq, Thread.skb, List.map_cons, List.count_append, List.count_nil]
        omega
      · simp only [hthread, hq, Thread.counted, List.length_cons]
        omega
  | parse skb =>
    rw [hthread] at hcare
    have hgo : skb.pktLen > 1600 ∨ ok = true := by
      by_cases hlen : skb.pktLen ≤ 1600
      · exact .inr (hcare.1 hlen)
      · exact .inl (not_le.mp hlen)
    have hread : (s.overread || decide (skb.len < skb.parsed ok)) = s.overread := by
      simp [Nat.not_lt.mpr hcare.2]
    dsimp only
    rw [if_pos hgo, hread]
    apply thread_inv h s.rxq s.rxCnt (.free skb.id) s.freed
    · simp [away, hthread, Thread.skb]
    · simp [hthread, Thread.counted]
  | free id =>
    apply thread_inv h s.rxq s.rxCnt .dec (id::s.freed)
    · intro n
      have := count_head id s.freed n
      simp only [away, hthread, Thread.skb, List.count_append, List.count_nil]
      omega
    · simp [hthread, Thread.counted]
  | dec =>
    apply thread_inv h s.rxq (s.rxCnt-1) .dequeue s.freed
    · simp [away, hthread, Thread.skb]
    · simp only [hthread, Thread.counted]
      omega

theorem step_inv (s : State) (a : Act) (t : State) (hcare : Careful s a) (hstep : step s a = some t)
    (h : Inv s) : Inv t := by
  cases a with
  | complete b urb =>
    simp only [step] at hstep
    split_ifs at hstep with hb
    obtain rfl := Option.some.inj hstep
    exact complete_inv h urb hb
  | work =>
    simp only [step] at hstep
    split_ifs at hstep
    obtain rfl := Option.some.inj hstep
    exact work_inv h
  | start =>
    obtain rfl := Option.some.inj hstep
    split_ifs
    · exact h
    · exact call_inv h (.inl rfl)
  | stop =>
    obtain rfl := Option.some.inj hstep
    split_ifs
    · exact h
    · exact call_inv h (.inr rfl)
  | advance f ok =>
    simp only [step] at hstep
    split_ifs at hstep with hready
    obtain rfl := Option.some.inj hstep
    exact goOn_inv h hready.1 hcare
  | process ok =>
    obtain rfl := Option.some.inj hstep
    exact process_inv h hcare

theorem inv_sound (h : Inv s) : Sound s where
  placed b := by
    have hplaced := h.kept.placed b
    simp only [empty, loaded, List.count_append] at hplaced
    simp only [State.held, List.count_append]
    omega
  freed n hn := by
    have hkept := h.kept.kept (List.nodup_finRange _) (List.mem_finRange) n
    simp only [if_pos hn, away, List.count_append] at hkept
    simp only [State.moving, List.count_append]
    omega
  inside := h.inside
  counted hquiet := by
    have hcounted := h.counted
    unfold Counted at hcounted
    rw [hquiet.1, hquiet.2] at hcounted
    simpa [Thread.counted] using hcounted
  refilled hquiet hup hfree := by
    rcases h.covered hup hfree with hwork | ⟨g, hg, -⟩
    · exact hwork
    · rw [hquiet.1] at hg
      cases hg

/-! ## The refill loop on its own -/

/-- What the allocator and `usb_submit_urb` answer in one pass of the loop. -/
structure Answer where
  skb : Bool
  taken : Bool

def Answer.submits (a : Answer) : Bool := a.skb && a.taken

/-- The steps of the pass that gets the buffer `b`, on a bus that stays up. -/
def passSteps (b : BufId) (a : Answer) : List Act :=
  [.advance .get true, .advance (.submitRxUrb b) true, .advance (.allocSkb b) a.skb]++
    match a.skb, a.taken with
    | false, _ => [.advance (.putFail b) true, .advance .refillFail true]
    | true, true => [.advance (.submitUrb b) true]
    | true, false => [.advance (.submitUrb b) false, .advance (.putRefused b) true]

def pass (s : State) (a : Answer) : Option State :=
  match s.rxFreeList with
  | [] => none
  | b::_ => exec step s (passSteps b a)

def passes (answers : ℕ → Answer) : ℕ → State → Option State
  | 0, s => some s
  | k+1, s => (passes answers k s).bind fun t => pass t (answers k)

/-- The loop comes to an empty free list, where it ends. -/
def Ends (s : State) (answers : ℕ → Answer) : Prop :=
  ∃ k t, passes answers k s = some t ∧ t.rxFreeList = []

def submissions (answers : ℕ → Answer) (k : ℕ) : ℕ :=
  (List.range k).countP fun i => (answers i).submits

/-- The loop stands at `f`, and the bus is up. -/
def At (s : State) (f : Frame) (free : List BufId) : Prop :=
  s.state = .up ∧ f ∈ s.running ∧ s.rxFreeList = free

theorem At.exec {free : List BufId} {es : List Act} (h : At s f free) (hne : f ≠ .killAnchored) :
    exec step s (.advance f ok::es) = exec step (s.goOn f ok) es := by
  have hready : s.Ready f := ⟨h.2.1, fun hkill => absurd hkill hne⟩
  simp only [Lib.GuardedRun.exec, step, if_pos hready, Option.bind_some]

theorem At.next {free : List BufId} {g : Frame} (hnext : (s.advance f ok).2 = [g])
    (hup : (s.advance f ok).1.state = .up) (hfree : (s.advance f ok).1.rxFreeList = free) :
    At (s.goOn f ok) g free := by
  refine ⟨hup, ?_, hfree⟩
  unfold State.goOn
  rw [hnext]
  exact mem_goOn_new (List.mem_singleton_self g)

theorem At.put {free : List BufId} {g : Frame} {b : BufId} (h : At s f free)
    (hput : s.advance f ok = (s.rxBufPut b, [g])) : At (s.goOn f ok) g (free++[b]) := by
  apply At.next
  · rw [hput]
  · rw [hput]
    exact h.1
  · rw [hput]
    exact congrArg (·++[b]) h.2.2

/-- A pass submits the first buffer, or puts it at the end of the list. -/
theorem pass_at {b : BufId} {rest : List BufId} (h : At s .get (b::rest)) (a : Answer) :
    ∃ t, pass s a = some t ∧ At t .get (if a.submits then rest else rest++[b]) := by
  have hget : At (s.goOn .get true) (.submitRxUrb b) rest := by
    apply At.next <;> simp [State.advance, h.2.2, h.1]
  have hcheck : At ((s.goOn .get true).goOn (.submitRxUrb b) true) (.allocSkb b) rest := by
    apply At.next <;> simp [State.advance, hget.1, hget.2.2]
  obtain ⟨u, hu⟩ : ∃ u, u = (s.goOn .get true).goOn (.submitRxUrb b) true := ⟨_, rfl⟩
  rw [← hu] at hcheck
  have hstart (es : List Act) : exec step s ([.advance .get true, .advance (.submitRxUrb b) true,
      .advance (.allocSkb b) a.skb]++es) = exec step (u.goOn (.allocSkb b) a.skb) es := by
    rw [List.cons_append, h.exec (by simp), List.cons_append, hget.exec (by simp), ← hu,
      List.cons_append, hcheck.exec (by simp), List.nil_append]
  unfold pass
  rw [h.2.2]
  dsimp only
  unfold passSteps
  rw [hstart]
  rcases a with ⟨_ | _, taken⟩
  · have hfail : At (u.goOn (.allocSkb b) false) (.putFail b) rest :=
      At.next rfl hcheck.1 hcheck.2.2
    have hback : At ((u.goOn (.allocSkb b) false).goOn (.putFail b) true) .refillFail
        (rest++[b]) := hfail.put rfl
    have hend : At (((u.goOn (.allocSkb b) false).goOn (.putFail b) true).goOn .refillFail true)
        .get (rest++[b]) := by
      apply At.next
      · exact if_pos hback.1
      · exact hback.1
      · exact hback.2.2
    refine ⟨_, ?_, hend⟩
    dsimp only
    rw [hfail.exec (by simp), hback.exec (by simp)]
    rfl
  · have halloc : At (u.goOn (.allocSkb b) true) (.submitUrb b) rest :=
      At.next rfl hcheck.1 hcheck.2.2
    cases taken with
    | true =>
      have hend : At ((u.goOn (.allocSkb b) true).goOn (.submitUrb b) true) .get rest :=
        At.next rfl halloc.1 halloc.2.2
      refine ⟨_, ?_, hend⟩
      dsimp only
      rw [halloc.exec (by simp)]
      rfl
    | false =>
      have hrefused : At ((u.goOn (.allocSkb b) true).goOn (.submitUrb b) false) (.putRefused b)
          rest := At.next rfl halloc.1 halloc.2.2
      have hend : At (((u.goOn (.allocSkb b) true).goOn (.submitUrb b) false).goOn
          (.putRefused b) true) .get (rest++[b]) := hrefused.put rfl
      refine ⟨_, ?_, hend⟩
      dsimp only
      rw [halloc.exec (by simp), hrefused.exec (by simp)]
      rfl

theorem submissions_succ (answers : ℕ → Answer) (k : ℕ) :
    submissions answers (k+1) = submissions answers k+if (answers k).submits then 1 else 0 := by
  simp [submissions, List.range_succ, List.countP_append]

theorem submissions_mono (answers : ℕ → Answer) {j k : ℕ} (hjk : j ≤ k) :
    submissions answers j ≤ submissions answers k :=
  (List.range_sublist.mpr hjk).countP_le

/-- After `k` passes the loop is at its test again, with so many buffers less. -/
theorem passes_at {free : List BufId} (h : At s .get free) {answers : ℕ → Answer} {k : ℕ}
    (hk : passes answers k s = some t) :
    ∃ rest, At t .get rest ∧ rest.length+submissions answers k = free.length := by
  induction k generalizing t with
  | zero =>
    obtain rfl := Option.some.inj hk
    exact ⟨free, h, rfl⟩
  | succ k ih =>
    obtain ⟨u, hu, hpass⟩ := Option.bind_eq_some_iff.mp hk
    obtain ⟨rest, hat, hlen⟩ := ih hu
    cases rest with
    | nil =>
      rw [pass, hat.2.2] at hpass
      cases hpass
    | cons b rest =>
      obtain ⟨v, hv, hnext⟩ := pass_at hat (answers k)
      obtain rfl := Option.some.inj (hv.symm.trans hpass)
      refine ⟨_, hnext, ?_⟩
      rw [submissions_succ]
      rw [List.length_cons] at hlen
      split_ifs
      · omega
      · rw [List.length_append, List.length_singleton]
        omega

/-- While buffers are left, the loop makes one more pass. -/
theorem passes_some {free : List BufId} (h : At s .get free) (answers : ℕ → Answer) {k : ℕ}
    (hk : ∀ j < k, submissions answers j < free.length) : ∃ t, passes answers k s = some t := by
  induction k with
  | zero => exact ⟨s, rfl⟩
  | succ k ih =>
    obtain ⟨u, hu⟩ := ih fun j hj => hk j (Nat.lt_succ_of_lt hj)
    obtain ⟨rest, hat, hlen⟩ := passes_at h hu
    have hleft := hk k (Nat.lt_succ_self k)
    cases rest with
    | nil =>
      rw [List.length_nil] at hlen
      omega
    | cons b rest =>
      obtain ⟨v, hv, -⟩ := pass_at hat (answers k)
      exact ⟨v, Option.bind_eq_some_iff.mpr ⟨u, hu, hv⟩⟩

/-- The loop ends when it has submitted every free buffer, and only then. -/
theorem ends_iff {free : List BufId} (h : At s .get free) (answers : ℕ → Answer) :
    Ends s answers ↔ ∃ k, submissions answers k = free.length := by
  constructor
  · rintro ⟨k, t, hk, hend⟩
    obtain ⟨rest, hat, hlen⟩ := passes_at h hk
    rw [← hat.2.2, hend, List.length_nil] at hlen
    exact ⟨k, by omega⟩
  · intro hexists
    classical
    have hk := Nat.find_spec hexists
    have hbefore (j : ℕ) (hj : j < Nat.find hexists) : submissions answers j < free.length := by
      have hle := submissions_mono answers hj.le
      have hne := Nat.find_min hexists hj
      omega
    obtain ⟨t, ht⟩ := passes_some h answers hbefore
    obtain ⟨rest, hat, hlen⟩ := passes_at h ht
    refine ⟨_, t, ht, hat.2.2.trans (List.eq_nil_of_length_eq_zero ?_)⟩
    omega

/-! ## Runs -/

/-- What the claim asks of a state; the loop is asked to end whatever the answers are. -/
def Settled (s : State) : Prop :=
  Sound s ∧ ∀ free, At s .get free → ∀ answers, Ends s answers

/-- Runs that avoid the forgetful branches keep buffers, skbs, counter and refill; a loop
that stands at its test ends exactly when it can submit all that is free. -/
theorem rx_settled (es : List Act) (hes : Meets step Careful init es) :
    Throughout step (fun s => Sound s ∧ ∀ free, At s .get free → ∀ answers,
      (Ends s answers ↔ ∃ k, submissions answers k = free.length)) init es :=
  throughout_of_meets (fun s a t hcare hstep hs => step_inv s a t hcare hstep hs)
    (fun _ h => ⟨inv_sound h, fun _ hat answers => ends_iff hat answers⟩) init_inv hes

def first : BufId := ⟨0, by decide⟩

def second : BufId := ⟨1, by decide⟩

/-- The first pass of the loop after a start. -/
def started : List Act :=
  [.start, .advance .start true, .advance .submitAll true, .advance .get true,
    .advance (.submitRxUrb first) true, .advance (.allocSkb first) true,
    .advance (.submitUrb first) true]

/-- The first URB comes back with a message of twelve bytes. -/
def message : Urb := ⟨0, 12, [8, 0, 0x11, 0, 0, 0, 0, 0, 0, 0, 0, 0]⟩

def received : List Act :=
  [.complete first message, .advance (.rxComplete first message) true,
    .advance (.enqueue first ⟨0, 12, message.data⟩) true, .advance (.count first) true,
    .advance (.put first true) true, .advance .schedule true]

theorem received_settled : Throughout step (fun s => Sound s ∧ ∀ free, At s .get free →
    ∀ answers, (Ends s answers ↔ ∃ k, submissions answers k = free.length)) init
    (started++received++[.process true, .process true, .process true, .process true,
      .process true]) :=
  rx_settled _ (by decide +kernel)

/-- The bus is stopped; the copy of the message finds no room. -/
def stopped : List Act :=
  [.stop, .advance .stop true, .advance .killAnchored true, .advance .get true,
    .advance (.submitRxUrb second) true, .advance (.putFail second) true,
    .advance .refillFail true,
    .process true, .process true, .process false]

instance (s : State) : Decidable s.Quiet := inferInstanceAs (Decidable (_ ∧ _))

theorem uncounted_and_endless :
    (∃ t ∈ exec step init (started++received++stopped), ¬ Settled t) ∧
    ∃ t ∈ exec step init started, ¬ Settled t := by
  have hcount : ∃ t ∈ exec step init (started++received++stopped),
      t.Quiet ∧ t.rxCnt = 1 ∧ t.rxq = [] := by decide +kernel
  have hloop : ∃ t ∈ exec step init started, t.state = .up ∧ Frame.get ∈ t.running ∧
      t.rxFreeList ≠ [] := by decide +kernel
  constructor
  · obtain ⟨t, ht, hquiet, hcnt, hq⟩ := hcount
    refine ⟨t, ht, fun h => ?_⟩
    have hcounted := h.1.counted hquiet
    rw [hcnt, hq] at hcounted
    cases hcounted
  · obtain ⟨t, ht, hup, hget, hfree⟩ := hloop
    refine ⟨t, ht, fun h => ?_⟩
    have hat : At t .get t.rxFreeList := ⟨hup, hget, rfl⟩
    obtain ⟨k, hk⟩ := (ends_iff hat fun _ => ⟨true, false⟩).mp (h.2 _ hat _)
    have hnone : submissions (fun _ => ⟨true, false⟩) k = 0 :=
      List.countP_eq_zero.mpr (by simp [Answer.submits])
    rw [hnone] at hk
    exact hfree (List.eq_nil_of_length_eq_zero hk.symm)

end AIC.UsbRxBuffers
