import Aic8800.ChannelMachine

/-!
# Channel availability checks

The start, the delayed work and the cancel share one interface pointer. Where
they take turns, each check goes through its stages once: a timer, then the work
or a cancel, each of which makes one event, one stop request and one unlink.
-/

set_option autoImplicit false

namespace AIC.CacLifecycle
open AIC.ChannelContext AIC.ChannelMachine Lib.GuardedRun

/-- A timer or a run of the work is pending for `v`, or its start or its cancel is under way. -/
def Pending (hw : Hw) (v : VifId) : Prop :=
  hw.timer = some v ∨ hw.work.map Prod.fst = some v ∨
    match hw.rtnl with
    | .startCac u _ => u = v
    | .cancel _ _ => hw.cacVif = some v
    | _ => False

structure Ended (hw : Hw) : Prop where
  /-- One event, one stop request and one unlink for each start that returned 0. -/
  once : ∀ v, ¬ Pending hw v →
    hw.log.count (.finished v)+hw.log.count (.aborted v) = hw.log.count (.started v) ∧
      hw.log.count (.stopReq v) = hw.log.count (.started v) ∧
      hw.log.count (.unlinked v) = hw.log.count (.started v)
  own : ∀ u v, .cancelled u v ∈ hw.log → u = v
  failed : ∀ v, .failed v true ∉ hw.log
  sound : hw.oops = false ∧ hw.outside = false

/-- A start still waits for the firmware. -/
def asking : Rtnl → Bool
  | .startCac _ _ => true
  | _ => false

/-- The work has done everything but clear the pointer. -/
def clearing (hw : Hw) : Bool := decide (hw.work.map Prod.snd = some .clear)

/-- The check of `v` still needs the context of `v`. -/
def Checked (hw : Hw) (v : VifId) : Prop :=
  hw.cacVif = some v ∧ clearing hw = false ∧ asking hw.rtnl = false

/-- Nobody else's check is pending, nor a run of the work that has more to do. -/
def Cancels (hw : Hw) (u : VifId) : Prop :=
  hw.cacVif = none ∨ clearing hw = true ∨ hw.cacVif = some u ∧ hw.work = none

/-- `v` leaves its context for `chIdx`. -/
def Keeps (hw : Hw) (v : VifId) (chIdx : ℕ) : Prop := Checked hw v → chIdx < NX_CHAN_CTXT_CNT

def TakesTurns (hw : Hw) : Act → Prop
  | .startRadarDetection _ _ => hw.cacVif = none ∧ hw.timer = none ∧ hw.work = none
  | .startCacCfm status chIdx => status = CO_OK ∧ chIdx < NX_CHAN_CTXT_CNT
  | .fire => asking hw.rtnl = false
  | .close u | .stopAp u => Cancels hw u
  | .leaveMesh _ status => status = CO_OK → hw.cacVif = none ∨ clearing hw = true
  | .disconnectInd v => ¬ Checked hw v
  | .connectInd _ statusCode chIdx _ => statusCode = 0 → ∀ m ∈ hw.monitorVif, Keeps hw m chIdx
  | .csaFinishInd v status chIdx =>
    (hw.vif v).iftype ≠ .ap ∧ (hw.vif v).iftype ≠ .p2pGo → status = 0 → Keeps hw v chIdx
  | .csaFinish v sent chIdx _ => sent = true → Keeps hw v chIdx
  | .monitorCfm cfm _ => ∀ c ∈ cfm,
    match hw.rtnl with
    | .monitor m => Keeps hw m c.1
    | _ => True
  | _ => True

instance (hw : Hw) (v : VifId) : Decidable (Checked hw v) := inferInstanceAs (Decidable (_ ∧ _))

instance (hw : Hw) (u : VifId) : Decidable (Cancels hw u) := inferInstanceAs (Decidable (_ ∨ _))

instance (hw : Hw) (v : VifId) (chIdx : ℕ) : Decidable (Keeps hw v chIdx) :=
  inferInstanceAs (Decidable (_ → _))

instance (hw : Hw) (a : Act) : Decidable (TakesTurns hw a) := by
  cases a <;> unfold TakesTurns
  case monitorCfm => cases hw.rtnl <;> infer_instance
  all_goals infer_instance

/-! ## The stages of a check -/

inductive Stage where
  | asked | armed
  | run (pc : CacPc)
  | late
  | cancelling

def Stage.eventDue : Stage → Bool
  | .armed | .run .test | .run .event | .cancelling => true
  | _ => false

def Stage.stopDue : Stage → Bool
  | .armed | .run .test | .run .event | .run .stop => true
  | _ => false

def Stage.unlinkDue : Stage → Bool
  | .armed | .run .test | .run .event | .run .stop | .run .unlink | .cancelling => true
  | _ => false

/-- `rtnl` is free or held by an operation that has nothing to do with checks. -/
inductive Quiet : Rtnl → Prop where
  | idle : Quiet .idle
  | monitor (m : VifId) : Quiet (.monitor m)

inductive Gone : Rtnl → Prop where
  | idle : Gone .idle
  | monitor (m : VifId) : Gone (.monitor m)
  | leaving (v : VifId) (l : Leaver) : Gone (.leaving v l)

theorem Quiet.gone {r : Rtnl} (h : Quiet r) : Gone r := by
  cases h <;> constructor

theorem Quiet.asking {r : Rtnl} (h : Quiet r) : asking r = false := by
  cases h <;> rfl

/-- What the code's state is at each stage of the check of `v`. -/
def Shape (hw : Hw) : Option (VifId × Stage) → Prop
  | none => hw.cacVif = none ∧ hw.timer = none ∧ hw.work = none ∧ Gone hw.rtnl
  | some (v, .asked) =>
    hw.cacVif = some v ∧ hw.timer = some v ∧ hw.work = none ∧ ∃ d, hw.rtnl = .startCac v d
  | some (v, .armed) => hw.cacVif = some v ∧ hw.timer = some v ∧ hw.work = none ∧ Quiet hw.rtnl
  | some (v, .run pc) =>
    hw.cacVif = some v ∧ hw.timer = none ∧ hw.work = some (v, pc) ∧ Quiet hw.rtnl
  | some (v, .late) =>
    hw.cacVif = none ∧ hw.timer = none ∧ hw.work = some (v, .clear) ∧ Gone hw.rtnl
  | some (v, .cancelling) =>
    hw.cacVif = some v ∧ hw.timer = none ∧ hw.work = none ∧ ∃ u l, hw.rtnl = .cancel u l

/-- What is still to be done for `u`. -/
def owed (due : Stage → Bool) (o : Option (VifId × Stage)) (u : VifId) : ℕ :=
  match o with
  | some (v, st) => if v = u ∧ due st = true then 1 else 0
  | none => 0

structure Inv (hw : Hw) (o : Option (VifId × Stage)) : Prop where
  shape : Shape hw o
  events : ∀ u, hw.log.count (.finished u)+hw.log.count (.aborted u)+owed Stage.eventDue o u =
    hw.log.count (.started u)
  stops : ∀ u, hw.log.count (.stopReq u)+owed Stage.stopDue o u = hw.log.count (.started u)
  unlinks : ∀ u, hw.log.count (.unlinked u)+owed Stage.unlinkDue o u = hw.log.count (.started u)
  index : ∀ v st, o = some (v, st) → st.unlinkDue = true →
    (hw.vif v).chIndex < NX_CHAN_CTXT_CNT
  own : ∀ u v, .cancelled u v ∈ hw.log → u = v
  failed : ∀ v, .failed v true ∉ hw.log
  sound : hw.oops = false ∧ hw.outside = false

section Inv
variable {hw t : Hw} {o : Option (VifId × Stage)} {v : VifId}

/-- Whose check still owes something has it pending. -/
theorem Shape.owed (h : Shape hw o) (hv : ¬ Pending hw v) (due : Stage → Bool)
    (hdue : due .late = false) : owed due o v = 0 := by
  match o, h with
  | none, _ => rfl
  | some (u, .asked), ⟨_, ht, _⟩ | some (u, .armed), ⟨_, ht, _⟩ =>
    refine if_neg fun hu => hv (Or.inl ?_)
    rw [ht, hu.1]
  | some (u, .run pc), ⟨_, _, hw, _⟩ =>
    refine if_neg fun hu => hv (Or.inr (Or.inl ?_))
    rw [hw, ← hu.1]
    rfl
  | some (u, .late), _ => simp [CacLifecycle.owed, hdue]
  | some (u, .cancelling), ⟨hc, _, _, w, l, hr⟩ =>
    refine if_neg fun hu => hv (Or.inr (Or.inr ?_))
    rw [hr]
    exact hu.1 ▸ hc

theorem Inv.ended (h : Inv hw o) : Ended hw where
  once v hv := by
    have hevents := h.events v
    have hstops := h.stops v
    have hunlinks := h.unlinks v
    rw [h.shape.owed hv _ rfl, Nat.add_zero] at hevents hstops hunlinks
    exact ⟨hevents, hstops, hunlinks⟩
  own := h.own
  failed := h.failed
  sound := h.sound

/-- The check is left as it is. -/
structure Apart (hw t : Hw) : Prop where
  cacVif : t.cacVif = hw.cacVif
  timer : t.timer = hw.timer
  work : t.work = hw.work
  log : t.log = hw.log
  oops : t.oops = hw.oops
  outside : t.outside = hw.outside

theorem Shape.apart (h : Shape hw o) (ha : Apart hw t)
    (hr : t.rtnl = hw.rtnl ∨ Quiet hw.rtnl ∧ Quiet t.rtnl) : Shape t o := by
  have hquiet : Quiet hw.rtnl → Quiet t.rtnl := by
    rcases hr with he | ⟨-, ht⟩
    · exact fun hq => he ▸ hq
    · exact fun _ => ht
  have hgone : Gone hw.rtnl → Gone t.rtnl := by
    rcases hr with he | ⟨-, ht⟩
    · exact fun hq => he ▸ hq
    · exact fun _ => ht.gone
  match o, h with
  | none, ⟨hc, ht, hw, hg⟩ =>
    exact ⟨ha.cacVif.trans hc, ha.timer.trans ht, ha.work.trans hw, hgone hg⟩
  | some (u, .asked), ⟨hc, ht, hw, d, hd⟩ =>
    refine ⟨ha.cacVif.trans hc, ha.timer.trans ht, ha.work.trans hw, d, ?_⟩
    rcases hr with he | ⟨hq, -⟩
    · exact he.trans hd
    · rw [hd] at hq
      cases hq
  | some (u, .armed), ⟨hc, ht, hw, hq⟩ | some (u, .run pc), ⟨hc, ht, hw, hq⟩ =>
    exact ⟨ha.cacVif.trans hc, ha.timer.trans ht, ha.work.trans hw, hquiet hq⟩
  | some (u, .late), ⟨hc, ht, hw, hg⟩ =>
    exact ⟨ha.cacVif.trans hc, ha.timer.trans ht, ha.work.trans hw, hgone hg⟩
  | some (u, .cancelling), ⟨hc, ht, hw, w, l, hd⟩ =>
    refine ⟨ha.cacVif.trans hc, ha.timer.trans ht, ha.work.trans hw, w, l, ?_⟩
    rcases hr with he | ⟨hq, -⟩
    · exact he.trans hd
    · rw [hd] at hq
      cases hq

theorem Shape.checked (h : Shape hw o) {st : Stage} (ho : o = some (v, st))
    (hst : st.unlinkDue = true) : Checked hw v := by
  subst ho
  cases st with
  | asked | late => cases hst
  | armed =>
    obtain ⟨hc, -, hw, hq⟩ := h
    exact ⟨hc, by simp [clearing, hw], hq.asking⟩
  | run pc =>
    obtain ⟨hc, -, hw, hq⟩ := h
    refine ⟨hc, ?_, hq.asking⟩
    have hpc : pc ≠ .clear := by
      rintro rfl
      cases hst
    simp [clearing, hw, hpc]
  | cancelling =>
    obtain ⟨hc, -, hw, w, l, hr⟩ := h
    exact ⟨hc, by simp [clearing, hw], by simp [asking, hr]⟩

/-- A step that leaves the check alone and its interface a context. -/
theorem Inv.apart (h : Inv hw o) (ha : Apart hw t)
    (hr : t.rtnl = hw.rtnl ∨ Quiet hw.rtnl ∧ Quiet t.rtnl)
    (hindex : ∀ v, Checked hw v → (hw.vif v).chIndex < NX_CHAN_CTXT_CNT →
      (t.vif v).chIndex < NX_CHAN_CTXT_CNT) : Inv t o where
  shape := h.shape.apart ha hr
  events := ha.log ▸ h.events
  stops := ha.log ▸ h.stops
  unlinks := ha.log ▸ h.unlinks
  index v st ho hst := hindex v (h.shape.checked ho hst) (h.index v st ho hst)
  own := ha.log ▸ h.own
  failed := ha.log ▸ h.failed
  sound := ⟨ha.oops.trans h.sound.1, ha.outside.trans h.sound.2⟩

/-- The check goes from one stage to another and makes the events `e`. -/
theorem Inv.pass (h : Inv hw o) {o' : Option (VifId × Stage)} {e : List Event}
    (hlog : t.log = e++hw.log) (hshape : Shape t o')
    (hevents : ∀ u, e.count (.finished u)+e.count (.aborted u)+owed Stage.eventDue o' u =
      e.count (.started u)+owed Stage.eventDue o u)
    (hstops : ∀ u, e.count (.stopReq u)+owed Stage.stopDue o' u =
      e.count (.started u)+owed Stage.stopDue o u)
    (hunlinks : ∀ u, e.count (.unlinked u)+owed Stage.unlinkDue o' u =
      e.count (.started u)+owed Stage.unlinkDue o u)
    (hindex : ∀ v st, o' = some (v, st) → st.unlinkDue = true →
      (t.vif v).chIndex < NX_CHAN_CTXT_CNT)
    (hown : ∀ u v, .cancelled u v ∈ e → u = v) (hfailed : ∀ v, .failed v true ∉ e)
    (hsound : t.oops = false ∧ t.outside = false) : Inv t o' where
  shape := hshape
  events u := by
    have hold := h.events u
    have hnew := hevents u
    simp only [hlog, List.count_append]
    omega
  stops u := by
    have hold := h.stops u
    have hnew := hstops u
    simp only [hlog, List.count_append]
    omega
  unlinks u := by
    have hold := h.unlinks u
    have hnew := hunlinks u
    simp only [hlog, List.count_append]
    omega
  index := hindex
  own u v hm := by
    rw [hlog, List.mem_append] at hm
    exact hm.elim (hown u v) (h.own u v)
  failed v hm := by
    rw [hlog, List.mem_append] at hm
    exact hm.elim (hfailed v) (h.failed v)
  sound := hsound

/-! ## Links and unlinks of others -/

theorem Apart.trans {u : Hw} (h : Apart hw t) (h' : Apart t u) : Apart hw u where
  cacVif := h'.cacVif.trans h.cacVif
  timer := h'.timer.trans h.timer
  work := h'.work.trans h.work
  log := h'.log.trans h.log
  oops := h'.oops.trans h.oops
  outside := h'.outside.trans h.outside

theorem link_apart (hw : Hw) (v : VifId) (i : ℕ) (d : Option Chandef) :
    Apart hw (hw.rwnxChanctxLink v i d) ∧ (hw.rwnxChanctxLink v i d).rtnl = hw.rtnl := by
  unfold Hw.rwnxChanctxLink
  split_ifs
  · exact ⟨⟨rfl, rfl, rfl, rfl, rfl, rfl⟩, rfl⟩
  · exact ⟨⟨rfl, rfl, rfl, rfl, rfl, rfl⟩, rfl⟩

theorem unlink_apart (hw : Hw) (v : VifId) :
    Apart hw (hw.rwnxChanctxUnlink v) ∧ (hw.rwnxChanctxUnlink v).rtnl = hw.rtnl := by
  unfold Hw.rwnxChanctxUnlink
  split_ifs
  · exact ⟨⟨rfl, rfl, rfl, rfl, rfl, rfl⟩, rfl⟩
  · exact ⟨⟨rfl, rfl, rfl, rfl, rfl, rfl⟩, rfl⟩

theorem radar_apart (hw : Hw) : Apart hw hw.radarDetectionEnableOnCurChannel ∧
    hw.radarDetectionEnableOnCurChannel.rtnl = hw.rtnl ∧
      hw.radarDetectionEnableOnCurChannel.vif = hw.vif := by
  unfold Hw.radarDetectionEnableOnCurChannel
  split_ifs
  · exact ⟨⟨rfl, rfl, rfl, rfl, rfl, rfl⟩, rfl, rfl⟩
  · exact ⟨⟨rfl, rfl, rfl, rfl, rfl, rfl⟩, rfl, rfl⟩

/-- A link leaves a context that is in the table in it. -/
theorem link_index (hw : Hw) (v u : VifId) (i : ℕ) (d : Option Chandef)
    (hu : (hw.vif u).chIndex < NX_CHAN_CTXT_CNT) :
    ((hw.rwnxChanctxLink v i d).vif u).chIndex < NX_CHAN_CTXT_CNT := by
  unfold Hw.rwnxChanctxLink
  split_ifs with hi
  · exact hu
  · rw [show ((hw.setChIndex v i).setCtxt i _).vif = (hw.setChIndex v i).vif from rfl]
    by_cases huv : u = v
    · rw [huv, Hw.setChIndex_self]
      exact Nat.not_le.mp hi
    · rwa [Hw.setChIndex_other hw huv]

theorem unlink_other (hw : Hw) {u v : VifId} (h : u ≠ v) :
    (hw.rwnxChanctxUnlink v).vif u = hw.vif u := by
  unfold Hw.rwnxChanctxUnlink
  split_ifs
  · rfl
  · exact Hw.setChIndex_other _ h _

theorem relink_index (hw : Hw) {v u : VifId} {i : ℕ} {d : Option Chandef}
    (hu : (hw.vif u).chIndex < NX_CHAN_CTXT_CNT) (hi : u = v → i < NX_CHAN_CTXT_CNT) :
    (((hw.rwnxChanctxUnlink v).rwnxChanctxLink v i d).vif u).chIndex < NX_CHAN_CTXT_CNT := by
  by_cases huv : u = v
  · rw [Hw.rwnxChanctxLink, if_neg (Nat.not_le.mpr (hi huv)), huv]
    rw [show ((Hw.setChIndex _ v i).setCtxt i _).vif = (Hw.setChIndex _ v i).vif from rfl,
      Hw.setChIndex_self]
    exact hi huv
  · apply link_index
    rwa [unlink_other hw huv]

theorem radar_if_apart (hw : Hw) (i : ℕ) :
    Apart hw (if hw.curChanctx = i then hw.radarDetectionEnableOnCurChannel else hw) ∧
      (if hw.curChanctx = i then hw.radarDetectionEnableOnCurChannel else hw).rtnl = hw.rtnl ∧
      (if hw.curChanctx = i then hw.radarDetectionEnableOnCurChannel else hw).vif = hw.vif := by
  split_ifs
  · exact radar_apart hw
  · exact ⟨⟨rfl, rfl, rfl, rfl, rfl, rfl⟩, rfl, rfl⟩

/-! ## The stages follow each other -/

theorem Shape.asked (h : Shape hw o) {d : Chandef} (hr : hw.rtnl = .startCac v d) :
    o = some (v, .asked) := by
  match o, h with
  | none, ⟨_, _, _, hg⟩ | some (_, .late), ⟨_, _, _, hg⟩ =>
    rw [hr] at hg
    cases hg
  | some (u, .asked), ⟨_, _, _, d', hd⟩ =>
    rw [hr] at hd
    cases hd
    rfl
  | some (_, .armed), ⟨_, _, _, hq⟩ | some (_, .run _), ⟨_, _, _, hq⟩ =>
    rw [hr] at hq
    cases hq
  | some (_, .cancelling), ⟨_, _, _, _, _, hd⟩ =>
    rw [hr] at hd
    cases hd

theorem Shape.cancelling (h : Shape hw o) {u : VifId} {l : Leaver} (hr : hw.rtnl = .cancel u l) :
    ∃ v, hw.cacVif = some v ∧ hw.timer = none ∧ hw.work = none ∧ o = some (v, .cancelling) := by
  match o, h with
  | none, ⟨_, _, _, hg⟩ | some (_, .late), ⟨_, _, _, hg⟩ =>
    rw [hr] at hg
    cases hg
  | some (u, .asked), ⟨_, _, _, d', hd⟩ =>
    rw [hr] at hd
    cases hd
  | some (_, .armed), ⟨_, _, _, hq⟩ | some (_, .run _), ⟨_, _, _, hq⟩ =>
    rw [hr] at hq
    cases hq
  | some (v, .cancelling), ⟨hc, ht, hw, _⟩ => exact ⟨v, hc, ht, hw, rfl⟩

/-- Without a check there is at most a run of the work that clears the pointer. -/
theorem Shape.unchecked (h : Shape hw o) (hc : hw.cacVif = none) :
    hw.timer = none ∧ (hw.work = none ∧ o = none ∨
      ∃ v, hw.work = some (v, .clear) ∧ o = some (v, .late)) := by
  match o, h with
  | none, ⟨_, ht, hw, _⟩ => exact ⟨ht, Or.inl ⟨hw, rfl⟩⟩
  | some (v, .late), ⟨_, ht, hw, _⟩ => exact ⟨ht, Or.inr ⟨v, hw, rfl⟩⟩
  | some (_, .asked), ⟨hs, _⟩ | some (_, .armed), ⟨hs, _⟩ | some (_, .run _), ⟨hs, _⟩
  | some (_, .cancelling), ⟨hs, _⟩ =>
    rw [hc] at hs
    cases hs

theorem Inv.leave (h : Inv hw o) (hc : hw.cacVif = none) (ha : Apart hw t) (hg : Gone t.rtnl) :
    Inv t o := by
  obtain ⟨ht, hw'⟩ := h.shape.unchecked hc
  refine h.pass (e := []) ha.log ?_ (by simp) (by simp) (by simp) ?_ (by simp) (by simp)
    ⟨ha.oops.trans h.sound.1, ha.outside.trans h.sound.2⟩
  · rcases hw' with ⟨hw', rfl⟩ | ⟨v, hw', rfl⟩
    · exact ⟨ha.cacVif.trans hc, ha.timer.trans ht, ha.work.trans hw', hg⟩
    · exact ⟨ha.cacVif.trans hc, ha.timer.trans ht, ha.work.trans hw', hg⟩
  · rintro v st rfl hst
    rcases hw' with ⟨-, ho⟩ | ⟨u, -, ho⟩
    · cases ho
    · cases ho
      cases hst

theorem start_inv (h : Inv hw o) (hc : hw.cacVif = none) (hw' : hw.work = none)
    (d : Chandef) : Inv (startRadarDetection hw v d) (some (v, .asked)) := by
  obtain ⟨ht, ⟨-, rfl⟩ | ⟨u, hu, -⟩⟩ := h.shape.unchecked hc
  · refine h.pass (e := []) rfl ⟨rfl, ?_, hw', d, rfl⟩ ?_ ?_ ?_ ?_ (by simp) (by simp) h.sound
    · simp [startRadarDetection, ht]
    · simp [owed, Stage.eventDue]
    · simp [owed, Stage.stopDue]
    · simp [owed, Stage.unlinkDue]
    · rintro u st ho hst
      cases ho
      cases hst
  · rw [hw'] at hu
    cases hu

theorem link_self (hw : Hw) (v : VifId) {i : ℕ} (hi : i < NX_CHAN_CTXT_CNT) (d : Option Chandef) :
    ((hw.rwnxChanctxLink v i d).vif v).chIndex = i := by
  rw [Hw.rwnxChanctxLink, if_neg (Nat.not_le.mpr hi)]
  exact Hw.setChIndex_self hw v i

theorem startCfm_inv (h : Inv hw o) {d : Chandef} (hr : hw.rtnl = .startCac v d) {i : ℕ}
    (hi : i < NX_CHAN_CTXT_CNT) : Inv (startCacCfm hw v d CO_OK i) (some (v, .armed)) := by
  obtain rfl := h.shape.asked hr
  obtain ⟨hc, ht, hw', -⟩ := h.shape
  obtain ⟨ha, hlink⟩ := link_apart { hw with rtnl := .idle } v i (some d)
  rw [startCacCfm, if_pos rfl]
  refine h.pass (e := [.started v]) ?_ ⟨ha.cacVif.trans hc, ha.timer.trans ht, ha.work.trans hw', ?_⟩
    ?_ ?_ ?_ ?_ (by simp) (by simp) ⟨ha.oops.trans h.sound.1, ha.outside.trans h.sound.2⟩
  · exact congrArg (Event.started v :: ·) ha.log
  · exact hlink ▸ Quiet.idle
  · intro u
    by_cases hu : v = u <;> simp [owed, Stage.eventDue, hu]
  · intro u
    by_cases hu : v = u <;> simp [owed, Stage.stopDue, hu]
  · intro u
    by_cases hu : v = u <;> simp [owed, Stage.unlinkDue, hu]
  · rintro u st ho -
    cases ho
    have hself := link_self { hw with rtnl := .idle } v hi (some d)
    exact lt_of_eq_of_lt hself hi

theorem fire_inv (h : Inv hw o) (ht : hw.timer = some v) (hr : asking hw.rtnl = false) :
    Inv { hw with timer := none, work := some (v, .test) } (some (v, .run .test)) := by
  match o, h with
  | none, h | some (_, .run _), h | some (_, .late), h | some (_, .cancelling), h =>
    have hnone := h.shape.2.1
    rw [ht] at hnone
    cases hnone
  | some (u, .asked), h =>
    obtain ⟨-, -, -, d, hd⟩ := h.shape
    rw [hd] at hr
    cases hr
  | some (u, .armed), h =>
    obtain ⟨hc, hu, -, hq⟩ := h.shape
    obtain rfl : u = v := Option.some.inj (hu.symm.trans ht)
    refine h.pass (e := []) rfl ⟨hc, rfl, rfl, hq⟩ ?_ ?_ ?_ ?_ (by simp) (by simp) h.sound
    · simp [owed, Stage.eventDue]
    · simp [owed, Stage.stopDue]
    · simp [owed, Stage.unlinkDue]
    · rintro w st ho -
      cases ho
      exact h.index u .armed rfl rfl

theorem useCtxt_outside (h : hw.outside = false) (hi : (hw.vif v).chIndex < NX_CHAN_CTXT_CNT) :
    (useCtxt hw v).outside = false := by
  simp only [useCtxt, h, Bool.false_or, decide_eq_false_iff_not]
  omega

/-- The unlink at the end of a check is one of an interface that has a context. -/
theorem cacUnlink_log (hi : (hw.vif v).chIndex < NX_CHAN_CTXT_CNT) :
    (cacUnlink hw v).log = .unlinked v::hw.log ∧ (cacUnlink hw v).rtnl = hw.rtnl ∧
      (cacUnlink hw v).cacVif = hw.cacVif ∧ (cacUnlink hw v).timer = hw.timer ∧
      (cacUnlink hw v).work = hw.work ∧ (cacUnlink hw v).oops = hw.oops ∧
      (cacUnlink hw v).outside = hw.outside := by
  obtain ⟨ha, hr⟩ := unlink_apart hw v
  have hset : (hw.vif v).chIndex ≠ RWNX_CH_NOT_SET := by
    intro hset
    rw [hset] at hi
    exact absurd hi (by decide)
  rw [cacUnlink, if_neg hset]
  exact ⟨congrArg (Event.unlinked v :: ·) ha.log, hr, ha.cacVif, ha.timer, ha.work, ha.oops,
    ha.outside⟩

theorem clear_inv (h : Inv hw o) (hw' : hw.work = some (v, .clear)) :
    Inv { hw with cacVif := none, work := none } none := by
  match o, h with
  | none, h | some (_, .asked), h | some (_, .armed), h | some (_, .cancelling), h =>
    have hnone := h.shape.2.2.1
    rw [hw'] at hnone
    cases hnone
  | some (u, .run pc), h =>
    obtain ⟨-, ht, hu, hq⟩ := h.shape
    cases hu.symm.trans hw'
    exact h.pass (e := []) rfl ⟨rfl, ht, rfl, hq.gone⟩ (by simp [owed, Stage.eventDue])
      (by simp [owed, Stage.stopDue]) (by simp [owed, Stage.unlinkDue]) (by simp) (by simp)
      (by simp) h.sound
  | some (u, .late), h =>
    obtain ⟨-, ht, -, hg⟩ := h.shape
    exact h.pass (e := []) rfl ⟨rfl, ht, rfl, hg⟩ (by simp [owed, Stage.eventDue])
      (by simp [owed, Stage.stopDue]) (by simp [owed, Stage.unlinkDue]) (by simp) (by simp)
      (by simp) h.sound

theorem Shape.running (h : Shape hw o) {pc : CacPc} (hw' : hw.work = some (v, pc))
    (hpc : pc ≠ .clear) : o = some (v, .run pc) := by
  match o, h with
  | none, ⟨_, _, hn, _⟩ | some (_, .asked), ⟨_, _, hn, _⟩ | some (_, .armed), ⟨_, _, hn, _⟩
  | some (_, .cancelling), ⟨_, _, hn, _⟩ =>
    rw [hw'] at hn
    cases hn
  | some (u, .run pc), ⟨_, _, hn, _⟩ =>
    rw [hw'] at hn
    cases hn
    rfl
  | some (u, .late), ⟨_, _, hn, _⟩ =>
    rw [hw'] at hn
    cases hn
    exact absurd rfl hpc

theorem work_inv (h : Inv hw o) {pc : CacPc} (hw' : hw.work = some (v, pc)) :
    ∃ o', Inv (radarCacWork hw v pc) o' := by
  by_cases hpc : pc = .clear
  · subst hpc
    exact ⟨none, clear_inv h hw'⟩
  · obtain rfl := h.shape.running hw' hpc
    obtain ⟨hc, ht, -, hq⟩ := h.shape
    cases pc with
    | clear => exact absurd rfl hpc
    | test =>
      have hi := h.index v _ rfl rfl
      refine ⟨some (v, .run .event), ?_⟩
      simp only [radarCacWork, hc]
      refine h.pass (e := []) rfl ⟨rfl, ht, rfl, hq⟩ (by simp [owed, Stage.eventDue])
        (by simp [owed, Stage.stopDue]) (by simp [owed, Stage.unlinkDue]) ?_ (by simp) (by simp)
        h.sound
      rintro u st ho -
      cases ho
      exact hi
    | event =>
      have hi := h.index v _ rfl rfl
      refine ⟨some (v, .run .stop), ?_⟩
      simp only [radarCacWork, hc]
      refine h.pass (e := [.finished v]) rfl ⟨hc, ht, rfl, hq⟩ ?_ ?_ ?_ ?_ (by simp) (by simp)
        ⟨h.sound.1, useCtxt_outside h.sound.2 hi⟩
      · intro u
        by_cases hu : v = u <;> simp [owed, Stage.eventDue, hu]
      · simp [owed, Stage.stopDue]
      · simp [owed, Stage.unlinkDue]
      · rintro u st ho -
        cases ho
        exact hi
    | stop =>
      have hi := h.index v _ rfl rfl
      refine ⟨some (v, .run .unlink), ?_⟩
      simp only [radarCacWork, hc]
      refine h.pass (e := [.stopReq v]) rfl ⟨hc, ht, rfl, hq⟩ ?_ ?_ ?_ ?_ (by simp) (by simp)
        h.sound
      · simp [owed, Stage.eventDue]
      · intro u
        by_cases hu : v = u <;> simp [owed, Stage.stopDue, hu]
      · simp [owed, Stage.unlinkDue]
      · rintro u st ho -
        cases ho
        exact hi
    | unlink =>
      have hi := h.index v _ rfl rfl
      obtain ⟨hlog, hr, hcac, htimer, -, hoops, hout⟩ := cacUnlink_log hi
      refine ⟨some (v, .run .clear), ?_⟩
      simp only [radarCacWork, hc]
      refine h.pass (e := [.unlinked v]) hlog ⟨hcac.trans hc, htimer.trans ht, rfl, ?_⟩ ?_ ?_ ?_ ?_
        (by simp) (by simp) ⟨hoops.trans h.sound.1, hout.trans h.sound.2⟩
      · exact hr ▸ hq
      · simp [owed, Stage.eventDue]
      · simp [owed, Stage.stopDue]
      · intro u
        by_cases hu : v = u <;> simp [owed, Stage.unlinkDue, hu]
      · rintro u st ho hst
        cases ho
        cases hst

theorem afterCancel_apart (hw : Hw) (u : VifId) (l : Leaver) :
    Apart hw (afterCancel hw u l) ∧ Gone (afterCancel hw u l).rtnl := by
  cases l
  · exact ⟨⟨rfl, rfl, rfl, rfl, rfl, rfl⟩, .leaving u .close⟩
  · exact ⟨⟨rfl, rfl, rfl, rfl, rfl, rfl⟩, .leaving u .stopAp⟩
  · exact ⟨⟨rfl, rfl, rfl, rfl, rfl, rfl⟩, .idle⟩

/-- The stages in which somebody may cancel. -/
theorem Shape.cancels (h : Shape hw o) (hidle : hw.rtnl = .idle) {u : VifId} (hcan : Cancels hw u)
    (hc : hw.cacVif = some v) : u = v ∧ o = some (v, .armed) ∨ o = some (v, .run .clear) := by
  have hrun : clearing hw = true ∨ u = v ∧ hw.work = none := by
    rcases hcan with hn | hclear | ⟨hu, hn⟩
    · rw [hc] at hn
      cases hn
    · exact Or.inl hclear
    · rw [hc] at hu
      exact Or.inr ⟨(Option.some.inj hu).symm, hn⟩
  match o, h with
  | none, ⟨hs, _⟩ | some (_, .late), ⟨hs, _⟩ =>
    rw [hc] at hs
    cases hs
  | some (w, .asked), ⟨_, _, _, d, hd⟩ =>
    rw [hidle] at hd
    cases hd
  | some (w, .armed), ⟨hs, _, hw', _⟩ =>
    obtain rfl : v = w := Option.some.inj (hc.symm.trans hs)
    rcases hrun with hclear | ⟨hu, -⟩
    · simp [clearing, hw'] at hclear
    · exact Or.inl ⟨hu, rfl⟩
  | some (w, .run pc), ⟨hs, _, hw', _⟩ =>
    obtain rfl : v = w := Option.some.inj (hc.symm.trans hs)
    rcases hrun with hclear | ⟨-, hn⟩
    · right
      rw [clearing, hw', decide_eq_true_eq] at hclear
      rw [show pc = .clear from Option.some.inj hclear]
    · rw [hw'] at hn
      cases hn
  | some (w, .cancelling), ⟨_, _, _, _, _, hd⟩ =>
    rw [hidle] at hd
    cases hd

theorem armed_cancel_inv (h : Inv hw (some (v, .armed))) (l : Leaver) :
    Inv (radarCancelCac hw v l) (some (v, .cancelling)) := by
  obtain ⟨hc, ht, hw', -⟩ := h.shape
  have hi := h.index v .armed rfl rfl
  have heq : radarCancelCac hw v l = { ((useCtxt hw v).note (.cancelled v v)).note (.stopReq v) with
      timer := none
      rtnl := .cancel v l } := by simp [radarCancelCac, hc, ht]
  rw [heq]
  refine h.pass (e := [.stopReq v, .cancelled v v]) rfl ⟨hc, rfl, hw', v, l, rfl⟩ ?_ ?_ ?_ ?_
    ?_ (by simp) ⟨h.sound.1, useCtxt_outside h.sound.2 hi⟩
  · simp [owed, Stage.eventDue]
  · intro u
    by_cases hu : v = u <;> simp [owed, Stage.stopDue, hu]
  · simp [owed, Stage.unlinkDue]
  · rintro u st ho -
    cases ho
    exact hi
  · intro u w hm
    simp only [List.mem_cons, reduceCtorEq, Event.cancelled.injEq, List.not_mem_nil, or_false,
      false_or] at hm
    exact hm.1.trans hm.2.symm

/-- The pointer is cleared under a run of the work that has nothing else to do. -/
theorem late_cancel_inv (h : Inv hw (some (v, .run .clear))) (u : VifId) (l : Leaver) :
    Inv (radarCancelCac hw u l) (some (v, .late)) := by
  obtain ⟨hc, ht, hw', hq⟩ := h.shape
  obtain ⟨ha, hg⟩ := afterCancel_apart { hw with cacVif := none } u l
  have heq : radarCancelCac hw u l = afterCancel { hw with cacVif := none } u l := by
    simp [radarCancelCac, hc, ht]
  rw [heq]
  refine h.pass (e := []) ha.log ⟨ha.cacVif, ha.timer.trans ht, ha.work.trans hw', hg⟩ ?_ ?_ ?_ ?_
    (by simp) (by simp) ⟨ha.oops.trans h.sound.1, ha.outside.trans h.sound.2⟩
  · simp [owed, Stage.eventDue]
  · simp [owed, Stage.stopDue]
  · simp [owed, Stage.unlinkDue]
  · rintro w st ho hst
    cases ho
    cases hst

theorem cancel_inv (h : Inv hw o) (hidle : hw.rtnl = .idle) {u : VifId} (hcan : Cancels hw u)
    (l : Leaver) : ∃ o', Inv (radarCancelCac hw u l) o' := by
  cases hc : hw.cacVif with
  | none =>
    obtain ⟨ha, hg⟩ := afterCancel_apart hw u l
    refine ⟨o, ?_⟩
    simp only [radarCancelCac, hc]
    exact h.leave hc ha hg
  | some v =>
    rcases h.shape.cancels hidle hcan hc with ⟨rfl, rfl⟩ | rfl
    · exact ⟨_, armed_cancel_inv h l⟩
    · exact ⟨_, late_cancel_inv h u l⟩

theorem cancelCfm_inv (h : Inv hw o) {u : VifId} {l : Leaver} (hr : hw.rtnl = .cancel u l) :
    Inv (cancelCfm hw u l) none := by
  obtain ⟨v, hc, ht, hw', rfl⟩ := h.shape.cancelling hr
  have hi := h.index v .cancelling rfl rfl
  obtain ⟨hlog, -, -, htimer, hwork, hoops, hout⟩ :=
    cacUnlink_log (v := v) (show ((hw.note (.aborted v)).vif v).chIndex < NX_CHAN_CTXT_CNT from hi)
  obtain ⟨ha, hg⟩ := afterCancel_apart { cacUnlink (hw.note (.aborted v)) v with cacVif := none } u l
  simp only [cancelCfm, hc]
  refine h.pass (e := [.unlinked v, .aborted v]) (ha.log.trans hlog)
    ⟨ha.cacVif, ha.timer.trans (htimer.trans ht), ha.work.trans (hwork.trans hw'), hg⟩ ?_ ?_ ?_ ?_
    (by simp) (by simp)
    ⟨ha.oops.trans (hoops.trans h.sound.1), ha.outside.trans (hout.trans h.sound.2)⟩
  · intro w
    by_cases hu : v = w <;> simp [owed, Stage.eventDue, hu]
  · simp [owed, Stage.stopDue]
  · intro w
    by_cases hu : v = w <;> simp [owed, Stage.unlinkDue, hu]
  · rintro w st ho -
    cases ho

/-- Between a cancel and the unlink behind it nobody starts a check. -/
theorem Shape.leaving (h : Shape hw o) {l : Leaver} (hr : hw.rtnl = .leaving v l) :
    hw.cacVif = none := by
  match o, h with
  | none, ⟨hc, _⟩ | some (_, .late), ⟨hc, _⟩ => exact hc
  | some (_, .asked), ⟨_, _, _, _, hd⟩ =>
    rw [hr] at hd
    cases hd
  | some (_, .armed), ⟨_, _, _, hq⟩ | some (_, .run _), ⟨_, _, _, hq⟩ =>
    rw [hr] at hq
    cases hq
  | some (_, .cancelling), ⟨_, _, _, _, _, hd⟩ =>
    rw [hr] at hd
    cases hd

theorem left_inv (h : Inv hw o) {l : Leaver} (hr : hw.rtnl = .leaving v l) (early : Bool) :
    Inv (left hw v l early) o := by
  have hc := h.shape.leaving hr
  obtain ⟨ha, hrtnl⟩ := unlink_apart { hw with rtnl := .idle } v
  have hidle : Apart hw { hw with rtnl := .idle } := ⟨rfl, rfl, rfl, rfl, rfl, rfl⟩
  simp only [left]
  split_ifs
  · exact h.leave hc hidle .idle
  · exact h.leave hc ((hidle.trans ha).trans ⟨rfl, rfl, rfl, rfl, rfl, rfl⟩)
      (by rw [hrtnl]; exact .idle)
  · exact h.leave hc (hidle.trans ha) (by rw [hrtnl]; exact .idle)

/-! ## Operations that know nothing of checks -/

theorem Inv.link (h : Inv hw o) (v : VifId) (i : ℕ) (d : Option Chandef) :
    Inv (hw.rwnxChanctxLink v i d) o :=
  h.apart (link_apart hw v i d).1 (Or.inl (link_apart hw v i d).2)
    fun u _ hu => link_index hw v u i d hu

theorem Inv.unlink (h : Inv hw o) (hv : ¬ Checked hw v) : Inv (hw.rwnxChanctxUnlink v) o := by
  refine h.apart (unlink_apart hw v).1 (Or.inl (unlink_apart hw v).2) fun u hcheck hu => ?_
  rwa [unlink_other hw (by rintro rfl; exact hv hcheck)]

theorem Inv.relink (h : Inv hw o) {i : ℕ} (hkeep : Keeps hw v i) (d : Option Chandef) :
    Inv ((hw.rwnxChanctxUnlink v).rwnxChanctxLink v i d) o := by
  obtain ⟨ha, hr⟩ := unlink_apart hw v
  obtain ⟨ha', hr'⟩ := link_apart (hw.rwnxChanctxUnlink v) v i d
  refine h.apart (ha.trans ha') (Or.inl (hr'.trans hr)) fun u hcheck hu => ?_
  apply relink_index hw hu
  rintro rfl
  exact hkeep hcheck

theorem Inv.radar_if (h : Inv hw o) (i : ℕ) :
    Inv (if hw.curChanctx = i then hw.radarDetectionEnableOnCurChannel else hw) o := by
  obtain ⟨ha, hr, hvif⟩ := radar_if_apart hw i
  refine h.apart ha (Or.inl hr) fun u _ hu => ?_
  rwa [hvif]

/-- Fields that checks do not read. -/
theorem Inv.still (h : Inv hw o) (ha : Apart hw t)
    (hr : t.rtnl = hw.rtnl ∨ Quiet hw.rtnl ∧ Quiet t.rtnl)
    (hvif : ∀ u, (t.vif u).chIndex = (hw.vif u).chIndex) : Inv t o :=
  h.apart ha hr fun u _ hu => (hvif u).symm ▸ hu

theorem connect_inv (h : Inv hw o) {statusCode i : ℕ}
    (hm : statusCode = 0 → ∀ m ∈ hw.monitorVif, Keeps hw m i) (d : Chandef) :
    Inv (rxSmConnectInd hw v statusCode i d) o := by
  unfold rxSmConnectInd
  split_ifs with hs
  · have hlink := h.link v i (some d)
    obtain ⟨ha, hr⟩ := link_apart hw v i (some d)
    have hmon : (hw.rwnxChanctxLink v i (some d)).monitorVif = hw.monitorVif := by
      unfold Hw.rwnxChanctxLink
      split_ifs <;> rfl
    simp only [hmon]
    cases hvif : hw.monitorVif with
    | none => exact hlink
    | some m =>
      refine hlink.relink (fun hcheck => hm hs m (by simp [hvif]) ?_) none
      obtain ⟨hc, hclear, hask⟩ := hcheck
      refine ⟨ha.cacVif.symm.trans hc, ?_, ?_⟩
      · rw [← hclear, clearing, clearing, ha.work]
      · rwa [hr] at hask
  · exact h

theorem relinked_inv (h : Inv hw o) {i : ℕ} (hkeep : Keeps hw v i) (d : Option Chandef) :
    Inv (relink hw v i d) o := (h.relink hkeep d).radar_if i

theorem meshPeer_inv (h : Inv hw o) (staIdx : ℕ) (estab : Bool) :
    Inv (rxMeshPeerUpdateInd hw v staIdx estab) o := by
  unfold rxMeshPeerUpdateInd
  split_ifs
  · exact h
  · exact h
  · exact (h.link v (hw.vif v).chIndex none).still ⟨rfl, rfl, rfl, rfl, rfl, rfl⟩ (Or.inl rfl)
      fun _ => rfl
  · exact h
  · exact h.still ⟨rfl, rfl, rfl, rfl, rfl, rfl⟩ (Or.inl rfl) fun _ => rfl

theorem startAp_inv (h : Inv hw o) (status i : ℕ) (d : Chandef) :
    Inv (startApCfm hw v status i d) o := by
  unfold startApCfm
  split_ifs
  · exact (h.link v i (some d)).radar_if i
  · exact h

theorem joinMesh_inv (h : Inv hw o) (status i : ℕ) (d : Chandef) (mpm : Bool) :
    Inv (joinMeshCfm hw v status i d mpm) o := by
  unfold joinMeshCfm
  split_ifs
  · have hset : Inv (hw.setVif v { hw.vif v with userMpm := mpm }) o := by
      refine h.still ⟨rfl, rfl, rfl, rfl, rfl, rfl⟩ (Or.inl rfl) fun u => ?_
      by_cases hu : u = v
      · simp [Hw.setVif, hu]
      · simp [Hw.setVif, hu]
    exact (hset.link v i (some d)).radar_if i
  · exact h

theorem setMonitor_inv (h : Inv hw o) (hidle : hw.rtnl = .idle) (d : Option Chandef) :
    Inv (setMonitorChannel hw d) o := by
  cases hm : hw.monitorVif with
  | none =>
    simp only [setMonitorChannel, hm]
    exact h
  | some m =>
    simp only [setMonitorChannel, hm]
    split_ifs
    · exact h
    · exact h.still ⟨rfl, rfl, rfl, rfl, rfl, rfl⟩ (Or.inr ⟨hidle ▸ .idle, .monitor m⟩) fun _ => rfl

theorem monitorCfm_inv (h : Inv hw o) (hr : hw.rtnl = .monitor v) {cfm : Option (ℕ × Chandef)}
    (hkeep : ∀ c ∈ cfm, Keeps hw v c.1) (busy : Bool) : Inv (monitorCfm hw v cfm busy) o := by
  have hidle : Inv { hw with rtnl := .idle } o :=
    h.still ⟨rfl, rfl, rfl, rfl, rfl, rfl⟩ (Or.inr ⟨hr ▸ .monitor v, .idle⟩) fun _ => rfl
  cases cfm with
  | none => exact hidle
  | some c =>
    have hkeep' : Keeps { hw with rtnl := .idle } v c.1 := by
      rintro ⟨hc, hclear, -⟩
      exact hkeep c rfl ⟨hc, hclear, by rw [hr]; rfl⟩
    simp only [monitorCfm]
    split_ifs with hset
    · refine hidle.unlink fun hcheck => ?_
      have hlt := hkeep' hcheck
      rw [hset] at hlt
      exact absurd hlt (by decide)
    all_goals exact hidle.relink hkeep' _

theorem leaveMesh_inv (h : Inv hw o) (hidle : hw.rtnl = .idle) {status : ℕ}
    (hc : status = CO_OK → hw.cacVif = none ∨ clearing hw = true) :
    ∃ o', Inv (leaveMesh hw v status) o' := by
  unfold leaveMesh
  split_ifs with hs
  · obtain ⟨ha, hr⟩ := unlink_apart hw v
    have hun : Inv (hw.rwnxChanctxUnlink v) o := by
      refine h.unlink fun hcheck => ?_
      rcases hc hs with hn | hclear
      · rw [hcheck.1] at hn
        cases hn
      · rw [hcheck.2.1] at hclear
        cases hclear
    refine cancel_inv hun (hr.trans hidle) ?_ .leaveMesh
    rcases hc hs with hn | hclear
    · exact Or.inl (ha.cacVif.trans hn)
    · exact Or.inr (Or.inl (by rwa [clearing, ha.work]))
  · exact ⟨o, h⟩

theorem request_inv {a : Act} (h : Inv hw o) (hidle : hw.rtnl = .idle) (hd : TakesTurns hw a)
    (hs : request hw a = some t) : ∃ o', Inv t o' := by
  cases a with
  | openVif v =>
    obtain rfl := Option.some.inj hs
    refine ⟨o, ?_⟩
    unfold openVif
    split_ifs
    · exact h.still ⟨rfl, rfl, rfl, rfl, rfl, rfl⟩ (Or.inl rfl) fun _ => rfl
    · exact h
  | startApCfm v status chIdx chandef =>
    obtain rfl := Option.some.inj hs
    exact ⟨o, startAp_inv h status chIdx chandef⟩
  | joinMeshCfm v status chIdx chandef mpm =>
    obtain rfl := Option.some.inj hs
    exact ⟨o, joinMesh_inv h status chIdx chandef mpm⟩
  | setMonitorChannel chandef =>
    obtain rfl := Option.some.inj hs
    exact ⟨o, setMonitor_inv h hidle chandef⟩
  | startRadarDetection v chandef =>
    obtain rfl := Option.some.inj hs
    exact ⟨_, start_inv h hd.1 hd.2.2 chandef⟩
  | close v =>
    obtain rfl := Option.some.inj hs
    exact cancel_inv h hidle hd .close
  | stopAp v =>
    obtain rfl := Option.some.inj hs
    exact cancel_inv h hidle hd .stopAp
  | leaveMesh v status =>
    obtain rfl := Option.some.inj hs
    exact leaveMesh_inv h hidle hd
  | _ => cases hs

theorem step_inv {a : Act} (h : Inv hw o) (hd : TakesTurns hw a) (hs : step hw a = some t) :
    ∃ o', Inv t o' := by
  cases a with
  | connectInd v statusCode chIdx chandef =>
    obtain rfl := Option.some.inj hs
    exact ⟨o, connect_inv h hd chandef⟩
  | disconnectInd v =>
    obtain rfl := Option.some.inj hs
    exact ⟨o, h.unlink hd⟩
  | meshPeerUpdateInd v staIdx estab =>
    obtain rfl := Option.some.inj hs
    exact ⟨o, meshPeer_inv h staIdx estab⟩
  | csaFinishInd v status chIdx =>
    obtain rfl := Option.some.inj hs
    refine ⟨o, ?_⟩
    unfold rxCsaFinishInd
    split_ifs with hap hs
    · exact h
    · exact relinked_inv h (hd (not_or.mp hap) hs) none
    · exact h
  | csaFinish v sent chIdx chandef =>
    obtain rfl := Option.some.inj hs
    refine ⟨o, ?_⟩
    unfold rwnxCsaFinish
    split_ifs with hsent
    · exact relinked_inv h (hd hsent) (some chandef)
    · exact h
  | chanSwitchInd chanIdx =>
    obtain rfl := Option.some.inj hs
    obtain ⟨ha, hr, hvif⟩ := radar_apart { hw with curChanctx := chanIdx }
    exact ⟨o, h.still ⟨ha.cacVif, ha.timer, ha.work, ha.log, ha.oops, ha.outside⟩ (Or.inl hr)
      fun u => by rw [rxChanSwitchInd, hvif]⟩
  | fire =>
    simp only [step] at hs
    split at hs
    case h_1 v ht hw' =>
      obtain rfl := Option.some.inj hs
      exact ⟨_, fire_inv h ht hd⟩
    case h_2 => cases hs
  | work =>
    obtain ⟨w, hw', rfl⟩ := Option.map_eq_some_iff.mp hs
    exact work_inv h hw'
  | monitorCfm cfm busy =>
    simp only [step, resume] at hs
    split at hs
    case h_1 m hr =>
      obtain rfl := Option.some.inj hs
      refine ⟨o, monitorCfm_inv h hr (fun c hc => ?_) busy⟩
      simpa only [hr] using hd c hc
    case h_2 => cases hs
  | startCacCfm status chIdx =>
    simp only [step, resume] at hs
    split at hs
    case h_1 v chandef hr =>
      obtain rfl := Option.some.inj hs
      obtain ⟨rfl, hi⟩ := hd
      exact ⟨_, startCfm_inv h hr hi⟩
    case h_2 => cases hs
  | cancelCfm =>
    simp only [step, resume] at hs
    split at hs
    case h_1 u l hr =>
      obtain rfl := Option.some.inj hs
      exact ⟨_, cancelCfm_inv h hr⟩
    case h_2 => cases hs
  | left early =>
    simp only [step, resume] at hs
    split at hs
    case h_1 v l hr =>
      split_ifs at hs
      obtain rfl := Option.some.inj hs
      exact ⟨o, left_inv h hr early⟩
    case h_2 => cases hs
  | openVif | startApCfm | joinMeshCfm | setMonitorChannel | startRadarDetection | close | stopAp
  | leaveMesh =>
    simp only [step] at hs
    split_ifs at hs with hidle
    exact request_inv h hidle hd hs

theorem init_inv (iftype : VifId → Iftype) : Inv (init iftype) none where
  shape := ⟨rfl, rfl, rfl, .idle⟩
  events _ := rfl
  stops _ := rfl
  unlinks _ := rfl
  index _ _ ho := by cases ho
  own u v hm := by cases hm
  failed v hm := by cases hm
  sound := ⟨rfl, rfl⟩

end Inv

/-- Where they take turns each check that was started ends once. -/
theorem run_ended {iftype : VifId → Iftype} {as : List Act}
    (h : Meets step TakesTurns (init iftype) as) : Throughout step Ended (init iftype) as := by
  refine throughout_of_meets (J := fun hw => ∃ o, Inv hw o) ?_ ?_ ⟨none, init_inv iftype⟩ h
  · rintro hw a t hd hs ⟨o, hi⟩
    exact step_inv hi hd hs
  · rintro hw ⟨o, hi⟩
    exact hi.ended

/-- A check that ends by itself, and one that the close of its interface aborts. -/
def sampleRun : List Act :=
  [.startRadarDetection 0 sampleChandef, .startCacCfm CO_OK 0, .fire, .work, .work, .work,
    .connectInd 1 0 2 sampleChandef, .work, .work, .startRadarDetection 0 sampleChandef,
    .startCacCfm CO_OK 1, .disconnectInd 1, .close 0, .cancelCfm, .left false]

theorem run_ended_sample : Throughout step Ended (init fun _ => .ap) sampleRun :=
  run_ended (by decide +kernel)

/-- The firmware refuses the check, and its timer runs. -/
def refusedRun : List Act := [.startRadarDetection 0 sampleChandef, .startCacCfm 1 0]

/-- The close of interface 1 aborts the check of interface 0. -/
def crossedRun : List Act :=
  [.startRadarDetection 0 sampleChandef, .startCacCfm CO_OK 0, .close 1, .cancelCfm, .left false]

/-- The interface is closed while the work waits for the answer to its stop request. -/
def racedRun : List Act :=
  [.startRadarDetection 0 sampleChandef, .startCacCfm CO_OK 0, .fire, .work, .work, .work, .close 0,
    .work]

theorem checks_wrong :
    ¬ Throughout step Ended (init fun _ => .ap) refusedRun ∧
      ¬ Throughout step Ended (init fun _ => .ap) crossedRun ∧
      ¬ Throughout step Ended (init fun _ => .ap) racedRun := by
  refine ⟨fun h => ?_, fun h => ?_, fun h => ?_⟩
  · exact (h refusedRun List.prefix_rfl _ rfl).failed 0 (by decide)
  · exact absurd ((h crossedRun List.prefix_rfl _ rfl).own 1 0 (by decide)) (by decide)
  · exact absurd (h racedRun List.prefix_rfl _ rfl).sound.1 (by decide)

end AIC.CacLifecycle
