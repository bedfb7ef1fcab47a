import Aic8800.ChannelQueues
import Aic8800.Lib.GuardedRun

/-!
# No running queue off the current channel

Every active queue belongs to an interface whose start and stop reach it, so a
pre-switch indication of the current context leaves nothing running, and what
is started after it is on the new one. A queue that is made, or an interface
that is moved, between the two indications is not covered by this.
-/

set_option autoImplicit false

namespace AIC.ChannelGate
open AIC.ChannelContext hiding Vif init
open AIC.ChannelQueues hiding run
open Lib.GuardedRun

def owner (s : State) : QueueId → VifId
  | .bcmc v => v
  | .sta k => (s.sta k).vifIdx

/-- The interface is on the current channel, which no pre-switch is about to leave. -/
def OnAir (s : State) (v : VifId) : Prop :=
  (s.vif v).chIndex = s.curChanctx ∧ s.preSwitch s.curChanctx = false

def Gated (s : State) : Prop :=
  ∀ i, (s.queue i).Running → (s.vif (owner s i)).up = true → OnAir s (owner s i)

/-! ## The condition -/

/-- A link to the current context happens, and not between its pre-switch and the switch. -/
def LinkOk (s : State) (v : VifId) (chIdx : ℕ) : Prop :=
  chIdx = s.curChanctx → s.preSwitch s.curChanctx = false ∧
    (chIdx < NX_CHAN_CTXT_CNT ∨ (s.vif v).chIndex = chIdx)

/-- None of the stations of the interface may send. -/
def Silent (s : State) (v : VifId) : Prop := ∀ k, s.Feeds v k → ¬ (s.queue (.sta k)).Running

def ConnectOk (s : State) (v : VifId) (k : StaId) (chIdx : ℕ) : Prop :=
  LinkOk s v chIdx ∧ (∀ j ∈ (s.vif v).ap, j = k) ∧
    ((s.queue (.sta k)).active = true → (s.vif v).ap = some k)

def StartOk (s : State) (v : VifId) (chIdx : ℕ) (b : StaId) : Prop :=
  LinkOk s v chIdx ∧ (s.queue (.sta b)).active = false ∧
    (chIdx = s.curChanctx ∨ NX_CHAN_CTXT_CNT ≤ chIdx ∨ Silent s v)

/-- The access point has been started, or its channel is the current one by chance. -/
def AddOk (s : State) (v : VifId) (k : StaId) : Prop :=
  (s.queue (.sta k)).active = false ∧
    ((s.queue (.bcmc v)).active = true ∨ (s.queue (.bcmc v)).stop = true ∨ OnAir s v)

def PeerOk (s : State) (v : VifId) (k : StaId) (estab : Bool) : Prop :=
  if estab then (s.vif v).chIndex = s.curChanctx → s.preSwitch s.curChanctx = false
  else (s.sta k).valid = true → (s.sta k).vifIdx = v

def RelinkOk (s : State) (chIdx : ℕ) : Prop :=
  chIdx = s.curChanctx → s.preSwitch s.curChanctx = false ∧
    (chIdx < NX_CHAN_CTXT_CNT ∨ chIdx = RWNX_CH_NOT_SET)

def Timely (s : State) : Act → Prop
  | .switchInd chanIdx roc rocTdls => roc = false → rocTdls = none → chanIdx ≠ RWNX_CH_NOT_SET
  | .connectInd v k status chIdx => status = 0 → ConnectOk s v k chIdx
  | .startAp v status chIdx b => status = CO_OK → StartOk s v chIdx b
  | .joinMesh v status chIdx b _ => status = CO_OK → StartOk s v chIdx b
  | .addStation v status k => status = CO_OK → AddOk s v k
  | .meshPeerUpdateInd v k estab => (s.vif v).iftype = .meshPoint → PeerOk s v k estab
  | .csaFinishInd v status chIdx => Client (s.vif v).iftype ∨ (s.vif v).iftype = .meshPoint →
      status = 0 → RelinkOk s chIdx
  | .csaFinish _ sent chIdx => sent = true → RelinkOk s chIdx
  | .stopAp v => (s.vif v).up = true → Silent s v ∧ ¬ (s.queue (.bcmc v)).Running
  | _ => True

instance (s : State) (v : VifId) : Decidable (OnAir s v) := inferInstanceAs (Decidable (_ ∧ _))

instance (s : State) (v : VifId) (i : ℕ) : Decidable (LinkOk s v i) :=
  inferInstanceAs (Decidable (_ → _ ∧ (_ ∨ _)))

instance (s : State) (v : VifId) : Decidable (Silent s v) :=
  inferInstanceAs (Decidable (∀ k, s.Feeds v k → _))

instance (s : State) (v : VifId) (k : StaId) (i : ℕ) : Decidable (ConnectOk s v k i) :=
  inferInstanceAs (Decidable (_ ∧ (∀ j ∈ (s.vif v).ap, j = k) ∧ (_ → _)))

instance (s : State) (v : VifId) (i : ℕ) (b : StaId) : Decidable (StartOk s v i b) :=
  inferInstanceAs (Decidable (_ ∧ _ ∧ (_ ∨ _ ∨ _)))

instance (s : State) (v : VifId) (k : StaId) : Decidable (AddOk s v k) :=
  inferInstanceAs (Decidable (_ ∧ (_ ∨ _ ∨ _)))

instance (s : State) (v : VifId) (k : StaId) (estab : Bool) : Decidable (PeerOk s v k estab) := by
  unfold PeerOk
  split <;> infer_instance

instance (s : State) (i : ℕ) : Decidable (RelinkOk s i) :=
  inferInstanceAs (Decidable (_ → _ ∧ (_ ∨ _)))

instance (s : State) : ∀ a, Decidable (Timely s a)
  | .switchInd .. => inferInstanceAs (Decidable (_ = false → _ = none → _ ≠ _))
  | .connectInd .. | .startAp .. | .joinMesh .. | .addStation .. | .meshPeerUpdateInd ..
  | .csaFinish .. => inferInstanceAs (Decidable (_ = _ → _))
  | .csaFinishInd .. => inferInstanceAs (Decidable (_ ∨ _ = _ → _ = _ → _))
  | .stopAp .. => inferInstanceAs (Decidable (_ = _ → _ ∧ ¬ _))
  | .preSwitchInd .. | .disconnectInd .. | .stopApEnd => inferInstanceAs (Decidable True)

/-! ## Who reaches a queue -/

structure Fit (s : State) : Prop where
  /-- Start and stop of its interface reach an active station. -/
  home : ∀ k, (s.queue (.sta k)).active = true → s.Feeds (s.sta k).vifIdx k
  /-- Only an `AP_VLAN` interface reaches stations of another. -/
  sole : ∀ v k, (s.vif v).iftype ≠ .apVlan → s.Feeds v k →
    (s.queue (.sta k)).active = true ∧ (s.sta k).vifIdx = v
  bcmc : ∀ v, (s.queue (.bcmc v)).active = true → Bss (s.vif v).iftype
  valid : ∀ k, (s.queue (.sta k)).active = true → (s.sta k).valid = true
  vlan : ∀ v, (s.vif v).iftype = .apVlan → (s.vif v).chIndex = RWNX_CH_NOT_SET

/-- Nothing but the bits of the queues has changed. -/
structure Shape (s t : State) : Prop where
  vif : t.vif = s.vif
  sta : t.sta = s.sta
  active : ∀ i, (t.queue i).active = (s.queue i).active
  cur : t.curChanctx = s.curChanctx
  pre : t.preSwitch = s.preSwitch
  leaving : t.leaving = s.leaving

section Shape
variable {s t u : State} {v : VifId} {i : QueueId}

theorem Shape.refl (s : State) : Shape s s := ⟨rfl, rfl, fun _ => rfl, rfl, rfl, rfl⟩

theorem Shape.trans (h : Shape s t) (h' : Shape t u) : Shape s u where
  vif := h'.vif.trans h.vif
  sta := h'.sta.trans h.sta
  active i := (h'.active i).trans (h.active i)
  cur := h'.cur.trans h.cur
  pre := h'.pre.trans h.pre
  leaving := h'.leaving.trans h.leaving

theorem Shape.feeds (h : Shape s t) (v : VifId) (k : StaId) : t.Feeds v k ↔ s.Feeds v k := by
  unfold State.Feeds
  rw [h.vif, h.sta]

theorem Shape.reaches (h : Shape s t) (v : VifId) (i : QueueId) :
    t.Reaches v i ↔ s.Reaches v i := by
  cases i with
  | bcmc u => exact Iff.rfl
  | sta k => exact h.feeds v k

theorem Shape.owner (h : Shape s t) (i : QueueId) : owner t i = owner s i := by
  cases i with
  | bcmc u => rfl
  | sta k => rw [ChannelGate.owner, ChannelGate.owner, h.sta]

theorem feeds_congr {k : StaId} (hv : (t.vif v).iftype = (s.vif v).iftype)
    (hap : (t.vif v).ap = (s.vif v).ap) (hmaster : (t.vif v).master = (s.vif v).master)
    (hlist : (t.sta k).list = (s.sta k).list) : t.Feeds v k ↔ s.Feeds v k := by
  unfold State.Feeds
  rw [hv, hap, hmaster, hlist]

/-- Interfaces, stations and active queues are as before, but for their contexts. -/
theorem Fit.same (h : Fit s) (hvif : ∀ v, (t.vif v).iftype = (s.vif v).iftype ∧
      (t.vif v).ap = (s.vif v).ap ∧ (t.vif v).master = (s.vif v).master)
    (hsta : t.sta = s.sta) (hactive : ∀ i, (t.queue i).active = (s.queue i).active)
    (hvlan : ∀ v, (s.vif v).iftype = .apVlan → (t.vif v).chIndex = (s.vif v).chIndex) :
    Fit t := by
  have hfeeds : ∀ v k, t.Feeds v k ↔ s.Feeds v k := fun v k =>
    feeds_congr (hvif v).1 (hvif v).2.1 (hvif v).2.2 (by rw [hsta])
  obtain ⟨h1, h2, h3, h4, h5⟩ := h
  constructor
  · intro k hk
    rw [hfeeds, hsta]
    exact h1 k (by rwa [← hactive])
  · intro v k hv hk
    rw [hactive, hsta]
    exact h2 v k (by rwa [← (hvif v).1]) ((hfeeds v k).mp hk)
  · intro v hv
    rw [(hvif v).1]
    exact h3 v (by rwa [← hactive])
  · intro k hk
    rw [hsta]
    exact h4 k (by rwa [← hactive])
  · intro v hv
    rw [(hvif v).1] at hv
    rw [hvlan v hv]
    exact h5 v hv

theorem Shape.fit (h : Shape s t) (hs : Fit s) : Fit t := by
  refine hs.same (fun v => ?_) h.sta h.active fun v _ => ?_
  · rw [h.vif]
    exact ⟨rfl, rfl, rfl⟩
  · rw [h.vif]

theorem Shape.leaving_bss (h : Shape s t)
    (hs : ∀ v, s.leaving = some v → Bss (s.vif v).iftype) (v : VifId) (hv : t.leaving = some v) :
    Bss (t.vif v).iftype := by
  rw [h.vif]
  exact hs v (h.leaving ▸ hv)

theorem stop_shape (s : State) (v : VifId) : Shape s (s.rwnxTxqVifStop v) := by
  unfold State.rwnxTxqVifStop
  split_ifs
  · exact Shape.refl s
  · refine ⟨rfl, rfl, fun i => ?_, rfl, rfl, rfl⟩
    by_cases hi : s.Reaches v i
    · simp [hi, Queue.halt]
    · simp [hi]

theorem start_shape (s : State) (v : VifId) : Shape s (s.rwnxTxqVifStart v) := by
  unfold State.rwnxTxqVifStart
  split_ifs
  · exact Shape.refl s
  · refine ⟨rfl, rfl, fun i => ?_, rfl, rfl, rfl⟩
    by_cases hi : s.Starts v i
    · simp [hi, Queue.start]
    · simp [hi]

theorem stop_running (h : ((s.rwnxTxqVifStop v).queue i).Running) :
    (s.queue i).Running ∧ ((s.vif v).iftype ≠ .monitor → ¬ s.Reaches v i) := by
  unfold State.rwnxTxqVifStop at h
  by_cases hm : (s.vif v).iftype = .monitor
  · rw [if_pos hm] at h
    exact ⟨h, fun hne => absurd hm hne⟩
  · rw [if_neg hm] at h
    by_cases hi : s.Reaches v i
    · simp only [hi, if_true, Queue.halt, Queue.Running, Bool.or_eq_false_iff] at h
      exact absurd (h.1.symm.trans h.2.2) (by decide)
    · exact ⟨by simpa [hi] using h, fun _ => hi⟩

theorem start_running (h : ((s.rwnxTxqVifStart v).queue i).Running) :
    (s.queue i).Running ∨ s.Reaches v i := by
  unfold State.rwnxTxqVifStart at h
  by_cases hm : (s.vif v).iftype = .monitor
  · rw [if_pos hm] at h
    exact Or.inl h
  · rw [if_neg hm] at h
    by_cases hi : s.Starts v i
    · exact Or.inr hi.1
    · exact Or.inl (by simpa [hi] using h)

/-! ## The loop over the linked interfaces -/

section Loop
variable {c : ℕ} {f : State → VifId → State}

theorem forLinked_cons (s : State) (v : VifId) (l : List VifId) : s.forLinked c f (v::l) =
    (if (s.vif v).up = true ∧ (s.vif v).chIndex = c then f s v else s).forLinked c f l := rfl

theorem loop_shape (hf : ∀ s v, Shape s (f s v)) (s : State) (l : List VifId) :
    Shape s (s.forLinked c f l) := by
  induction l generalizing s with
  | nil => exact Shape.refl s
  | cons v l ih =>
    rw [forLinked_cons]
    split_ifs
    · exact (hf s v).trans (ih (f s v))
    · exact ih s

theorem stop_loop (s : State) {l : List VifId}
    (h : ((s.forLinked c State.rwnxTxqVifStop l).queue i).Running) :
    (s.queue i).Running ∧ ∀ v ∈ l, (s.vif v).up = true → (s.vif v).chIndex = c →
      (s.vif v).iftype ≠ .monitor → ¬ s.Reaches v i := by
  induction l generalizing s with
  | nil => exact ⟨h, fun v hv => absurd hv List.not_mem_nil⟩
  | cons v l ih =>
    rw [forLinked_cons] at h
    split_ifs at h with hv
    · obtain ⟨hrun, hrest⟩ := ih _ h
      have hshape := stop_shape s v
      refine ⟨(stop_running hrun).1, fun w hw hup hc hm => ?_⟩
      rcases List.mem_cons.mp hw with rfl | hw
      · exact (stop_running hrun).2 hm
      · rw [hshape.vif] at hrest
        exact fun hr => hrest w hw hup hc hm ((hshape.reaches w i).mpr hr)
    · obtain ⟨hrun, hrest⟩ := ih _ h
      refine ⟨hrun, fun w hw hup hc hm => ?_⟩
      rcases List.mem_cons.mp hw with rfl | hw
      · exact absurd ⟨hup, hc⟩ hv
      · exact hrest w hw hup hc hm

theorem start_loop (s : State) {l : List VifId}
    (h : ((s.forLinked c State.rwnxTxqVifStart l).queue i).Running) :
    (s.queue i).Running ∨ ∃ v, (s.vif v).chIndex = c ∧ s.Reaches v i := by
  induction l generalizing s with
  | nil => exact Or.inl h
  | cons v l ih =>
    rw [forLinked_cons] at h
    split_ifs at h with hv
    · have hshape := start_shape s v
      rcases ih _ h with hrun | ⟨w, hc, hr⟩
      · rcases start_running hrun with hrun | hr
        · exact Or.inl hrun
        · exact Or.inr ⟨v, hv.2, hr⟩
      · rw [hshape.vif] at hc
        exact Or.inr ⟨w, hc, (hshape.reaches w i).mp hr⟩
    · exact ih s h

end Loop

end Shape

/-! ## Switches -/

structure Inv (s : State) : Prop where
  fit : Fit s
  gated : Gated s
  leaving : ∀ v, s.leaving = some v → Bss (s.vif v).iftype

section Steps
variable {s : State} {v : VifId} {k : StaId} {i : QueueId}

/-- The owner of an active queue reaches it, and is no monitor. -/
theorem Fit.reaches (h : Fit s) (hi : (s.queue i).active = true) :
    s.Reaches (owner s i) i ∧ (s.vif (owner s i)).iftype ≠ .monitor := by
  cases i with
  | bcmc v =>
    refine ⟨rfl, fun hm => ?_⟩
    have hb := h.bcmc v hi
    rw [show (s.vif v).iftype = .monitor from hm] at hb
    exact absurd hb (by decide)
  | sta k =>
    have hf := h.home k hi
    refine ⟨hf, fun hm => ?_⟩
    rw [owner] at hm
    rw [State.Feeds, hm] at hf
    exact hf

/-- The loop has stopped what is linked to `c`. -/
theorem stopped_inv {t : State} {c : ℕ} (h : Inv s) (hshape : Shape s t)
    (hstop : ∀ i, (t.queue i).Running → (s.queue i).Running ∧ ∀ v, (s.vif v).up = true →
      (s.vif v).chIndex = c → (s.vif v).iftype ≠ .monitor → ¬ s.Reaches v i) :
    Inv { t with preSwitch := Function.update s.preSwitch c true } := by
  obtain ⟨h1, h2, h3, h4, h5⟩ := hshape.fit h.fit
  refine ⟨⟨h1, h2, h3, h4, h5⟩, fun i hi hup => ?_, hshape.leaving_bss h.leaving⟩
  have hown : owner { t with preSwitch := Function.update s.preSwitch c true } i = owner s i := by
    rw [← hshape.owner i]
    cases i <;> rfl
  rw [hown] at hup ⊢
  obtain ⟨hrun, hno⟩ := hstop i hi
  have hup' : (s.vif (owner s i)).up = true := by rwa [← hshape.vif]
  obtain ⟨hch, hpre⟩ := h.gated i hrun hup'
  obtain ⟨hreach, hm⟩ := h.fit.reaches hrun.1
  have hne : s.curChanctx ≠ c := by
    rintro rfl
    exact hno _ hup' hch hm hreach
  refine ⟨?_, ?_⟩ <;> simp only [hshape.vif, hshape.cur]
  · exact hch
  · rwa [Function.update_of_ne hne]

theorem preSwitch_inv (h : Inv s) (c : ℕ) : Inv (s.rxChanPreSwitchInd c) :=
  stopped_inv h (loop_shape stop_shape s State.vifs) fun _ hi =>
    have hstop := stop_loop s hi
    ⟨hstop.1, fun v => hstop.2 v (List.mem_finRange v)⟩

/-- The indication for the new context comes when everything is stopped. -/
theorem switched_inv {t : State} (h : Inv s) (hshape : Shape s t)
    (hpre : s.preSwitch s.curChanctx = true) {c : ℕ}
    (hstart : ∀ i, (t.queue i).Running → (s.queue i).Running ∨ ∃ v, (s.vif v).chIndex = c ∧
      c ≠ RWNX_CH_NOT_SET ∧ s.Reaches v i) :
    Inv { t with curChanctx := c, preSwitch := fun _ => false } := by
  obtain ⟨h1, h2, h3, h4, h5⟩ := hshape.fit h.fit
  refine ⟨⟨h1, h2, h3, h4, h5⟩, fun i hi hup => ?_, hshape.leaving_bss h.leaving⟩
  have hown : owner { t with curChanctx := c, preSwitch := fun _ => false } i = owner s i := by
    rw [← hshape.owner i]
    cases i <;> rfl
  rw [hown] at hup ⊢
  refine ⟨?_, rfl⟩
  simp only [hshape.vif] at hup ⊢
  rcases hstart i hi with hrun | ⟨v, hch, hc, hr⟩
  · rw [(h.gated i hrun hup).2] at hpre
    cases hpre
  · cases i with
    | bcmc u =>
      rw [show u = v from hr]
      exact hch
    | sta k =>
      have hvlan : (s.vif v).iftype ≠ .apVlan := fun hv => hc (hch ▸ h.fit.vlan v hv)
      rw [show owner s (.sta k) = v from (h.fit.sole v k hvlan hr).2]
      exact hch

theorem rocTdls_inv (h : Inv s) (n : ℕ) : Inv (s.setRocTdls n) := by
  have hvif : ∀ v, ((s.setRocTdls n).vif v).iftype = (s.vif v).iftype ∧
      ((s.setRocTdls n).vif v).ap = (s.vif v).ap ∧
      ((s.setRocTdls n).vif v).master = (s.vif v).master ∧
      ((s.setRocTdls n).vif v).chIndex = (s.vif v).chIndex ∧
      ((s.setRocTdls n).vif v).up = (s.vif v).up := by
    intro v
    simp only [State.setRocTdls]
    split_ifs <;> exact ⟨rfl, rfl, rfl, rfl, rfl⟩
  have hown : ∀ i, owner (s.setRocTdls n) i = owner s i := fun i => by cases i <;> rfl
  refine ⟨h.fit.same (fun v => ⟨(hvif v).1, (hvif v).2.1, (hvif v).2.2.1⟩) rfl (fun _ => rfl)
    fun v _ => (hvif v).2.2.2.1, fun i hi hup => ?_, fun v hv => ?_⟩
  rotate_left
  · rw [(hvif v).1]
    exact h.leaving v hv
  rw [hown, (hvif _).2.2.2.2] at hup
  obtain ⟨hch, hpre⟩ := h.gated i hi hup
  rw [hown]
  exact ⟨(hvif _).2.2.2.1.trans hch, hpre⟩

theorem switch_inv (h : Inv s) (hpre : s.preSwitch s.curChanctx = true) {c : ℕ} {roc : Bool}
    {rocTdls : Option ℕ} (hc : roc = false → rocTdls = none → c ≠ RWNX_CH_NOT_SET) :
    Inv (s.rxChanSwitchInd c roc rocTdls) := by
  cases rocTdls with
  | some n =>
    exact switched_inv (rocTdls_inv h n) (Shape.refl _) hpre fun _ hi => Or.inl hi
  | none =>
    cases roc
    · refine switched_inv h (loop_shape start_shape s State.vifs) hpre fun i hi => ?_
      rcases start_loop s hi with hrun | ⟨v, hch, hr⟩
      · exact Or.inl hrun
      · exact Or.inr ⟨v, hch, hc rfl rfl, hr⟩
    · exact switched_inv h (Shape.refl _) hpre fun _ hi => Or.inl hi

/-! ## An interface moves -/

theorem setChIndex_vif (s : State) (u v : VifId) (j : ℕ) : (s.setChIndex v j).vif u =
    { s.vif u with chIndex := if u = v then j else (s.vif u).chIndex } := by
  by_cases huv : u = v
  · simp [State.setChIndex, State.setVif, huv]
  · simp [State.setChIndex, State.setVif, huv]

theorem setChIndex_fit (h : Fit s) (hv : (s.vif v).iftype ≠ .apVlan) (j : ℕ) :
    Fit (s.setChIndex v j) := by
  refine h.same (fun u => ?_) rfl (fun _ => rfl) fun u hu => ?_
  · rw [setChIndex_vif]
    exact ⟨rfl, rfl, rfl⟩
  · have huv : u ≠ v := by
      rintro rfl
      exact hv hu
    rw [setChIndex_vif]
    exact if_neg huv

theorem setChIndex_owner (s : State) (v : VifId) (j : ℕ) (i : QueueId) :
    owner (s.setChIndex v j) i = owner s i := by cases i <;> rfl

theorem relink_eq (s : State) (v : VifId) (chIdx : ℕ) : (s.unlink v).link v chIdx =
    s.setChIndex v (if NX_CHAN_CTXT_CNT ≤ chIdx then RWNX_CH_NOT_SET else chIdx) := by
  unfold State.link
  split_ifs
  · rfl
  · simp [State.unlink, State.setChIndex, State.setVif]

/-- What starts or stops after the move is what the interface owns. -/
theorem moved_inv {t : State} {j : ℕ} (h : Inv s) (hv : (s.vif v).iftype ≠ .apVlan)
    (hshape : Shape (s.setChIndex v j) t)
    (hrun : ∀ i, (t.queue i).Running → owner s i ≠ v → (s.queue i).Running)
    (hair : ∀ i, (t.queue i).Running → owner s i = v → j = s.curChanctx ∧
      s.preSwitch s.curChanctx = false) : Inv t := by
  refine ⟨hshape.fit (setChIndex_fit h.fit hv j), fun i hi hup => ?_,
    hshape.leaving_bss fun u hu => by rw [setChIndex_vif]; exact h.leaving u hu⟩
  rw [hshape.owner, setChIndex_owner] at hup ⊢
  rw [hshape.vif, setChIndex_vif] at hup
  rw [OnAir, hshape.vif, hshape.cur, hshape.pre, setChIndex_vif]
  by_cases hown : owner s i = v
  · simp only [hown, if_true]
    exact hair i hi hown
  · simp only [hown, if_false]
    exact h.gated i (hrun i hi hown) hup

theorem sole_owner (h : Fit s) (hv : (s.vif v).iftype ≠ .apVlan) (hr : s.Reaches v i) :
    owner s i = v := by
  cases i with
  | bcmc u => exact hr
  | sta k => exact (h.sole v k hv hr).2

theorem relink_inv (h : Inv s) (hv : (s.vif v).iftype ≠ .apVlan) {c : ℕ} (hc : RelinkOk s c) :
    Inv (s.relink v c) := by
  have hreach : ∀ j i, (s.setChIndex v j).Reaches v i ↔ s.Reaches v i := by
    intro j i
    cases i with
    | bcmc u => exact Iff.rfl
    | sta k => refine feeds_congr ?_ ?_ ?_ rfl <;> rw [setChIndex_vif]
  simp only [State.relink, relink_eq]
  generalize hj : (if NX_CHAN_CTXT_CNT ≤ c then RWNX_CH_NOT_SET else c) = j
  split_ifs with hcur
  · refine moved_inv h hv (start_shape _ v) (fun i hi hown => ?_) fun i hi hown => ?_
    · rcases start_running hi with hrun | hr
      · exact hrun
      · exact absurd (sole_owner h.fit hv ((hreach _ i).mp hr)) hown
    · obtain ⟨hpre, hlt⟩ := hc hcur.symm
      refine ⟨?_, hpre⟩
      rw [← hj, show s.curChanctx = c from hcur]
      rcases hlt with hlt | hnot
      · exact if_neg (Nat.not_le.mpr hlt)
      · rw [hnot]
        exact if_pos (by decide)
  · refine moved_inv h hv (stop_shape _ v) (fun i hi _ => (stop_running hi).1) fun i hi hown => ?_
    obtain ⟨hrun, hno⟩ := stop_running hi
    obtain ⟨hr, hm⟩ := h.fit.reaches hrun.1
    rw [show owner s i = v from hown] at hr hm
    exact absurd ((hreach _ i).mpr hr) (hno (by rw [setChIndex_vif]; exact hm))

/-! ## Links, stations and queues -/

/-- Where a link leaves an interface. -/
def linked (s : State) (v : VifId) (c : ℕ) : ℕ :=
  if NX_CHAN_CTXT_CNT ≤ c then (s.vif v).chIndex else c

theorem link_eq (s : State) (v : VifId) (c : ℕ) : s.link v c = s.setChIndex v (linked s v c) := by
  unfold State.link linked
  split_ifs
  · simp [State.setChIndex, State.setVif]
  · rfl

/-- A link to the current context, at the right time, puts the interface on the air. -/
theorem link_air {c : ℕ} (hc : LinkOk s v c) (hcur : c = s.curChanctx) :
    linked s v c = s.curChanctx ∧ s.preSwitch s.curChanctx = false := by
  obtain ⟨hpre, hlt⟩ := hc hcur
  refine ⟨?_, hpre⟩
  unfold linked
  split_ifs with hle
  · rcases hlt with hlt | hsame
    · exact absurd hlt (Nat.not_lt.mpr hle)
    · exact hsame.trans hcur
  · exact hcur

theorem feeds_client (hv : Client (s.vif v).iftype) : s.Feeds v k ↔ (s.vif v).ap = some k := by
  rcases hv with hv | hv <;> simp [State.Feeds, hv]

theorem feeds_bss (hv : Bss (s.vif v).iftype) : s.Feeds v k ↔ (s.sta k).list = some v := by
  rcases hv with hv | hv | hv <;> simp [State.Feeds, hv]

theorem feeds_kind (hv : (s.vif v).iftype ≠ .apVlan) (hk : s.Feeds v k) :
    Client (s.vif v).iftype ∨ Bss (s.vif v).iftype := by
  unfold State.Feeds at hk
  cases htype : (s.vif v).iftype <;> simp_all [Client, Bss]

theorem client_plain (hv : Client (s.vif v).iftype) :
    (s.vif v).iftype ≠ .apVlan ∧ ¬ Bss (s.vif v).iftype := by
  rcases hv with hv | hv <;> rw [hv] <;> exact ⟨by decide, by decide⟩

theorem bss_plain (hv : Bss (s.vif v).iftype) : (s.vif v).iftype ≠ .apVlan := by
  rcases hv with hv | hv | hv <;> rw [hv] <;> decide

/-- One station changes, and who reaches it. -/
theorem Fit.station {t : State} (h : Fit s) (htype : ∀ u, (t.vif u).iftype = (s.vif u).iftype)
    (hvlan : ∀ u, (s.vif u).iftype = .apVlan → (t.vif u).chIndex = (s.vif u).chIndex)
    (hbcmc : ∀ u, (t.queue (.bcmc u)).active = true → Bss (s.vif u).iftype)
    (hother : ∀ j, j ≠ k → t.sta j = s.sta j ∧
      (t.queue (.sta j)).active = (s.queue (.sta j)).active ∧ ∀ u, t.Feeds u j ↔ s.Feeds u j)
    (hhome : (t.queue (.sta k)).active = true → t.Feeds (t.sta k).vifIdx k ∧
      (t.sta k).valid = true)
    (hsole : ∀ u, (s.vif u).iftype ≠ .apVlan → t.Feeds u k →
      (t.queue (.sta k)).active = true ∧ (t.sta k).vifIdx = u) : Fit t := by
  constructor
  · intro j hj
    by_cases hjk : j = k
    · subst hjk
      exact (hhome hj).1
    · obtain ⟨hsta, hact, hfeeds⟩ := hother j hjk
      rw [hfeeds, hsta]
      exact h.home j (hact ▸ hj)
  · intro u j hu hj
    rw [htype] at hu
    by_cases hjk : j = k
    · subst hjk
      exact hsole u hu hj
    · obtain ⟨hsta, hact, hfeeds⟩ := hother j hjk
      rw [hsta, hact]
      exact h.sole u j hu ((hfeeds u).mp hj)
  · intro u hu
    rw [htype]
    exact hbcmc u hu
  · intro j hj
    by_cases hjk : j = k
    · subst hjk
      exact (hhome hj).2
    · obtain ⟨hsta, hact, -⟩ := hother j hjk
      rw [hsta]
      exact h.valid j (hact ▸ hj)
  · intro u hu
    rw [htype] at hu
    rw [hvlan u hu]
    exact h.vlan u hu

/-- What runs is on the air now, or ran before on an interface that has not moved. -/
theorem Gated.step {t : State} (h : Gated s) (hup : ∀ u, (t.vif u).up = (s.vif u).up)
    (hcur : t.curChanctx = s.curChanctx) (hpre : t.preSwitch = s.preSwitch)
    (hrun : ∀ i, (t.queue i).Running → (s.vif (owner t i)).up = true → OnAir t (owner t i) ∨
      (s.queue i).Running ∧ owner t i = owner s i ∧
        (t.vif (owner s i)).chIndex = (s.vif (owner s i)).chIndex) : Gated t := by
  intro i hi hupi
  rw [hup] at hupi
  rcases hrun i hi hupi with hair | ⟨hold, hown, hch⟩
  · exact hair
  · rw [hown] at hupi ⊢
    rw [OnAir, hch, hcur, hpre]
    exact h i hold hupi

/-- The common form of what a handler does to one station, interface and queue. -/
def put (s : State) (k : StaId) (x : Sta) (v : VifId) (y : Vif) (i : QueueId) (q : Queue) : State :=
  { s with
    vif := Function.update s.vif v y
    sta := Function.update s.sta k x
    queue := Function.update s.queue i q }

section Put
variable {x : Sta} {y : Vif} {q : Queue}

theorem put_sta {j : StaId} (hj : j ≠ k) : (put s k x v y i q).sta j = s.sta j :=
  Function.update_of_ne hj _ _

theorem put_queue {i' : QueueId} (hi : i' ≠ i) : (put s k x v y i q).queue i' = s.queue i' :=
  Function.update_of_ne hi _ _

/-- The interface keeps its kind and its other station. -/
structure Kept (s : State) (k : StaId) (v : VifId) (y : Vif) : Prop where
  iftype : y.iftype = (s.vif v).iftype
  up : y.up = (s.vif v).up
  master : y.master = (s.vif v).master
  ap : ∀ j, j ≠ k → (y.ap = some j ↔ (s.vif v).ap = some j)

theorem put_vif (hy : Kept s k v y) (u : VifId) : ((put s k x v y i q).vif u).iftype =
    (s.vif u).iftype ∧ ((put s k x v y i q).vif u).up = (s.vif u).up ∧
      ((put s k x v y i q).vif u).master = (s.vif u).master := by
  by_cases huv : u = v
  · simp [put, huv, hy.iftype, hy.up, hy.master]
  · simp [put, huv]

theorem put_feeds (hy : Kept s k v y) {j : StaId} (hj : j ≠ k) (u : VifId) :
    (put s k x v y i q).Feeds u j ↔ s.Feeds u j := by
  obtain ⟨htype, -, hmaster⟩ := put_vif (x := x) (i := i) (q := q) hy u
  have hap : ((put s k x v y i q).vif u).ap = some j ↔ (s.vif u).ap = some j := by
    by_cases huv : u = v
    · subst huv
      simpa [put] using hy.ap j hj
    · simp [put, huv]
  unfold State.Feeds
  rw [htype, hmaster, put_sta hj, hap]

theorem put_fit (h : Fit s) (hv : (s.vif v).iftype ≠ .apVlan) (hy : Kept s k v y)
    (hi : i = .sta k ∨ i = .bcmc v ∧ Bss (s.vif v).iftype)
    (hhome : ((put s k x v y i q).queue (.sta k)).active = true →
      (put s k x v y i q).Feeds x.vifIdx k ∧ x.valid = true)
    (hsole : ∀ u, (s.vif u).iftype ≠ .apVlan → (put s k x v y i q).Feeds u k →
      ((put s k x v y i q).queue (.sta k)).active = true ∧ x.vifIdx = u) :
    Fit (put s k x v y i q) := by
  have hk : (put s k x v y i q).sta k = x := Function.update_self _ _ _
  refine h.station (k := k) (fun u => (put_vif hy u).1) (fun u hu => ?_) (fun u hu => ?_)
    (fun j hj => ⟨put_sta hj, ?_, put_feeds hy hj⟩) (by rwa [hk]) (by rwa [hk])
  · have huv : u ≠ v := by
      rintro rfl
      exact hv hu
    simp [put, huv]
  · by_cases hui : QueueId.bcmc u = i
    · rcases hi with rfl | ⟨rfl, hb⟩
      · cases hui
      · obtain rfl := QueueId.bcmc.inj hui
        exact hb
    · rw [put_queue hui] at hu
      exact h.bcmc u hu
  · have hji : QueueId.sta j ≠ i := by
      rintro rfl
      rcases hi with hjk | ⟨hjv, -⟩
      · exact hj (QueueId.sta.inj hjk)
      · cases hjv
    rw [put_queue hji]

theorem put_gated (h : Gated s) (hy : Kept s k v y)
    (hown : i = .sta k ∨ (s.queue (.sta k)).active = false)
    (hqo : q.Running → owner (put s k x v y i q) i = v)
    (hq : q.Running → y.up = true → y.chIndex = s.curChanctx ∧ s.preSwitch s.curChanctx = false)
    (hmove : ∀ i', i' ≠ i → (s.queue i').Running → y.up = true → owner s i' = v →
      y.chIndex = (s.vif v).chIndex ∨ y.chIndex = s.curChanctx ∧
        s.preSwitch s.curChanctx = false) : Gated (put s k x v y i q) := by
  have hself : (put s k x v y i q).vif v = y := Function.update_self _ _ _
  refine h.step (fun u => (put_vif hy u).2.1) rfl rfl fun i' hi' hup => ?_
  by_cases hii : i' = i
  · subst hii
    rw [show (put s k x v y i' q).queue i' = q from Function.update_self _ _ _] at hi'
    rw [hqo hi', ← hy.up] at hup
    rw [hqo hi', OnAir, hself]
    exact Or.inl (hq hi' hup)
  · rw [put_queue hii] at hi'
    have ho : owner (put s k x v y i q) i' = owner s i' := by
      cases i' with
      | bcmc u => rfl
      | sta j =>
        have hjk : j ≠ k := by
          rintro rfl
          rcases hown with rfl | hfree
          · exact hii rfl
          · rw [hi'.1] at hfree
            cases hfree
        rw [owner, put_sta hjk, owner]
    rw [ho] at hup ⊢
    by_cases huv : owner s i' = v
    · rw [huv, hself, OnAir, hself]
      rw [huv, ← hy.up] at hup
      rcases hmove i' hii hi' hup huv with hch | hair
      · exact Or.inr ⟨hi', rfl, hch⟩
      · exact Or.inl hair
    · refine Or.inr ⟨hi', rfl, ?_⟩
      simp [put, huv]

theorem put_leaving (h : Inv s) (hy : Kept s k v y) (u : VifId)
    (hu : (put s k x v y i q).leaving = some u) :
    Bss ((put s k x v y i q).vif u).iftype := by
  rw [(put_vif hy u).1]
  exact h.leaving u hu

end Put

/-- An interface that has no part in the change. -/
theorem kept_self (s : State) (k : StaId) (v : VifId) : Kept s k v (s.vif v) :=
  ⟨rfl, rfl, rfl, fun _ _ => Iff.rfl⟩

theorem free_feeds (h : Fit s) (hfree : (s.queue (.sta k)).active = false) {u : VifId}
    (hu : (s.vif u).iftype ≠ .apVlan) : ¬ s.Feeds u k := fun hk => by
  rw [(h.sole u k hu hk).1] at hfree
  cases hfree

/-- A new peer of an interface, whose station was not in use. -/
theorem newPeer_inv (h : Inv s) (hb : Bss (s.vif v).iftype) {stop : Bool}
    (hfree : (s.queue (.sta k)).active = false)
    (hair : stop = false → (s.vif v).up = true → OnAir s v) :
    Inv ((s.setSta k ⟨true, v, some v⟩).setQueue (.sta k) ⟨true, stop⟩) := by
  have heq : (s.setSta k ⟨true, v, some v⟩).setQueue (.sta k) ⟨true, stop⟩ =
      put s k ⟨true, v, some v⟩ v (s.vif v) (.sta k) ⟨true, stop⟩ := by
    simp [put, State.setSta, State.setQueue]
  have hvif : (put s k ⟨true, v, some v⟩ v (s.vif v) (.sta k) ⟨true, stop⟩).vif = s.vif :=
    Function.update_eq_self _ _
  have hy := kept_self s k v
  rw [heq]
  refine ⟨?_, ?_, put_leaving h hy⟩
  · refine put_fit h.fit (bss_plain hb) hy (Or.inl rfl) (fun _ => ⟨?_, rfl⟩) fun u hu hk => ?_
    · refine (feeds_bss ?_).mpr ?_
      · rwa [hvif]
      · simp [put]
    · refine ⟨by simp [put], ?_⟩
      rcases feeds_kind (by rwa [hvif]) hk with hc | hb'
      · have hap := (feeds_client hc).mp hk
        rw [hvif] at hc hap
        exact (free_feeds h.fit hfree hu ((feeds_client (s := s) hc).mpr hap)).elim
      · simpa [put] using (feeds_bss hb').mp hk
  · refine put_gated h.gated hy (Or.inl rfl) (fun _ => ?_) (fun hq => hair hq.2) fun _ _ _ _ _ => ?_
    · simp [owner, put]
    · exact Or.inl rfl

theorem addStation_inv (h : Inv s) (hb : Bss (s.vif v).iftype) {status : ℕ}
    (hc : status = CO_OK → AddOk s v k) : Inv (s.rwnxCfg80211AddStation v status k) := by
  unfold State.rwnxCfg80211AddStation
  by_cases hs : status = CO_OK
  · rw [if_pos hs]
    obtain ⟨hfree, hbcmc⟩ := hc hs
    refine newPeer_inv h hb hfree fun hstop hup => ?_
    rcases hbcmc with hact | hst | hair
    · exact h.gated (.bcmc v) ⟨hact, hstop⟩ hup
    · rw [hstop] at hst
      cases hst
    · exact hair
  · rw [if_neg hs]
    exact h

/-- A peer is removed. -/
theorem removePeer_inv (h : Inv s) (hv : (s.sta k).vifIdx = v) (hb : Bss (s.vif v).iftype) :
    Inv (s.removePeer k) := by
  have heq : s.removePeer k = put s k { s.sta k with valid := false, list := none } v (s.vif v)
      (.sta k) (s.queue (.sta k)).deinit := by
    simp [put, State.removePeer, State.setSta, State.setQueue]
  have hy := kept_self s k v
  have hvif : (put s k { s.sta k with valid := false, list := none } v (s.vif v) (.sta k)
      (s.queue (.sta k)).deinit).vif = s.vif := Function.update_eq_self _ _
  rw [heq]
  refine ⟨?_, ?_, put_leaving h hy⟩
  · refine put_fit h.fit (bss_plain hb) hy (Or.inl rfl) (fun hact => ?_) fun u hu hk => ?_
    · simp [put, Queue.deinit] at hact
    · rcases feeds_kind (by rwa [hvif]) hk with hc | hb'
      · have hap := (feeds_client hc).mp hk
        rw [hvif] at hc hap
        have hown := (h.fit.sole u k hu ((feeds_client (s := s) hc).mpr hap)).2
        rw [← hown, hv] at hc
        exact absurd hb (client_plain hc).2
      · have hlist := (feeds_bss hb').mp hk
        simp [put] at hlist
  · refine put_gated h.gated hy (Or.inl rfl) (fun hq => ?_) (fun hq => ?_) fun _ _ _ _ _ => ?_
    · exact absurd hq.1 (by simp [Queue.deinit])
    · exact absurd hq.1 (by simp [Queue.deinit])
    · exact Or.inl rfl

theorem link_same (s : State) (v : VifId) : s.link v (s.vif v).chIndex = s := by
  rw [link_eq, linked, ite_self]
  simp [State.setChIndex, State.setVif]

theorem peer_inv (h : Inv s) {estab : Bool}
    (hc : (s.vif v).iftype = .meshPoint → PeerOk s v k estab) :
    Inv (s.rxMeshPeerUpdateInd v k estab) := by
  unfold State.rxMeshPeerUpdateInd
  by_cases hv : (s.vif v).iftype = .meshPoint
  · rw [if_neg (not_not.mpr hv)]
    have hb : Bss (s.vif v).iftype := Or.inr (Or.inr hv)
    have hpeer := hc hv
    unfold PeerOk at hpeer
    split_ifs at hpeer ⊢ with hestab hnew hvalid
    · have hfree : (s.queue (.sta k)).active = false := by
        by_contra hact
        rw [h.fit.valid k (by simpa using hact)] at hnew
        cases hnew.2
      have heq : s.addPeer v k = (s.setSta k ⟨true, v, some v⟩).setQueue (.sta k)
          ⟨true, decide ((s.vif v).chIndex ≠ s.curChanctx)⟩ := by
        simp only [State.addPeer]
        rw [show (s.vif v).chIndex = ((s.setSta k ⟨true, v, some v⟩).vif v).chIndex from rfl,
          link_same]
        rfl
      rw [heq]
      refine newPeer_inv h hb hfree fun hstop _ => ?_
      have hch : (s.vif v).chIndex = s.curChanctx := by simpa using hstop
      exact ⟨hch, hpeer hch⟩
    · exact h
    · exact removePeer_inv h (hpeer hvalid) hb
    · exact h
  · rw [if_pos hv]
    exact h

/-- What an interface of a station owns is its station. -/
theorem client_owns (h : Fit s) (hv : Client (s.vif v).iftype) (hact : (s.queue i).active = true)
    (hown : owner s i = v) : ∃ j, i = .sta j ∧ (s.vif v).ap = some j := by
  obtain ⟨hreach, -⟩ := h.reaches hact
  cases i with
  | bcmc u =>
    have hb := h.bcmc u hact
    rw [show u = v from hown] at hb
    exact absurd hb (client_plain hv).2
  | sta j =>
    rw [hown] at hreach
    exact ⟨j, rfl, (feeds_client hv).mp hreach⟩

theorem connect_eq (s : State) (v : VifId) (k : StaId) (c : ℕ) : s.rxSmConnectInd v k 0 c =
    put s k { s.sta k with valid := true, vifIdx := v } v
      { s.vif v with ap := some k, chIndex := linked s v c } (.sta k)
      ⟨true, decide (c ≠ s.curChanctx)⟩ := by
  simp [State.rxSmConnectInd, link_eq, put, linked, State.setSta, State.setVif, State.setChIndex,
    State.setQueue]

/-- A station interface connects to `k`. -/
theorem connect_inv (h : Inv s) (hv : Client (s.vif v).iftype) {c : ℕ}
    (hc : ConnectOk s v k c) : Inv (s.rxSmConnectInd v k 0 c) := by
  obtain ⟨hlink, hap, hown⟩ := hc
  obtain ⟨hvlan, hbss⟩ := client_plain hv
  rw [connect_eq]
  generalize hx : ({ s.sta k with valid := true, vifIdx := v } : Sta) = x
  generalize hq : (⟨true, decide (c ≠ s.curChanctx)⟩ : Queue) = q
  have hy : Kept s k v { s.vif v with ap := some k, chIndex := linked s v c } := by
    refine ⟨rfl, rfl, rfl, fun j hj => iff_of_false ?_ fun hold => hj (hap j hold)⟩
    exact fun hnew => hj (Option.some.inj hnew).symm
  have hxv : x.vifIdx = v := by rw [← hx]
  have hfeeds : (put s k x v { s.vif v with ap := some k, chIndex := linked s v c } (.sta k) q).Feeds
      v k := by
    refine (feeds_client ?_).mpr ?_
    · rwa [(put_vif hy v).1]
    · simp [put]
  refine ⟨?_, ?_, put_leaving h hy⟩
  · refine put_fit h.fit hvlan hy (Or.inl rfl) (fun _ => ⟨?_, by rw [← hx]⟩) fun u hu hk => ?_
    · rwa [hxv]
    · refine ⟨by rw [← hq]; simp [put], hxv.trans ?_⟩
      by_contra hvu
      have hold : s.Feeds u k := by
        refine (feeds_congr ?_ ?_ ?_ ?_).mp hk
        · exact (put_vif hy u).1
        · simp [put, Ne.symm hvu]
        · exact (put_vif hy u).2.2
        · simp [put, ← hx]
      obtain ⟨hact, hidx⟩ := h.fit.sole u k hu hold
      have hmine := (h.fit.sole v k hvlan ((feeds_client hv).mpr (hown hact))).2
      exact hvu (hmine.symm.trans hidx)
  · refine put_gated h.gated hy (Or.inl rfl) (fun _ => ?_) (fun hrun _ => ?_)
      fun i' hi' hrun _ howner => ?_
    · simp [owner, put, hxv]
    · refine link_air hlink ?_
      rw [← hq] at hrun
      simpa using hrun.2
    · obtain ⟨j, rfl, hj⟩ := client_owns h.fit hv hrun.1 howner
      exact absurd (hap j hj) fun hjk => hi' (hjk ▸ rfl)

theorem disconnect_eq (s : State) (v : VifId) (k : StaId) : s.rxSmDisconnectInd v k =
    put s k { s.sta k with valid := false } v
      { s.vif v with ap := none, chIndex := RWNX_CH_NOT_SET } (.sta k)
      (s.queue (.sta k)).deinit := by
  simp [State.rxSmDisconnectInd, State.unlink, put, State.setSta, State.setVif, State.setChIndex,
    State.setQueue]

theorem disconnect_inv (h : Inv s) (hv : Client (s.vif v).iftype) (hap : (s.vif v).ap = some k) :
    Inv (s.rxSmDisconnectInd v k) := by
  obtain ⟨hvlan, hbss⟩ := client_plain hv
  have hmine := (h.fit.sole v k hvlan ((feeds_client hv).mpr hap)).2
  rw [disconnect_eq]
  have hy : Kept s k v { s.vif v with ap := none, chIndex := RWNX_CH_NOT_SET } := by
    refine ⟨rfl, rfl, rfl, fun j hj => iff_of_false ?_ fun hold => hj ?_⟩
    · exact fun hnew => by cases hnew
    · exact (Option.some.inj (hap.symm.trans hold)).symm
  refine ⟨?_, ?_, put_leaving h hy⟩
  · refine put_fit h.fit hvlan hy (Or.inl rfl) (fun hact => ?_) fun u hu hk => ?_
    · simp [put, Queue.deinit] at hact
    · exfalso
      by_cases huv : u = v
      · subst huv
        have hnew := (feeds_client (by rwa [(put_vif hy u).1])).mp hk
        simp [put] at hnew
      · have hold : s.Feeds u k := by
          refine (feeds_congr ?_ ?_ ?_ ?_).mp hk
          · exact (put_vif hy u).1
          · simp [put, huv]
          · exact (put_vif hy u).2.2
          · simp [put]
        exact huv ((h.fit.sole u k hu hold).2.symm.trans hmine)
  · refine put_gated h.gated hy (Or.inl rfl) (fun hq => ?_) (fun hq => ?_)
      fun i' hi' hrun _ howner => ?_
    · exact absurd hq.1 (by simp [Queue.deinit])
    · exact absurd hq.1 (by simp [Queue.deinit])
    · obtain ⟨j, rfl, hj⟩ := client_owns h.fit hv hrun.1 howner
      obtain rfl := Option.some.inj (hap.symm.trans hj)
      exact absurd rfl hi'

theorem startBss_eq (s : State) (v : VifId) (c : ℕ) (b : StaId) : s.startBss v c b =
    put s b { s.sta b with valid := true, vifIdx := v } v
      { s.vif v with chIndex := linked s v c } (.bcmc v) ⟨true, decide (s.curChanctx ≠ c)⟩ := by
  simp [State.startBss, link_eq, put, linked, State.setSta, State.setVif, State.setChIndex,
    State.setQueue]

theorem startBss_inv (h : Inv s) (hb : Bss (s.vif v).iftype) {c : ℕ} {b : StaId}
    (hc : StartOk s v c b) : Inv (s.startBss v c b) := by
  obtain ⟨hlink, hfree, hmove⟩ := hc
  rw [startBss_eq]
  have hy : Kept s b v { s.vif v with chIndex := linked s v c } :=
    ⟨rfl, rfl, rfl, fun _ _ => Iff.rfl⟩
  refine ⟨?_, ?_, put_leaving h hy⟩
  · refine put_fit h.fit (bss_plain hb) hy (Or.inr ⟨rfl, hb⟩) (fun hact => ?_) fun u hu hk => ?_
    · rw [put_queue (by simp), hfree] at hact
      cases hact
    · refine absurd ((feeds_congr ?_ ?_ ?_ ?_).mp hk) (free_feeds h.fit hfree hu)
      · exact (put_vif hy u).1
      · by_cases huv : u = v
        · simp [put, huv]
        · simp [put, huv]
      · exact (put_vif hy u).2.2
      · simp [put]
  · refine put_gated h.gated hy (Or.inr hfree) (fun _ => rfl) (fun hrun _ => ?_)
      fun i' hi' hrun _ howner => ?_
    · have hcur : s.curChanctx = c := by simpa using hrun.2
      exact link_air hlink hcur.symm
    · rcases hmove with hcur | hle | hsilent
      · exact Or.inr (link_air hlink hcur)
      · exact Or.inl (if_pos hle)
      · cases i' with
        | bcmc u => exact absurd (show QueueId.bcmc u = .bcmc v from howner ▸ rfl) hi'
        | sta j =>
          have hfeeds := h.fit.home j hrun.1
          rw [show (s.sta j).vifIdx = v from howner] at hfeeds
          exact absurd hrun (hsilent j hfeeds)

/-- The end of a stop takes down what the interface reaches, and leaves the rest. -/
theorem ended_sta (hb : Bss (s.vif v).iftype) {j : StaId} (hno : ¬ s.Feeds v j) :
    (s.stopApEnd v).sta j = s.sta j ∧
      (s.stopApEnd v).queue (.sta j) = s.queue (.sta j) := by
  have hlist : (s.sta j).list ≠ some v := fun hl => hno ((feeds_bss hb).mpr hl)
  constructor
  · simp [State.stopApEnd, hlist]
  · simp [State.stopApEnd, State.Reaches, hno]

theorem ended_active (hact : ((s.stopApEnd v).queue i).active = true) :
    ¬ s.Reaches v i ∧ (s.stopApEnd v).queue i = s.queue i := by
  by_cases hr : s.Reaches v i
  · simp [State.stopApEnd, hr, Queue.deinit] at hact
  · exact ⟨hr, by simp [State.stopApEnd, hr]⟩

theorem stopApEnd_inv (h : Inv s) (hb : Bss (s.vif v).iftype) : Inv (s.stopApEnd v) := by
  have hfeeds : ∀ u j, ¬ s.Feeds v j → ((s.stopApEnd v).Feeds u j ↔ s.Feeds u j) := fun u j hno =>
    feeds_congr rfl rfl rfl (by rw [(ended_sta hb hno).1])
  obtain ⟨h1, h2, h3, h4, h5⟩ := h.fit
  refine ⟨⟨fun j hj => ?_, fun u j hu hj => ?_, fun u hu => ?_, fun j hj => ?_, h5⟩, ?_, ?_⟩
  · obtain ⟨hno, hq⟩ := ended_active hj
    rw [hfeeds _ j hno, (ended_sta hb hno).1]
    exact h1 j (hq ▸ hj)
  · by_cases hno : s.Feeds v j
    · exfalso
      have hmine := (h2 v j (bss_plain hb) hno).2
      rcases feeds_kind hu hj with hc | hb'
      · have hold : s.Feeds u j := (feeds_client (s := s) hc).mpr ((feeds_client hc).mp hj)
        rw [← (h2 u j hu hold).2, hmine] at hc
        exact (client_plain hc).2 hb
      · have hlist := (feeds_bss hb').mp hj
        simp [State.stopApEnd, (feeds_bss hb).mp hno] at hlist
    · obtain ⟨hsta, hq⟩ := ended_sta hb hno
      rw [hsta, hq]
      exact h2 u j hu ((hfeeds u j hno).mp hj)
  · obtain ⟨-, hq⟩ := ended_active hu
    exact h3 u (hq ▸ hu)
  · obtain ⟨hno, hq⟩ := ended_active hj
    rw [(ended_sta hb hno).1]
    exact h4 j (hq ▸ hj)
  · refine h.gated.step (fun _ => rfl) rfl rfl fun i hi _ => ?_
    obtain ⟨hno, hq⟩ := ended_active hi.1
    refine Or.inr ⟨hq ▸ hi, ?_, rfl⟩
    cases i with
    | bcmc u => rfl
    | sta j => rw [owner, owner, (ended_sta hb hno).1]
  · intro u hu
    cases hu

theorem stopAp_inv (h : Inv s) (hb : Bss (s.vif v).iftype)
    (hc : (s.vif v).up = true → Silent s v ∧ ¬ (s.queue (.bcmc v)).Running) : Inv (s.stopAp v) := by
  obtain ⟨h1, h2, h3, h4, h5⟩ := setChIndex_fit h.fit (bss_plain hb) RWNX_CH_NOT_SET
  refine ⟨⟨h1, h2, h3, h4, h5⟩, ?_, ?_⟩
  · refine h.gated.step (fun u => ?_) rfl rfl fun i hi hup => ?_
    · simp [State.stopAp, State.unlink, setChIndex_vif]
    · have hown : owner (s.stopAp v) i = owner s i := by cases i <;> rfl
      rw [hown] at hup ⊢
      refine Or.inr ⟨hi, rfl, ?_⟩
      have hne : owner s i ≠ v := by
        intro he
        obtain ⟨hsilent, hbcmc⟩ := hc (he ▸ hup)
        have hreach := (h.fit.reaches hi.1).1
        rw [he] at hreach
        cases i with
        | bcmc u =>
          rw [show u = v from hreach] at hi
          exact hbcmc hi
        | sta k => exact hsilent k hreach hi
      simp [State.stopAp, State.unlink, setChIndex_vif, hne]
  · intro u hu
    obtain rfl := Option.some.inj hu
    simpa [State.stopAp, State.unlink, setChIndex_vif] using hb

/-! ## Runs -/

/-- The flag of a mesh point does not matter to its start. -/
theorem userMpm_inv (h : Inv s) (b : Bool) :
    Inv (s.setVif v { s.vif v with userMpm := b }) := by
  have hvif : ∀ u, ((s.setVif v { s.vif v with userMpm := b }).vif u) =
      { s.vif u with userMpm := if u = v then b else (s.vif u).userMpm } := by
    intro u
    by_cases huv : u = v
    · simp [State.setVif, huv]
    · simp [State.setVif, huv]
  refine ⟨h.fit.same (fun u => ?_) rfl (fun _ => rfl) fun u _ => ?_, ?_, fun u hu => ?_⟩
  · rw [hvif]
    exact ⟨rfl, rfl, rfl⟩
  · rw [hvif]
  · refine h.gated.step (fun u => by rw [hvif]) rfl rfl fun i hi _ => Or.inr ⟨hi, ?_, by rw [hvif]⟩
    cases i <;> rfl
  · rw [hvif]
    exact h.leaving u hu

theorem userMpm_ok {b : Bool} {c : ℕ} {j : StaId} (hc : StartOk s v c j) :
    StartOk (s.setVif v { s.vif v with userMpm := b }) v c j := by
  obtain ⟨hlink, hfree, hmove⟩ := hc
  refine ⟨?_, hfree, hmove.imp id (Or.imp id fun hsilent j hj => hsilent j ?_)⟩
  · simpa [LinkOk, State.setVif] using hlink
  · refine (feeds_congr (s := s) ?_ ?_ ?_ ?_).mp hj <;> simp [State.setVif]

theorem run_inv (h : Inv s) {a : Act} (he : Enabled s a) (hc : Timely s a) :
    Inv (ChannelQueues.run s a) := by
  cases a <;> simp only [ChannelQueues.run]
  case preSwitchInd c => exact preSwitch_inv h c
  case switchInd c roc rocTdls => exact switch_inv h he hc
  case connectInd v k status c =>
    by_cases hs : status = 0
    · subst hs
      exact connect_inv h he (hc rfl)
    · rw [State.rxSmConnectInd, if_neg hs]
      exact h
  case disconnectInd v =>
    cases hap : (s.vif v).ap with
    | none => exact h
    | some k => exact disconnect_inv h he.1 hap
  case meshPeerUpdateInd v k estab => exact peer_inv h hc
  case csaFinishInd v status c =>
    unfold State.rxCsaFinishInd
    split_ifs with hap hs
    · exact h
    · have hkind : Client (s.vif v).iftype ∨ (s.vif v).iftype = .meshPoint := by
        rcases he with hv | hv | hv | hv
        · exact Or.inl hv
        · exact absurd (Or.inl hv) hap
        · exact absurd (Or.inr hv) hap
        · exact Or.inr hv
      refine relink_inv h ?_ (hc hkind hs)
      rcases he with hv | hv
      · exact (client_plain hv).1
      · exact bss_plain hv
    · exact h
  case csaFinish v sent c =>
    unfold State.rwnxCsaFinish
    split_ifs with hs
    · exact relink_inv h (bss_plain (he.imp id Or.inl)) (hc hs)
    · exact h
  case startAp v status c b =>
    unfold State.rwnxCfg80211StartAp
    split_ifs with hs
    · exact startBss_inv h (he.2.imp id Or.inl) (hc hs)
    · exact h
  case joinMesh v status c b userMpm =>
    unfold State.rwnxCfg80211JoinMesh
    split_ifs with hs
    · refine startBss_inv (userMpm_inv h userMpm) ?_ (userMpm_ok (hc hs))
      simpa [State.setVif, Bss] using Or.inr (Or.inr he.2)
    · exact h
  case addStation v status k => exact addStation_inv h he.2 hc
  case stopAp v => exact stopAp_inv h (he.2.imp id Or.inl) hc
  case stopApEnd =>
    cases hl : s.leaving with
    | none => exact h
    | some v => exact stopApEnd_inv h (h.leaving v hl)

theorem init_inv (iftype : VifId → Iftype) (up : VifId → Bool) (vifIndex : VifId → ℕ)
    (master : VifId → VifId) : Inv (init iftype up vifIndex master) where
  fit := by
    refine ⟨fun k hk => ?_, fun v k hv hk => ?_, fun v hv => ?_, fun k hk => ?_, fun _ _ => rfl⟩
    · cases hk
    · rcases feeds_kind hv hk with hc | hb
      · cases (feeds_client hc).mp hk
      · cases (feeds_bss hb).mp hk
    · cases hv
    · cases hk
  gated i hi := by cases hi.1
  leaving v hv := by cases hv

theorem run_gated {iftype : VifId → Iftype} {up : VifId → Bool} {vifIndex : VifId → ℕ}
    {master : VifId → VifId} {as : List Act}
    (h : Meets step Timely (init iftype up vifIndex master) as) :
    Throughout step Gated (init iftype up vifIndex master) as := by
  refine throughout_of_meets (J := Inv) (fun s a t hc ht hs => ?_) (fun _ hs => hs.gated)
    (init_inv iftype up vifIndex master) h
  obtain ⟨he, hrun⟩ := Option.ite_none_right_eq_some.mp ht
  obtain rfl := Option.some.inj hrun
  exact run_inv hs he hc

end Steps

/-- Interface 1 is an access point, 2 a mesh point, and the others are stations. -/
def sampleType (v : VifId) : Iftype := if v = 1 then .ap else if v = 2 then .meshPoint else .station

def sampleInit : State := init sampleType (fun _ => true) (fun v => v) (fun _ => 1)

/-- A station and an access point on two contexts, and a remain-on-channel. -/
def sampleRun : List Act :=
  [.connectInd 0 0 0 0, .startAp 1 CO_OK 1 5, .addStation 1 CO_OK 1, .preSwitchInd 0,
    .switchInd 1 false none, .addStation 1 CO_OK 2, .preSwitchInd 1, .switchInd 2 true none,
    .preSwitchInd 2, .switchInd 0 false none, .disconnectInd 0, .preSwitchInd 0,
    .switchInd 1 false none, .csaFinish 1 true 2, .joinMesh 2 CO_OK 1 6 false,
    .meshPeerUpdateInd 2 3 true, .preSwitchInd 1, .meshPeerUpdateInd 2 3 false, .stopAp 1,
    .stopApEnd, .switchInd 2 false none]

theorem run_gated_sample : Throughout step Gated sampleInit sampleRun :=
  run_gated (by decide +kernel)

/-- The station connects between the pre-switch and the switch. -/
def connectRun : List Act := [.preSwitchInd 0, .connectInd 0 0 0 0]

/-- The access point starts between the pre-switch and the switch. -/
def startRun : List Act := [.preSwitchInd 0, .startAp 1 CO_OK 0 5]

/-- The announced switch of the access point ends between the two. -/
def csaRun : List Act := [.startAp 1 CO_OK 1 5, .preSwitchInd 0, .csaFinish 1 true 0]

/-- The access point loses its context before its queue. -/
def stopRun : List Act := [.startAp 1 CO_OK 0 5, .stopAp 1]

/-- The run ends with the queue running off the air. -/
theorem not_gated {as : List Act} (i : QueueId)
    (h : ∃ t ∈ exec step sampleInit as, (t.queue i).Running ∧ (t.vif (owner t i)).up = true ∧
      ¬ OnAir t (owner t i)) : ¬ Throughout step Gated sampleInit as := by
  obtain ⟨t, ht, hrun, hup, hoff⟩ := h
  exact fun hall => hoff (hall as List.prefix_rfl t ht i hrun hup)

theorem queues_wrong :
    ¬ Throughout step Gated sampleInit connectRun ∧ ¬ Throughout step Gated sampleInit startRun ∧
      ¬ Throughout step Gated sampleInit csaRun ∧ ¬ Throughout step Gated sampleInit stopRun := by
  refine ⟨?_, ?_, ?_, ?_⟩
  · exact not_gated (.sta 0) (by decide +kernel)
  · exact not_gated (.bcmc 1) (by decide +kernel)
  · exact not_gated (.bcmc 1) (by decide +kernel)
  · exact not_gated (.bcmc 1) (by decide +kernel)

end AIC.ChannelGate
