import Aic8800.TxqPowerSave

/-!
# What the functions of the scheduler change

Each function changes the txqs it is about and the counters of one station: the
entry of a txq afterwards is a function of the entry before. The lists of the
hardware queues are looked at apart from them.
-/

set_option autoImplicit false

namespace AIC.TxqMachine
open Lib.GuardedRun

/-! ## Names of txqs -/

def TxqId.owner : TxqId → Option StaId
  | .sta i _ => some (.unicast i)
  | .bcmc vif => some (.multicast vif)
  | .unk _ => none
  | .offchan => none

/-- The hardware queue that a txq is initialised with. -/
def TxqId.home (k : TxqId) : HwqId := tid2hwq k.tid

theorem mem_txqs_iff {k : TxqId} {s : StaId} : k ∈ s.txqs ↔ k.owner = some s := by
  cases s with
  | unicast i => cases k <;> simp [StaId.txqs, TxqId.owner, eq_comm]
  | multicast vif => cases k <;> simp [StaId.txqs, TxqId.owner]

theorem txqs_nodup (s : StaId) : s.txqs.Nodup := by
  cases s with
  | unicast i => exact (List.nodup_finRange _).map fun _ _ h => (TxqId.sta.inj h).2
  | multicast vif => exact List.nodup_singleton _

theorem txqGet_owner (s : StaId) (tid : ℕ) : (s.txqGet tid).owner = some s := by
  cases s with
  | unicast i =>
    unfold StaId.txqGet
    dsimp only
    split <;> rfl
  | multicast vif => rfl

theorem dest_owner (d : Dest) : d.txq.owner = d.station := by
  cases d with
  | sta s tid => exact txqGet_owner s tid
  | unk vif => rfl
  | offchan => rfl

theorem txqs_home {s : StaId} {k : TxqId} (h : k.owner = some s) (vif : ℕ)
    (hs : s = .multicast vif) : k.home = .be := by
  subst hs
  cases k with
  | bcmc v => rfl
  | sta i tid => cases h
  | unk v => cases h
  | offchan => cases h

section Views
variable {hw hw' : Hw} {k : TxqId} {s : StaId}

/-- A change of one txq that leaves the stations alone. -/
structure Changes (k : TxqId) (t : Txq) (hw hw' : Hw) : Prop where
  txq : hw'.txq = Function.update hw.txq k t
  sta : hw'.sta = hw.sta

theorem changes_self (hw : Hw) (k : TxqId) : Changes k (hw.txq k) hw hw :=
  ⟨(Function.update_eq_self k hw.txq).symm, rfl⟩

theorem changes_setTxq (hw : Hw) (k : TxqId) (t : Txq) : Changes k t hw (hw.setTxq k t) :=
  ⟨rfl, rfl⟩

theorem Changes.at {t : Txq} (h : Changes k t hw hw') : hw'.txq k = t := by
  rw [h.txq, Function.update_self]

theorem Changes.off {t : Txq} {j : TxqId} (h : Changes k t hw hw') (hj : j ≠ k) :
    hw'.txq j = hw.txq j := by
  rw [h.txq, Function.update_of_ne hj]

theorem Changes.trans {hw'' : Hw} {t u : Txq} (h : Changes k t hw hw') (h' : Changes k u hw' hw'') :
    Changes k u hw hw'' :=
  ⟨by rw [h'.txq, h.txq, Function.update_idem], h'.sta.trans h.sta⟩

/-- What holds of each txq by its name holds after a change that keeps it. -/
theorem Changes.forall {P : TxqId → Txq → Prop} {t : Txq} (h : Changes k t hw hw')
    (hall : ∀ j, P j (hw.txq j)) (hk : P k t) (j : TxqId) : P j (hw'.txq j) := by
  by_cases hj : j = k
  · rw [hj, h.at]
    exact hk
  · rw [h.off hj]
    exact hall j

theorem Changes.kept {t : Txq} (hch : Changes k t hw hw') (hid : t.psId = (hw.txq k).psId)
    (hlist : t.skList = (hw.txq k).skList) (j : TxqId) :
    (hw'.txq j).psId = (hw.txq j).psId ∧ (hw'.txq j).skList = (hw.txq j).skList := by
  by_cases hj : j = k
  · subst hj
    rw [hch.at]
    exact ⟨hid, hlist⟩
  · rw [hch.off hj]
    exact ⟨rfl, rfl⟩

theorem delFromHwList_changes (hw : Hw) (k : TxqId) :
    Changes k { hw.txq k with inHwqList := false } hw (hw.delFromHwList k) := by
  unfold Hw.delFromHwList
  split
  · exact ⟨rfl, rfl⟩
  · rename_i hbit
    have hsame : ({ hw.txq k with inHwqList := false } : Txq) = hw.txq k := by
      rw [← Bool.eq_false_of_not_eq_true hbit]
    rw [hsame]
    exact changes_self hw k

theorem addToHwList_changes (h : hw.addToHwList k = some hw') :
    Changes k { hw.txq k with inHwqList := true } hw hw' := by
  unfold Hw.addToHwList at h
  split at h
  · rename_i hbit
    obtain rfl := Option.some.inj h
    have hsame : ({ hw.txq k with inHwqList := true } : Txq) = hw.txq k := by
      rw [← hbit]
    rw [hsame]
    exact changes_self hw k
  · split at h
    · cases h
    · split at h
      · cases h
      · obtain rfl := Option.some.inj h
        exact ⟨rfl, rfl⟩

theorem Changes.set {t : Txq} (h : Changes k t hw hw') (f : Txq → Txq) :
    Changes k (f t) hw (hw'.setTxq k (f (hw'.txq k))) := by
  rw [h.at]
  exact h.trans (changes_setTxq hw' k (f t))

theorem Changes.del {t : Txq} (h : Changes k t hw hw') :
    Changes k { t with inHwqList := false } hw (hw'.delFromHwList k) := by
  have hdel := delFromHwList_changes hw' k
  rw [h.at] at hdel
  exact h.trans hdel

theorem Changes.add {hw'' : Hw} {t : Txq} (h : Changes k t hw hw')
    (hadd : hw'.addToHwList k = some hw'') : Changes k { t with inHwqList := true } hw hw'' := by
  have hlist := addToHwList_changes hadd
  rw [h.at] at hlist
  exact h.trans hlist

/-! ## Init, deinit, start, stop and confirmation -/

def Txq.fresh (k : TxqId) (status : Finset StopReason) (hwq : HwqId) (sta : Option StaId)
    (psId : PsId) : Txq :=
  { Txq.blank with
    active := true
    stops := status
    credits := NX_TXQ_INITIAL_CREDITS
    hwq := some hwq
    sta := sta
    psId := psId
    ndevTxq := k.hasNdev }

def Txq.deinited (t : Txq) : Txq :=
  if t.active then
    { t with
      inHwqList := false
      active := false
      skList := [] }
  else t

theorem txqDeinit_changes (hw : Hw) (k : TxqId) :
    Changes k (hw.txq k).deinited hw (hw.txqDeinit k) := by
  unfold Hw.txqDeinit Txq.deinited
  by_cases hact : (hw.txq k).active = true
  · rw [if_pos hact, if_neg (by simp [hact])]
    exact ((changes_self hw k).del).set fun t =>
      { t with
        active := false
        skList := [] }
  · rw [if_neg hact, if_pos (by simp [hact])]
    exact changes_self hw k

/-- The txq goes to the list unless it is stopped. -/
def Txq.relisted (t : Txq) : Txq := if t.Stopped then t else { t with inHwqList := true }

def Txq.started (t : Txq) (reason : Finset StopReason) : Txq :=
  if t.active ∧ (t.stops ∩ reason).Nonempty then
    let t := { t with stops := t.stops \ reason }
    if t.skList = [] then t else t.relisted
  else t

def Txq.stopped (t : Txq) (reason : Finset StopReason) : Txq :=
  if t.active then
    { t with
      stops := t.stops ∪ reason
      inHwqList := false }
  else t

/-- Only bits of the status differ. -/
structure Txq.Still (t u : Txq) : Prop where
  active : u.active = t.active
  credits : u.credits = t.credits
  hwq : u.hwq = t.hwq
  sta : u.sta = t.sta
  psId : u.psId = t.psId
  skList : u.skList = t.skList
  pushLimit : u.pushLimit = t.pushLimit

theorem still_relisted (t : Txq) : t.Still t.relisted := by
  unfold Txq.relisted
  split <;> exact ⟨rfl, rfl, rfl, rfl, rfl, rfl, rfl⟩

theorem still_started (t : Txq) (reason : Finset StopReason) : t.Still (t.started reason) := by
  unfold Txq.started
  split
  · dsimp only
    split
    · exact ⟨rfl, rfl, rfl, rfl, rfl, rfl, rfl⟩
    · obtain ⟨h1, h2, h3, h4, h5, h6, h7⟩ :=
        still_relisted { t with stops := t.stops \ reason }
      exact ⟨h1, h2, h3, h4, h5, h6, h7⟩
  · exact ⟨rfl, rfl, rfl, rfl, rfl, rfl, rfl⟩

theorem still_stopped (t : Txq) (reason : Finset StopReason) : t.Still (t.stopped reason) := by
  unfold Txq.stopped
  split <;> exact ⟨rfl, rfl, rfl, rfl, rfl, rfl, rfl⟩

theorem txqStart_changes {reason : Finset StopReason} (h : hw.txqStart k reason = some hw') :
    Changes k ((hw.txq k).started reason) hw hw' := by
  unfold Hw.txqStart at h
  unfold Txq.started
  by_cases hgo : (hw.txq k).active ∧ ((hw.txq k).stops ∩ reason).Nonempty
  · rw [if_pos hgo] at h ⊢
    dsimp only at h ⊢
    have hset := changes_setTxq hw k { hw.txq k with stops := (hw.txq k).stops \ reason }
    by_cases hready : (hw.txq k).skList = []
    · rw [if_pos hready]
      rw [if_neg (fun hno => hno.2 hready)] at h
      exact Option.some.inj h ▸ hset
    · rw [if_neg hready]
      unfold Txq.relisted
      by_cases hstop : ({ hw.txq k with stops := (hw.txq k).stops \ reason } : Txq).Stopped
      · rw [if_pos hstop]
        rw [if_neg (fun hno => hno.1 hstop)] at h
        exact Option.some.inj h ▸ hset
      · rw [if_neg hstop]
        rw [if_pos ⟨hstop, hready⟩] at h
        exact hset.add h
  · rw [if_neg hgo] at h ⊢
    exact Option.some.inj h ▸ changes_self hw k

theorem txqStop_changes (hw : Hw) (k : TxqId) (reason : Finset StopReason) :
    Changes k ((hw.txq k).stopped reason) hw (hw.txqStop k reason) := by
  unfold Hw.txqStop Txq.stopped
  split
  · exact (changes_setTxq hw k { hw.txq k with stops := (hw.txq k).stops ∪ reason }).del
  · exact changes_self hw k

theorem txqConfirmAny_changes (hw : Hw) (f : Pushed) :
    Changes f.txq { hw.txq f.txq with pktPushed := (hw.txq f.txq).pktPushed-1 } hw
      (hw.txqConfirmAny f) := by
  unfold Hw.txqConfirmAny
  split <;> exact ⟨rfl, rfl⟩

/-! ## Loops over the txqs of a station -/

/-- Each txq of a list is changed on its own. -/
theorem exec_changes {f : Hw → TxqId → Option Hw} {g : (StaId → Sta) → TxqId → Txq → Txq}
    (hf : ∀ hw k hw', f hw k = some hw' → Changes k (g hw.sta k (hw.txq k)) hw hw')
    {ks : List TxqId} (hks : ks.Nodup) (h : exec f hw ks = some hw') :
    (∀ j, hw'.txq j = if j ∈ ks then g hw.sta j (hw.txq j) else hw.txq j) ∧ hw'.sta = hw.sta := by
  induction ks generalizing hw with
  | nil =>
    obtain rfl := Option.some.inj h
    exact ⟨fun j => by simp, rfl⟩
  | cons k ks ih =>
    obtain ⟨u, hu, hrest⟩ := Option.bind_eq_some_iff.mp h
    have hstep := hf hw k u hu
    obtain ⟨htxq, hsta⟩ := ih (List.nodup_cons.mp hks).2 hrest
    refine ⟨fun j => ?_, hsta.trans hstep.sta⟩
    rw [htxq j, hstep.sta]
    by_cases hj : j = k
    · subst hj
      rw [if_neg (List.nodup_cons.mp hks).1, hstep.at, if_pos List.mem_cons_self]
    · rw [hstep.off hj]
      simp [hj]

theorem exec_foldl (f : Hw → TxqId → Hw) (ks : List TxqId) (hw : Hw) :
    exec (fun hw k => some (f hw k)) hw ks = some (ks.foldl f hw) := by
  induction ks generalizing hw with
  | nil => rfl
  | cons k ks ih => exact ih _

theorem foldl_changes {f : Hw → TxqId → Hw} {g : (StaId → Sta) → TxqId → Txq → Txq}
    (hf : ∀ hw k, Changes k (g hw.sta k (hw.txq k)) hw (f hw k)) {ks : List TxqId}
    (hks : ks.Nodup) (hw : Hw) :
    (∀ j, (ks.foldl f hw).txq j = if j ∈ ks then g hw.sta j (hw.txq j) else hw.txq j) ∧
      (ks.foldl f hw).sta = hw.sta := by
  apply exec_changes (fun hw k hw' h => ?_) hks (exec_foldl f ks hw)
  exact Option.some.inj h ▸ hf hw k

/-- The entry of each txq of a station, and the rest. -/
def onStation (s : StaId) (g : TxqId → Txq → Txq) (txq : TxqId → Txq) (j : TxqId) : Txq :=
  if j.owner = some s then g j (txq j) else txq j

theorem txqStaStop_txq (hw : Hw) (s : StaId) (reason : Finset StopReason) :
    (hw.txqStaStop s reason).txq = onStation s (fun _ t => t.stopped reason) hw.txq ∧
      (hw.txqStaStop s reason).sta = hw.sta := by
  obtain ⟨htxq, hsta⟩ := foldl_changes (g := fun _ _ t => t.stopped reason)
    (fun hw k => txqStop_changes hw k reason) (txqs_nodup s) hw
  refine ⟨funext fun j => ?_, hsta⟩
  exact (htxq j).trans (by simp only [mem_txqs_iff, onStation])

theorem txqStaStart_txq {reason : Finset StopReason} (h : hw.txqStaStart s reason = some hw') :
    hw'.txq = onStation s (fun _ t => t.started reason) hw.txq ∧ hw'.sta = hw.sta := by
  obtain ⟨htxq, hsta⟩ := exec_changes (g := fun _ _ t => t.started reason)
    (fun hw k hw' h => txqStart_changes h) (txqs_nodup s) h
  refine ⟨funext fun j => ?_, hsta⟩
  exact (htxq j).trans (by simp only [mem_txqs_iff, onStation])

theorem txqStaDeinit_txq (hw : Hw) (s : StaId) :
    (hw.txqStaDeinit s).txq = onStation s (fun _ t => t.deinited) hw.txq ∧
      (hw.txqStaDeinit s).sta = hw.sta := by
  obtain ⟨htxq, hsta⟩ := foldl_changes (g := fun _ _ t => t.deinited)
    (fun hw k => txqDeinit_changes hw k) (txqs_nodup s) hw
  refine ⟨funext fun j => ?_, hsta⟩
  exact (htxq j).trans (by simp only [mem_txqs_iff, onStation])

theorem txqStaInit_txq (hw : Hw) (s : StaId) (status : Finset StopReason) :
    (hw.txqStaInit s status).txq = onStation s (fun k _ => .fresh k status k.home (some s)
      (if (hw.sta s).uapsdTids.getLsbD k.tid then .uapsd else .legacy)) hw.txq ∧
      (hw.txqStaInit s status).sta = hw.sta := by
  obtain ⟨htxq, hsta⟩ := foldl_changes
    (g := fun sta k _ => .fresh k status k.home (some s)
      (if (sta s).uapsdTids.getLsbD k.tid then .uapsd else .legacy))
    (fun hw k => changes_setTxq hw k _) (txqs_nodup s) hw
  refine ⟨funext fun j => ?_, hsta⟩
  exact (htxq j).trans (by simp only [mem_txqs_iff, onStation])

/-! ## Power save -/

def Txq.released (s : StaId) (t : Txq) : Txq :=
  { t with
    pushLimit := 0
    hwq := match s with
      | .multicast _ => some .be
      | .unicast _ => t.hwq }

theorem psDisable_view (h : hw.psDisable s = some hw') :
    hw'.txq = onStation s (fun _ t => (t.released s).started {.staPs}) hw.txq ∧
      hw'.sta = Function.update hw.sta s { hw.sta s with psActive := false } := by
  obtain ⟨hstart, hssta⟩ := txqStaStart_txq h
  obtain ⟨htxq, hsta⟩ := foldl_changes (f := Hw.psRelease s) (g := fun _ _ t => t.released s)
    (fun hw k => changes_setTxq hw k _) (txqs_nodup s)
    (hw.setSta s { hw.sta s with psActive := false })
  refine ⟨?_, hssta.trans hsta⟩
  funext j
  rw [hstart]
  unfold onStation
  rw [htxq j]
  simp only [mem_txqs_iff]
  split <;> rfl

theorem psReady_congr (h : ∀ k, (hw'.txq k).psId = (hw.txq k).psId ∧
    (hw'.txq k).skList = (hw.txq k).skList) (s : StaId) : hw'.psReady s = hw.psReady s := by
  have hcount : ∀ p ks, hw'.countReady p ks = hw.countReady p ks := by
    intro p ks
    induction ks with
    | nil => rfl
    | cons k ks ih => simp only [Hw.countReady, (h k).1, (h k).2, ih]
  funext p
  cases s with
  | unicast i => exact hcount p _
  | multicast vif =>
    cases p with
    | legacy => simp only [Hw.psReady, (h _).2]
    | uapsd => rfl

/-- A station that goes to sleep counts the packets that are queued for it. -/
theorem psEnable_view (hw : Hw) (s : StaId) :
    (hw.psEnable s).txq = onStation s (fun _ t => t.stopped {.staPs}) hw.txq ∧
      (hw.psEnable s).sta = Function.update hw.sta s
        { hw.sta s with
          psActive := true
          spCnt := fun _ => 0
          pktReady := hw.psReady s } := by
  obtain ⟨hw2, h2⟩ : ∃ hw2, hw2 = (hw.setSta s
    { hw.sta s with
      psActive := true
      spCnt := fun _ => 0 }).txqStaStop s {.staPs} := ⟨_, rfl⟩
  have hfold : hw.psEnable s = hw2.setSta s { hw2.sta s with pktReady := hw2.psReady s } := by
    rw [h2]
    rfl
  obtain ⟨htxq, hsta⟩ : hw2.txq = onStation s (fun _ t => t.stopped {.staPs}) hw.txq ∧
      hw2.sta = Function.update hw.sta s
        { hw.sta s with
          psActive := true
          spCnt := fun _ => 0 } := by
    rw [h2]
    exact txqStaStop_txq _ s {.staPs}
  have hready : hw2.psReady s = hw.psReady s := by
    apply psReady_congr
    intro k
    rw [htxq]
    unfold onStation
    split
    · exact ⟨(still_stopped _ _).psId, (still_stopped _ _).skList⟩
    · exact ⟨rfl, rfl⟩
  rw [hfold, hready]
  refine ⟨htxq, ?_⟩
  show Function.update hw2.sta s { hw2.sta s with pktReady := hw.psReady s } = _
  rw [hsta, Function.update_self, Function.update_idem]

theorem spInterrupt_view (hw : Hw) (s : StaId) :
    (hw.spInterrupt s).txq = onStation s (fun _ t => { t with pushLimit := 0 }) hw.txq ∧
      (hw.spInterrupt s).sta = Function.update hw.sta s
        { hw.sta s with spCnt := Function.update (hw.sta s).spCnt .uapsd 0 } := by
  obtain ⟨htxq, hsta⟩ := foldl_changes (g := fun _ _ t => { t with pushLimit := 0 })
    (fun hw k => changes_setTxq hw k { hw.txq k with pushLimit := 0 }) (txqs_nodup s)
    (hw.setSta s { hw.sta s with spCnt := Function.update (hw.sta s).spCnt .uapsd 0 })
  refine ⟨funext fun j => ?_, hsta⟩
  exact (htxq j).trans (by simp only [mem_txqs_iff, onStation]; rfl)

/-- A service period takes no more than is queued, and than the credits allow. -/
theorem spLen_le {t : Txq} (hcred : 0 ≤ t.credits ∧ t.credits < 128) :
    t.spLen ≤ t.skList.length ∧ (t.spLen : ℤ) ≤ t.credits := by
  unfold Txq.spLen
  split <;> omega

/-- Credits below the largest s8 grow by one. -/
theorem addCredit_credits {t : Txq} (hcred : 0 ≤ t.credits ∧ t.credits < 127) :
    t.addCredit.credits = t.credits+1 := by
  show (t.credits+1).bmod 256 = t.credits+1
  apply Int.bmod_eq_of_le <;> omega

/-! ## Queueing and pushing -/

/-- The same txq as far as the functions that push and queue are concerned. -/
structure Txq.Like (t u : Txq) : Prop where
  active : u.active = t.active
  stops : u.stops = t.stops
  credits : u.credits = t.credits
  hwq : u.hwq = t.hwq
  sta : u.sta = t.sta
  psId : u.psId = t.psId

theorem Txq.Like.trans {t u v : Txq} (h : t.Like u) (h' : u.Like v) : t.Like v :=
  ⟨h'.active.trans h.active, h'.stops.trans h.stops, h'.credits.trans h.credits,
    h'.hwq.trans h.hwq, h'.sta.trans h.sta, h'.psId.trans h.psId⟩

/-- A change of the counters of a station in power save. -/
def inPs (o : Option StaId) (f : Sta → Sta) (sta : StaId → Sta) (s : StaId) : Sta :=
  if o = some s ∧ (sta s).psActive = true then f (sta s) else sta s

theorem inPs_update {s : StaId} {f : Sta → Sta} {sta : StaId → Sta}
    (h : (sta s).psActive = true) :
    inPs (some s) f sta = Function.update sta s (f (sta s)) := by
  funext j
  unfold inPs
  by_cases hj : j = s
  · subst hj
    rw [if_pos ⟨rfl, h⟩, Function.update_self]
  · rw [if_neg (fun hno => hj (Option.some.inj hno.1).symm), Function.update_of_ne hj]

theorem inPs_asleep {s : StaId} {f : Sta → Sta} {sta : StaId → Sta}
    (h : (sta s).psActive = false) : inPs (some s) f sta = sta := by
  funext j
  unfold inPs
  apply if_neg
  rintro ⟨hj, hact⟩
  rw [← Option.some.inj hj, h] at hact
  cases hact

theorem inPs_none (f : Sta → Sta) (sta : StaId → Sta) : inPs none f sta = sta :=
  funext fun _ => if_neg fun h => Option.some_ne_none _ h.1.symm

theorem inPs_psActive {o : Option StaId} {f : Sta → Sta} (hf : ∀ x, (f x).psActive = x.psActive)
    (sta : StaId → Sta) (s : StaId) : (inPs o f sta s).psActive = (sta s).psActive := by
  unfold inPs
  split
  · exact hf _
  · rfl

theorem psQueue_frame (hw : Hw) (k : TxqId) : (hw.psQueue k).txq = hw.txq ∧
    (hw.psQueue k).hwq = hw.hwq ∧ (hw.psQueue k).pushed = hw.pushed := by
  unfold Hw.psQueue Hw.setTrafficStatus Hw.setSta
  split
  · exact ⟨rfl, rfl, rfl⟩
  · dsimp only
    split
    · exact ⟨rfl, rfl, rfl⟩
    · split <;> exact ⟨rfl, rfl, rfl⟩

theorem psQueue_sta (hw : Hw) (k : TxqId) :
    (hw.psQueue k).sta = inPs (hw.txq k).sta (fun x => x.queued (hw.txq k).psId) hw.sta := by
  unfold Hw.psQueue Hw.setTrafficStatus Hw.setSta
  cases hsta : (hw.txq k).sta with
  | none => exact (inPs_none _ _).symm
  | some s =>
    dsimp only
    cases hact : (hw.sta s).psActive with
    | false => exact (inPs_asleep hact).symm
    | true =>
      rw [inPs_update hact]
      simp only [Bool.not_true, Bool.false_eq_true, if_false]
      split <;> rfl

theorem skbAppend_perm {old : ℕ} {skb : Skb} {l m : List Skb}
    (h : Txq.skbAppend old skb l = some m) : m.Perm (skb::l) := by
  induction l generalizing m with
  | nil => cases h
  | cons x xs ih =>
    unfold Txq.skbAppend at h
    cases hxs : Txq.skbAppend old skb xs with
    | some ys =>
      rw [hxs] at h
      obtain rfl := Option.some.inj h
      exact ((ih hxs).cons x).trans (List.Perm.swap skb x xs)
    | none =>
      rw [hxs] at h
      dsimp only at h
      split at h
      · obtain rfl := Option.some.inj h
        exact List.Perm.swap skb x xs
      · cases h

/-- A queued buffer is one more in the list, and the rest of the entry is kept. -/
theorem enqueue_view {t u : Txq} {skb : Skb} {retry : Bool} (h : t.enqueue skb retry = some u) :
    t.Like u ∧ u.inHwqList = t.inHwqList ∧ u.pushLimit = t.pushLimit ∧
      u.skList.Perm (skb::t.skList) := by
  unfold Txq.enqueue at h
  cases retry with
  | false =>
    obtain rfl := Option.some.inj h
    exact ⟨⟨rfl, rfl, rfl, rfl, rfl, rfl⟩, rfl, rfl, List.perm_append_singleton skb t.skList⟩
  | true =>
    obtain ⟨l, hl, rfl⟩ := Option.map_eq_some_iff.mp h
    refine ⟨⟨rfl, rfl, rfl, rfl, rfl, rfl⟩, rfl, rfl, ?_⟩
    cases hlast : t.lastRetrySkb with
    | none =>
      rw [hlast] at hl
      obtain rfl := Option.some.inj hl
      exact List.Perm.refl _
    | some old =>
      rw [hlast] at hl
      exact skbAppend_perm hl

theorem txqQueueSkb_view {skb : Skb} {retry : Bool} (h : hw.txqQueueSkb k skb retry = some hw') :
    ∃ t, (hw.txq k).enqueue skb retry = some t ∧
      hw'.txq = Function.update hw.txq k t.flowCtrlStop.relisted ∧
      hw'.sta = inPs (hw.txq k).sta (fun x => x.queued (hw.txq k).psId) hw.sta := by
  obtain ⟨t, ht, hlist⟩ := Option.bind_eq_some_iff.mp h
  refine ⟨t, ht, ?_⟩
  have hset := changes_setTxq (hw.psQueue k) k t.flowCtrlStop
  have hch : Changes k t.flowCtrlStop.relisted (hw.psQueue k) hw' := by
    dsimp only at hlist
    unfold Txq.relisted
    by_cases hstop : t.Stopped
    · rw [if_pos hstop] at hlist
      rw [if_pos (show t.flowCtrlStop.Stopped from hstop)]
      exact Option.some.inj hlist ▸ hset
    · rw [if_neg hstop] at hlist
      rw [if_neg (show ¬ t.flowCtrlStop.Stopped from hstop)]
      exact hset.add hlist
  rw [hch.txq, hch.sta, (psQueue_frame hw k).1, psQueue_sta]
  exact ⟨rfl, rfl⟩

theorem txPush_view (hw : Hw) (k : TxqId) (skb : Skb) :
    (hw.txPush k skb).txq = Function.update hw.txq k (hw.txq k).push ∧
      (hw.txPush k skb).sta = inPs skb.sta (fun x => x.pushed (hw.txq k).psId) hw.sta ∧
      (hw.txPush k skb).hwq = hw.hwq := by
  unfold Hw.txPush Hw.setMoreDataFlag
  cases skb.sta with
  | none => exact ⟨rfl, (inPs_none _ _).symm, rfl⟩
  | some s =>
    dsimp only
    cases hact : (hw.sta s).psActive with
    | false => exact ⟨rfl, (inPs_asleep hact).symm, rfl⟩
    | true =>
      rw [inPs_update hact]
      simp only [Bool.not_true, Bool.false_eq_true, if_false]
      split <;> exact ⟨rfl, rfl, rfl⟩

/-- What a push takes from the counters of the stations. -/
def pushedStas (p : PsId) (l : List Skb) (sta : StaId → Sta) : StaId → Sta :=
  l.foldl (fun sta skb => inPs skb.sta (fun x => x.pushed p) sta) sta

/-- What a push does not touch, any number of them does not. -/
theorem push_keeps {α : Type} {g : Txq → α} (h : ∀ t, g t.push = g t) (n : ℕ) (t : Txq) :
    g (Txq.push^[n] t) = g t := by
  induction n generalizing t with
  | zero => rfl
  | succ n ih => exact (ih t.push).trans (h t)

theorem pushes_view (l : List Skb) (hw : Hw) (k : TxqId) :
    (l.foldl (fun hw skb => hw.txPush k skb) hw).txq =
        Function.update hw.txq k (Txq.push^[l.length] (hw.txq k)) ∧
      (l.foldl (fun hw skb => hw.txPush k skb) hw).sta = pushedStas (hw.txq k).psId l hw.sta ∧
      (l.foldl (fun hw skb => hw.txPush k skb) hw).hwq = hw.hwq := by
  induction l generalizing hw with
  | nil => exact ⟨(Function.update_eq_self k hw.txq).symm, rfl, rfl⟩
  | cons skb l ih =>
    obtain ⟨htxq, hsta, hhwq⟩ := txPush_view hw k skb
    obtain ⟨ihtxq, ihsta, ihhwq⟩ := ih (hw.txPush k skb)
    have hat : (hw.txPush k skb).txq k = (hw.txq k).push := by
      rw [htxq, Function.update_self]
    refine ⟨ihtxq.trans ?_, ihsta.trans ?_, ihhwq.trans hhwq⟩
    · rw [hat, htxq, Function.update_idem]
      rfl
    · rw [hat, hsta]
      rfl

/-! ## What a request, a confirmation and a credit update can do -/

theorem psBhTrafficReq_cases {req : ℕ} {p : PsId} (h : hw.psBhTrafficReq s req p = some hw') :
    hw' = hw ∨
      ((hw.sta s).psActive = true ∧ req = PS_SP_INTERRUPTED ∧ p = .uapsd ∧ hw' = hw.spInterrupt s) ∨
      (hw.spStarts s p ∧
        ((∃ i, s = .unicast i ∧ Hw.dispatch s p hw (hw.adaptReq s p req)
          (nxTidPrio.map (StaId.unicast i).txqGet) = some hw') ∨
        ∃ vif, s = .multicast vif ∧ hw.dispatchMulticast vif p (hw.adaptReq s p req) = some hw')) := by
  unfold Hw.psBhTrafficReq at h
  split at h
  · exact .inl (Option.some.inj h).symm
  · rename_i hact
    split at h
    · rename_i hint
      exact .inr (.inl ⟨by simpa using hact, hint.1, hint.2, (Option.some.inj h).symm⟩)
    · split at h
      · exact .inl (Option.some.inj h).symm
      · rename_i hstarts
        refine .inr (.inr ⟨not_not.mp hstarts, ?_⟩)
        cases s with
        | unicast i => exact .inl ⟨i, rfl, h⟩
        | multicast vif => exact .inr ⟨vif, rfl, h⟩

/-- A buffer is sent again, or the service period of its txq goes on. -/
theorem txdatacfm_cases {i : ℕ} {busDown retry : Bool}
    (h : hw.txdatacfm i busDown retry = some hw') :
    hw' = hw ∨ ∃ f, hw.pushed[i]? = some f ∧
      (hw' = { hw with pushed := hw.pushed.eraseIdx i } ∨
        (busDown = false ∧ f.skb.mgmt = false ∧ (hw.txq f.txq).active = true ∧ retry = true ∧
          ({ hw with pushed := hw.pushed.eraseIdx i }.txqConfirmAny f).txRetry f = some hw') ∨
        ({ hw with pushed := hw.pushed.eraseIdx i }.txqConfirmAny f).continueSp f.txq =
          some hw') := by
  unfold Hw.txdatacfm at h
  split at h
  · exact .inl (Option.some.inj h).symm
  · rename_i f hf
    refine .inr ⟨f, hf, ?_⟩
    have hch := txqConfirmAny_changes { hw with pushed := hw.pushed.eraseIdx i } f
    dsimp only at h
    split at h
    · exact .inl (Option.some.inj h).symm
    · rename_i hbus
      unfold Hw.confirmed at h
      dsimp only at h
      split at h
      · rename_i hagain
        simp only [Bool.and_eq_true, Bool.not_eq_true', hch.at] at hagain
        exact .inr (.inl ⟨Bool.eq_false_of_not_eq_true hbus, hagain.1.1, hagain.1.2, hagain.2, h⟩)
      · exact .inr (.inr h)

/-- Where no service period is under way the part is all that is granted. -/
theorem spGrant_idle (hw : Hw) {p : PsId} {n : ℕ} (k : TxqId) (hcnt : (hw.sta s).spCnt p = 0)
    (hn : n < 2^16) :
    hw.spGrant s p k n = (hw.setTxq k { hw.txq k with pushLimit := n % 2^8 }).setSta s
      { hw.sta s with spCnt := Function.update (hw.sta s).spCnt p n } := by
  have hword : ((hw.sta s).spCnt p+n) % 2^16 = n := by
    rw [hcnt]
    omega
  unfold Hw.spGrant Sta.grant
  rw [hword]

theorem txqCreditUpdate_cases {tid : ℕ} (h : hw.txqCreditUpdate s tid = some hw') :
    hw' = hw ∨ hw' = hw.txqStop (s.txqGet tid) {.full} ∨
      hw.txqStart (s.txqGet tid) {.full} = some hw' := by
  unfold Hw.txqCreditUpdate at h
  dsimp only at h
  split at h
  · exact .inl (Option.some.inj h).symm
  · split at h
    · exact .inr (.inl (Option.some.inj h).symm)
    · exact .inr (.inr h)

end Views

end AIC.TxqMachine
