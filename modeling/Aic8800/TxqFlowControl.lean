import Aic8800.TxqNetdev

/-!
# The flow control of the subqueues

A subqueue is stopped when its txq is long and woken when the processing has
made it short. The bit that remembers it is cleared by an init, forgotten by a
deinit and left behind by a change of the netdev: those calls are safe exactly
when the subqueue is not stopped as they are made.
-/

set_option autoImplicit false

namespace AIC.TxqFlowControl
open AIC.TxqMachine Lib.GuardedRun
open AIC.TxqNetdev hiding init step Act

/-- The txq that stopped the subqueue will wake it: it is in use, it remembers, and it is long. -/
structure Feeds (net : Net) (k : TxqId) (x : ℕ × NdevIdx) : Prop where
  active : (net.hw.txq k).active = true
  subqueue : net.subqueue k = some x
  flow : (net.hw.txq k).ndevFlowCtrl = true
  long : RWNX_NDEV_FLOW_CTRL_RESTART ≤ (net.hw.txq k).skList.length

def Released (net : Net) : Prop := ∀ x ∈ net.stopped, ∃ k, Feeds net k x

/-- The subqueue of the txq is stopped. -/
def Held (net : Net) (k : TxqId) : Prop := ∃ x ∈ net.subqueue k, x ∈ net.stopped

instance (net : Net) (k : TxqId) : Decidable (Held net k) := by
  unfold Held
  infer_instance

/-- A txq is not initialised, given up or moved to another netdev while its subqueue is stopped,
and one that is not in use is not made long. -/
def Frees (net : Net) : TxqNetdev.Act → Prop
  | .txqInit k _ _ _ => ¬ Held net k
  | .txqDeinit k => ¬ Held net k
  | .txqQueueSkb k _ _ => (net.hw.txq k).active = false → (net.hw.txq k).ndevTxq = true →
      (net.hw.txq k).skList.length < RWNX_NDEV_FLOW_CTRL_STOP
  | .txqStaSwitchVif i vif => ∀ k ∈ Net.dataTxqs i, net.ndev k = some vif ∨ ¬ Held net k
  | _ => True

instance (net : Net) (a : TxqNetdev.Act) : Decidable (Frees net a) := by
  cases a <;> dsimp only [Frees] <;> infer_instance

/-! ## The bit of the flow control -/

section Entry
variable {t u : Txq}

theorem relisted_flow (t : Txq) : t.relisted.ndevFlowCtrl = t.ndevFlowCtrl := by
  unfold Txq.relisted
  split <;> rfl

theorem started_flow (t : Txq) (reason : Finset StopReason) :
    (t.started reason).ndevFlowCtrl = t.ndevFlowCtrl := by
  unfold Txq.started
  split
  · dsimp only
    split
    · rfl
    · rw [relisted_flow]
  · rfl

theorem stopped_flow (t : Txq) (reason : Finset StopReason) :
    (t.stopped reason).ndevFlowCtrl = t.ndevFlowCtrl := by
  unfold Txq.stopped
  split <;> rfl

theorem enqueue_flow {skb : Skb} {retry : Bool} (h : t.enqueue skb retry = some u) :
    u.ndevFlowCtrl = t.ndevFlowCtrl ∧ u.ndevTxq = t.ndevTxq := by
  unfold Txq.enqueue at h
  cases retry with
  | false =>
    obtain rfl := Option.some.inj h
    exact ⟨rfl, rfl⟩
  | true =>
    obtain ⟨l, hl, rfl⟩ := Option.map_eq_some_iff.mp h
    exact ⟨rfl, rfl⟩

theorem served_flow (t : Txq) (q : HwqId) :
    (t.served q).aborted.ndevFlowCtrl = t.ndevFlowCtrl := by
  have hleft : ∀ (u : Txq) (done : Bool), (u.left q done).ndevFlowCtrl = u.ndevFlowCtrl := by
    intro u done
    unfold Txq.left
    split
    · rfl
    · split <;> rfl
  have habort : ∀ u : Txq, u.aborted.ndevFlowCtrl = u.ndevFlowCtrl := by
    intro u
    unfold Txq.aborted
    split <;> rfl
  exact (habort _).trans ((hleft _ _).trans (push_keeps (fun _ => rfl) _ _))

end Entry

/-! ## What the functions do to the txqs and the subqueues -/

variable {net net' : Net} {k : TxqId}

theorem stopSubqueue_view (h : net.stopSubqueue k = some net') :
    ∃ x, net.subqueue k = some x ∧
      net' = { net with stopped := insert x net.stopped } := by
  obtain ⟨x, hx, rfl⟩ := Option.map_eq_some_iff.mp h
  exact ⟨x, hx, rfl⟩

theorem wakeSubqueue_view (h : net.wakeSubqueue k = some net') :
    ∃ x, net.subqueue k = some x ∧
      net' = { net with stopped := net.stopped.erase x } := by
  obtain ⟨x, hx, rfl⟩ := Option.map_eq_some_iff.mp h
  exact ⟨x, hx, rfl⟩

/-- A queued buffer stops the subqueue when the list is too long for it. -/
theorem txqQueueSkb_cases {skb : Skb} {retry : Bool}
    (h : net.txqQueueSkb k skb retry = some net') :
    ∃ t, (net.hw.txq k).enqueue skb retry = some t ∧
      net.hw.txqQueueSkb k skb retry = some net'.hw ∧ net'.ndev = net.ndev ∧
      if t.ndevTxq = true ∧ RWNX_NDEV_FLOW_CTRL_STOP < t.skList.length then
        ∃ x, net.subqueue k = some x ∧ net'.stopped = insert x net.stopped
      else net'.stopped = net.stopped := by
  obtain ⟨t, ht, h⟩ := Option.bind_eq_some_iff.mp h
  obtain ⟨hw, hhw, h⟩ := Option.bind_eq_some_iff.mp h
  refine ⟨t, ht, ?_⟩
  split at h
  · rename_i hlong
    obtain ⟨x, hx, rfl⟩ := stopSubqueue_view h
    rw [if_pos hlong]
    exact ⟨hhw, rfl, x, hx, rfl⟩
  · rename_i hshort
    obtain rfl := Option.some.inj h
    rw [if_neg hshort]
    exact ⟨hhw, rfl, rfl⟩

/-- A turn wakes the subqueue when it has made a list short that was too long. -/
theorem serve_cases {q : HwqId} (h : net.serve q k = some net') :
    net'.hw = net.hw.serve q k ∧ net'.ndev = net.ndev ∧ net'.stopped ⊆ net.stopped ∧
      ∀ x ∈ net'.stopped, net.subqueue k = some x → (net.hw.txq k).ndevFlowCtrl = true →
        RWNX_NDEV_FLOW_CTRL_RESTART ≤ ((net.hw.txq k).finished q).skList.length := by
  have hat := congrFun (turn_view net.hw q k).1 k
  rw [Function.update_self] at hat
  have hlen : ((net.hw.txq k).served q).aborted.skList = ((net.hw.txq k).finished q).skList := rfl
  unfold Net.serve Net.flowCtrlRestart at h
  dsimp only at h
  rw [hat, served_flow, hlen] at h
  split at h
  · obtain ⟨x, hx, rfl⟩ := wakeSubqueue_view h
    refine ⟨?_, rfl, Finset.erase_subset _ _, fun y hy hyk _ => ?_⟩
    · show Hw.setTxq _ k _ = Hw.setTxq _ k _
      rw [hat]
    · obtain rfl : x = y := Option.some.inj (hx.symm.trans hyk)
      exact absurd rfl (Finset.ne_of_mem_erase hy)
  · rename_i hlong
    obtain rfl := Option.some.inj h
    refine ⟨?_, rfl, Finset.Subset.refl _, fun y hy hyk hflow => ?_⟩
    · show Hw.setTxq _ k _ = Hw.setTxq _ k _
      rw [hat]
    · exact not_lt.mp fun hlt => hlong ⟨hflow, hlt⟩

/-- A turn does to the txqs what it does without the netdevs. -/
theorem processTxq_cases {q : HwqId} (h : net.processTxq q k = some net') :
    net.hw.processTxq q k = some net'.hw ∧
      (net' = net ∨ (net.hw.txq k).active = true ∧ net.serve q k = some net') := by
  unfold Net.processTxq at h
  unfold Hw.processTxq
  split at h
  · cases h
  · rename_i hbit
    rw [if_neg hbit]
    split at h
    · rename_i hact
      obtain rfl := Option.some.inj h
      rw [if_pos hact]
      exact ⟨rfl, .inl rfl⟩
    · rename_i hact
      rw [if_neg hact]
      split at h
      · cases h
      · rename_i hcred
        rw [if_neg hcred]
        split at h
        · cases h
        · rename_i hready
          rw [if_neg hready, (serve_cases h).1]
          exact ⟨rfl, .inr ⟨by simpa using hact, h⟩⟩

/-- The netdev of each txq, and what is left of the stopped subqueues, when those of some txqs
have moved to another netdev. -/
theorem switch_view {vif : ℕ} {ks : List TxqId} (h : exec (Net.switchTxq vif) net ks = some net') :
    net'.hw = net.hw ∧ (∀ j, net'.ndev j = if j ∈ ks then some vif else net.ndev j) ∧
      ∀ x, x ∈ net'.stopped ↔
        x ∈ net.stopped ∧ ∀ k ∈ ks, TxqId.ndevIdx k = some x.2 → x.1 ≠ vif := by
  induction ks generalizing net with
  | nil =>
    obtain rfl := Option.some.inj h
    simp
  | cons k ks ih =>
    obtain ⟨u, hu, hrest⟩ := Option.bind_eq_some_iff.mp h
    obtain ⟨hhw, hndev, hstopped⟩ := ih hrest
    unfold Net.switchTxq at hu
    split at hu
    · cases hu
    · obtain ⟨y, hy, rfl⟩ := wakeSubqueue_view hu
      simp only [Net.subqueue, Function.update_self, Option.bind_some, Option.map_eq_some_iff]
        at hy
      obtain ⟨i, hi, rfl⟩ := hy
      refine ⟨hhw, fun j => ?_, fun x => ?_⟩
      · rw [hndev]
        by_cases hj : j = k
        · subst hj
          simp
        · simp [hj]
      · rw [hstopped]
        simp only [Finset.mem_erase, List.forall_mem_cons, hi, Option.some.injEq]
        constructor
        · rintro ⟨⟨hne, hx⟩, hall⟩
          exact ⟨hx, fun hix hvif => hne (Prod.ext hvif hix.symm), hall⟩
        · rintro ⟨hx, hfirst, hall⟩
          exact ⟨⟨fun hxe => hfirst (by rw [hxe]) (by rw [hxe]), hx⟩, hall⟩

/-! ## The txq of a stopped subqueue -/

theorem Feeds.congr {x : ℕ × NdevIdx} (h : Feeds net k x) (hact : (net'.hw.txq k).active = true)
    (hndev : net'.ndev k = net.ndev k)
    (hflow : (net'.hw.txq k).ndevFlowCtrl = (net.hw.txq k).ndevFlowCtrl)
    (hlong : RWNX_NDEV_FLOW_CTRL_RESTART ≤ (net'.hw.txq k).skList.length) :
    Feeds net' k x := by
  refine ⟨hact, ?_, hflow.trans h.flow, hlong⟩
  rw [← h.subqueue]
  unfold Net.subqueue
  rw [hndev]

/-- A change of one txq that keeps its own subqueue released. -/
theorem Released.change {t : Txq} (h : Released net)
    (htxq : net'.hw.txq = Function.update net.hw.txq k t)
    (hndev : ∀ j, j ≠ k → net'.ndev j = net.ndev j)
    (hstopped : ∀ x ∈ net'.stopped, x ∈ net.stopped ∨ Feeds net' k x)
    (hk : ∀ x ∈ net'.stopped, Feeds net k x → Feeds net' k x) : Released net' := by
  intro x hx
  rcases hstopped x hx with hold | hnew
  on_goal 2 => exact ⟨k, hnew⟩
  obtain ⟨j, hj⟩ := h x hold
  by_cases hjk : j = k
  · subst hjk
    exact ⟨j, hk x hx hj⟩
  · have hsame : net'.hw.txq j = net.hw.txq j := by
      rw [htxq, Function.update_of_ne hjk]
    refine ⟨j, hj.congr ?_ (hndev j hjk) ?_ ?_⟩
    · rw [hsame]
      exact hj.active
    · rw [hsame]
    · rw [hsame]
      exact hj.long

/-- Only bits of the status of a txq change. -/
theorem Released.still {hw : Hw} {t : Txq} (h : Released net) (hch : Changes k t net.hw hw)
    (hstill : (net.hw.txq k).Still t) (hflow : t.ndevFlowCtrl = (net.hw.txq k).ndevFlowCtrl) :
    Released { net with hw := hw } := by
  refine h.change (k := k) hch.txq (fun _ _ => rfl) (fun _ hx => .inl hx) fun x _ hx => hx.congr ?_ rfl ?_ ?_
  · show (hw.txq k).active = true
    rw [hch.at, hstill.active]
    exact hx.active
  · show (hw.txq k).ndevFlowCtrl = _
    rw [hch.at, hflow]
  · show _ ≤ (hw.txq k).skList.length
    rw [hch.at, hstill.skList]
    exact hx.long

theorem Feeds.held {x : ℕ × NdevIdx} (h : Feeds net k x) (hx : x ∈ net.stopped) : Held net k :=
  ⟨x, h.subqueue, hx⟩

theorem Released.init (h : Released net) (hk : ¬ Held net k) (vif : ℕ)
    (status : Finset StopReason) (psId : PsId) : Released (net.txqInit k vif status psId) :=
  h.change (k := k) rfl (fun _ hj => Function.update_of_ne hj _ _) (fun _ hx => .inl hx)
    fun _ hx hf => (hk (hf.held hx)).elim

theorem Released.deinit (h : Released net) (hk : ¬ Held net k) : Released (net.txqDeinit k) :=
  h.change (txqDeinit_changes net.hw k).txq (fun _ _ => rfl) (fun _ hx => .inl hx)
    fun _ hx hf => (hk (hf.held hx)).elim

theorem Released.queue {skb : Skb} {retry : Bool} (h : Released net)
    (hk : (net.hw.txq k).active = false → (net.hw.txq k).ndevTxq = true →
      (net.hw.txq k).skList.length < RWNX_NDEV_FLOW_CTRL_STOP)
    (hs : net.txqQueueSkb k skb retry = some net') : Released net' := by
  obtain ⟨t, ht, hhw, hndev, hstop⟩ := txqQueueSkb_cases hs
  obtain ⟨u, hu, htxq, -⟩ := txqQueueSkb_view hhw
  obtain rfl := Option.some.inj (ht.symm.trans hu)
  obtain ⟨hlike, -, -, hperm⟩ := enqueue_view ht
  obtain ⟨hflow, hfed⟩ := enqueue_flow ht
  have hlen : t.skList.length = (net.hw.txq k).skList.length+1 := hperm.length_eq
  have hlist := still_relisted t.flowCtrlStop
  have hat : net'.hw.txq k = t.flowCtrlStop.relisted := by
    rw [htxq, Function.update_self]
  have hbit : (net'.hw.txq k).ndevFlowCtrl = ((net.hw.txq k).ndevFlowCtrl ||
      (t.ndevTxq && decide (RWNX_NDEV_FLOW_CTRL_STOP < t.skList.length))) := by
    rw [hat, relisted_flow, ← hflow]
    rfl
  have hsk : (net'.hw.txq k).skList = t.skList := by
    rw [hat, hlist.skList]
    rfl
  have hact : (net'.hw.txq k).active = (net.hw.txq k).active := by
    rw [hat, hlist.active, ← hlike.active]
    rfl
  -- the txq is no shorter, and remembers what it did
  have hown : ∀ x ∈ net'.stopped, Feeds net k x → Feeds net' k x := by
    intro x _ hx
    refine hx.congr (hact.trans hx.active) (congrFun hndev k) ?_ ?_
    · rw [hbit, hx.flow]
      rfl
    · have hlong := hx.long
      rw [hsk]
      omega
  refine h.change htxq (fun j _ => congrFun hndev j) (fun x hx => ?_) hown
  split at hstop
  · rename_i hlong
    obtain ⟨y, hy, hins⟩ := hstop
    rw [hins] at hx
    rcases Finset.mem_insert.mp hx with rfl | hold
    · right
      refine ⟨?_, ?_, ?_, ?_⟩
      · rw [hact]
        by_contra hidle
        have hshort := hk (Bool.eq_false_of_not_eq_true hidle) (hfed ▸ hlong.1)
        omega
      · rw [← hy]
        unfold Net.subqueue
        rw [hndev]
      · rw [hbit, hlong.1, decide_eq_true hlong.2]
        exact Bool.or_true _
      · rw [hsk]
        exact hlong.2.le
    · exact .inl hold
  · exact .inl (hstop ▸ hx)

theorem Released.serve {q : HwqId} (h : Released net) (hact : (net.hw.txq k).active = true)
    (hs : net.serve q k = some net') : Released net' := by
  obtain ⟨hhw, hndev, hsub, hlong⟩ := serve_cases hs
  have htxq := (serve_view net.hw q k).1
  rw [← hhw] at htxq
  have hat : net'.hw.txq k = (net.hw.txq k).finished q := by
    rw [htxq, Function.update_self]
    rfl
  refine h.change htxq (fun j _ => congrFun hndev j) (fun x hx => .inl (hsub hx)) ?_
  intro x hx hf
  have hlen := hlong x hx hf.subqueue hf.flow
  refine ⟨?_, ?_, ?_, ?_⟩
  · rw [hat, (like_finished _ q).active]
    exact hact
  · rw [← hf.subqueue]
    unfold Net.subqueue
    rw [hndev]
  · rw [hat]
    show (((net.hw.txq k).served q).aborted.ndevFlowCtrl &&
      !decide (((net.hw.txq k).finished q).skList.length < RWNX_NDEV_FLOW_CTRL_RESTART)) = true
    rw [served_flow, hf.flow, decide_eq_false (not_lt.mpr hlen)]
    rfl
  · rw [hat]
    exact hlen

theorem net_shrinks {q : HwqId} (hk : k ∈ (net.hw.hwq q).list)
    (h : net.processTxq q k = some net') :
    Lib.CursorLoop.Shrinks (fun net : Net => (net.hw.hwq q).list)
      (fun net => net.hw.waiting q) net k net' := by
  obtain ⟨hothers, hshorter, hworks⟩ := processTxq_shrinks hk (processTxq_cases h).1
  exact ⟨hothers, hshorter, hworks⟩

/-- What every turn preserves, the processing does. -/
theorem process_preserves {q : HwqId} {I : Net → Prop}
    (next : ∀ net k net', (net.hw.txq k).active = true → net.serve q k = some net' → I net → I net')
    (hstart : I { net with hw := net.hw.setHwq q { net.hw.hwq q with needProcessing := false } })
    (h : net.hwqProcess q = some net') : I net' := by
  refine Lib.CursorLoop.loop_invariant (fun net => (net.hw.hwq q).linkedOnce)
    (fun _ _ _ hk hturn => net_shrinks hk hturn) ?_ (fun _ hk => List.mem_of_mem_head? hk) hstart h
  intro net k net' _ hturn hi
  obtain ⟨-, rfl | ⟨hact, hserve⟩⟩ := processTxq_cases hturn
  · exact hi
  · exact next net k net' hact hserve hi

theorem Released.process {q : HwqId} (h : Released net) (hs : net.hwqProcess q = some net') :
    Released net' := by
  refine process_preserves (fun _ _ _ hact hserve hr => Released.serve hr hact hserve) ?_ hs
  intro x hx
  obtain ⟨j, hj⟩ := h x hx
  exact ⟨j, hj.active, hj.subqueue, hj.flow, hj.long⟩

theorem Released.switch {i vif : ℕ} (h : Released net)
    (hk : ∀ k ∈ Net.dataTxqs i, net.ndev k = some vif ∨ ¬ Held net k)
    (hs : net.txqStaSwitchVif i vif = some net') : Released net' := by
  obtain ⟨hhw, hndev, hstopped⟩ := switch_view hs
  intro x hx
  have hold := ((hstopped x).mp hx).1
  obtain ⟨j, hj⟩ := h x hold
  refine ⟨j, hj.congr ?_ ?_ ?_ ?_⟩
  · rw [hhw]
    exact hj.active
  · rw [hndev]
    split
    · rename_i hmem
      rcases hk j hmem with hsame | hfree
      · exact hsame.symm
      · exact (hfree (hj.held hold)).elim
    · rfl
  · rw [hhw]
  · rw [hhw]
    exact hj.long

theorem step_released {a : TxqNetdev.Act} (hf : Frees net a) (hs : TxqNetdev.step net a = some net')
    (h : Released net) : Released net' := by
  cases a with
  | txqInit k vif status psId => exact Option.some.inj hs ▸ h.init hf vif status psId
  | txqDeinit k => exact Option.some.inj hs ▸ h.deinit hf
  | txqStart k reason =>
    obtain ⟨hw, hhw, rfl⟩ := Option.map_eq_some_iff.mp hs
    exact h.still (txqStart_changes hhw) (still_started _ reason) (started_flow _ reason)
  | txqStop k reason =>
    obtain rfl := Option.some.inj hs
    exact h.still (txqStop_changes net.hw k reason) (still_stopped _ reason) (stopped_flow _ reason)
  | txqQueueSkb k skb retry => exact h.queue hf hs
  | hwqProcess q => exact h.process hs
  | txqStaSwitchVif i vif => exact h.switch hf hs

/-! ## The conditions are needed -/

/-- The netdev of group addressed frames is the one of the vif. -/
def Wired (net : Net) : Prop := ∀ v d, net.ndev (.bcmc v) = some d → d = v

theorem process_ndev {q : HwqId} (h : net.hwqProcess q = some net') : net'.ndev = net.ndev :=
  process_preserves (I := fun u => u.ndev = net.ndev)
    (fun _ _ _ _ hserve hsame => (serve_cases hserve).2.1.trans hsame) rfl h

theorem bcmc_off (i v : ℕ) : TxqId.bcmc v ∉ Net.dataTxqs i := by
  intro hmem
  have howner := mem_txqs_iff.mp (List.mem_of_mem_take hmem)
  cases howner

theorem step_wired {a : TxqNetdev.Act} (hs : TxqNetdev.step net a = some net') (h : Wired net) :
    Wired net' := by
  intro v d hd
  cases a with
  | txqInit k vif status psId =>
    obtain rfl := Option.some.inj hs
    by_cases hk : TxqId.bcmc v = k
    · subst hk
      have hself : (net.txqInit (.bcmc v) vif status psId).ndev (.bcmc v) = some v :=
        Function.update_self ..
      rw [hself] at hd
      exact (Option.some.inj hd).symm
    · exact h v d ((Function.update_of_ne hk ..).symm.trans hd)
  | txqDeinit k =>
    obtain rfl := Option.some.inj hs
    exact h v d hd
  | txqStart k reason =>
    obtain ⟨hw, -, rfl⟩ := Option.map_eq_some_iff.mp hs
    exact h v d hd
  | txqStop k reason =>
    obtain rfl := Option.some.inj hs
    exact h v d hd
  | txqQueueSkb k skb retry =>
    obtain ⟨-, -, -, hndev, -⟩ := txqQueueSkb_cases hs
    exact h v d (hndev ▸ hd)
  | hwqProcess q => exact h v d (process_ndev hs ▸ hd)
  | txqStaSwitchVif i vif =>
    have hndev := (switch_view hs).2.1 (.bcmc v)
    rw [if_neg (bcmc_off i v)] at hndev
    exact h v d (hndev.symm.trans hd)

theorem subqueue_eq {x : ℕ × NdevIdx} (h : net.subqueue k = some x) :
    net.ndev k = some x.1 ∧ TxqId.ndevIdx k = some x.2 := by
  obtain ⟨d, hd, hmap⟩ := Option.bind_eq_some_iff.mp h
  obtain ⟨i, hi, rfl⟩ := Option.map_eq_some_iff.mp hmap
  exact ⟨hd, hi⟩

/-- A subqueue feeds one txq. -/
theorem Wired.owner {j : TxqId} {x : ℕ × NdevIdx} (h : Wired net) (hj : net.subqueue j = some x)
    (hk : net.subqueue k = some x) : j = k := by
  obtain ⟨hjd, hji⟩ := subqueue_eq hj
  obtain ⟨hkd, hki⟩ := subqueue_eq hk
  rcases ndevIdx_inj hji hki with rfl | ⟨u, v, rfl, rfl⟩
  · rfl
  · rw [← h u x.1 hjd, ← h v x.1 hkd]

theorem deinited_idle (t : Txq) : t.deinited.active = false := by
  unfold Txq.deinited
  split
  · rfl
  · rename_i hact
    exact Bool.eq_false_of_not_eq_true hact

theorem init_frees {vif : ℕ} {status : Finset StopReason} {psId : PsId} (hw : Wired net)
    (hr : Released (net.txqInit k vif status psId)) : ¬ Held net k := by
  rintro ⟨x, hsub, hx⟩
  obtain ⟨j, hj⟩ := hr x hx
  by_cases hjk : j = k
  · subst hjk
    have hfresh : ((net.txqInit j vif status psId).hw.txq j).ndevFlowCtrl = false := by
      show (Function.update net.hw.txq j _ j).ndevFlowCtrl = false
      rw [Function.update_self]
      rfl
    have hflow := hj.flow
    rw [hfresh] at hflow
    cases hflow
  · have hold : net.subqueue j = some x := by
      rw [← hj.subqueue]
      unfold Net.subqueue
      rw [show (net.txqInit k vif status psId).ndev j = net.ndev j from
        Function.update_of_ne hjk ..]
    exact hjk (hw.owner hold hsub)

theorem deinit_frees (hw : Wired net) (hr : Released (net.txqDeinit k)) : ¬ Held net k := by
  rintro ⟨x, hsub, hx⟩
  obtain ⟨j, hj⟩ := hr x hx
  obtain rfl := hw.owner hj.subqueue hsub
  have hact := hj.active
  rw [show (net.txqDeinit j).hw.txq j = _ from (txqDeinit_changes net.hw j).at, deinited_idle]
    at hact
  cases hact

theorem queue_frees {skb : Skb} {retry : Bool} (hw : Wired net')
    (hs : net.txqQueueSkb k skb retry = some net') (hr : Released net')
    (hidle : (net.hw.txq k).active = false) (hfed : (net.hw.txq k).ndevTxq = true) :
    (net.hw.txq k).skList.length < RWNX_NDEV_FLOW_CTRL_STOP := by
  obtain ⟨t, ht, hhw, hndev, hstop⟩ := txqQueueSkb_cases hs
  obtain ⟨u, hu, htxq, -⟩ := txqQueueSkb_view hhw
  obtain rfl := Option.some.inj (ht.symm.trans hu)
  obtain ⟨hlike, -, -, hperm⟩ := enqueue_view ht
  have hlen : t.skList.length = (net.hw.txq k).skList.length+1 := hperm.length_eq
  by_contra hlong
  rw [if_pos ⟨(enqueue_flow ht).2.trans hfed, by omega⟩] at hstop
  obtain ⟨x, hsub, hins⟩ := hstop
  obtain ⟨j, hj⟩ := hr x (hins ▸ Finset.mem_insert_self x _)
  have hsame : net'.subqueue k = some x := by
    rw [← hsub]
    unfold Net.subqueue
    rw [hndev]
  obtain rfl := hw.owner hj.subqueue hsame
  have hact := hj.active
  rw [htxq, Function.update_self, (still_relisted _).active] at hact
  exact Bool.false_ne_true (hidle.symm.trans (hlike.active.symm.trans hact))

theorem switch_frees {i vif : ℕ} (hs : net.txqStaSwitchVif i vif = some net')
    (hr : Released net') (hk : k ∈ Net.dataTxqs i) : net.ndev k = some vif ∨ ¬ Held net k := by
  by_contra hno
  obtain ⟨hne, hheld⟩ := not_or.mp hno
  obtain ⟨x, hsub, hx⟩ := not_not.mp hheld
  obtain ⟨-, hndev, hstopped⟩ := switch_view hs
  obtain ⟨hd, hidx⟩ := subqueue_eq hsub
  have hother : x.1 ≠ vif := by
    rintro rfl
    exact hne hd
  obtain ⟨j, hj⟩ := hr x ((hstopped x).mpr ⟨hx, fun _ _ _ => hother⟩)
  obtain ⟨hjd, hji⟩ := subqueue_eq hj.subqueue
  rcases ndevIdx_inj hji hidx with rfl | ⟨u, v, -, rfl⟩
  · rw [hndev, if_pos hk] at hjd
    exact hother (Option.some.inj hjd).symm
  · exact bcmc_off i v hk

/-- What a step leaves released, it was right to do. -/
theorem frees_of_released {a : TxqNetdev.Act} (hw : Wired net)
    (hs : TxqNetdev.step net a = some net') (hr : Released net') : Frees net a := by
  cases a with
  | txqInit k vif status psId => exact init_frees hw (Option.some.inj hs ▸ hr)
  | txqDeinit k => exact deinit_frees hw (Option.some.inj hs ▸ hr)
  | txqStart k reason => trivial
  | txqStop k reason => trivial
  | txqQueueSkb k skb retry =>
    exact fun hidle hfed => queue_frees (step_wired hs hw) hs hr hidle hfed
  | hwqProcess q => trivial
  | txqStaSwitchVif i vif => exact fun k hk => switch_frees hs hr hk

/-! ## Runs -/

/-- The subqueues are released in every state of a run exactly when none is stopped as its txq is
initialised, given up or moved. -/
theorem run_released_iff {acts : List TxqNetdev.Act}
    (h : exec TxqNetdev.step TxqNetdev.init acts = some net) :
    Throughout TxqNetdev.step Released TxqNetdev.init acts ↔
      Meets TxqNetdev.step Frees TxqNetdev.init acts :=
  throughout_iff_of_exec (J := fun net => Released net ∧ Wired net)
    (fun _ _ _ hf hs hj => ⟨step_released hf hs hj.1, step_wired hs hj.2⟩) (fun _ hj => hj.1)
    (fun _ _ _ hj hs hr => frees_of_released hj.2 hs hr)
    ⟨fun _ hno => (Finset.notMem_empty _ hno).elim, fun _ _ hno => by cases hno⟩ h

local instance : NeZero NX_NB_TXQ_PER_STA := ⟨by decide⟩

/-- More packets for a station than its txq may hold. -/
def filledRun : List TxqNetdev.Act :=
  TxqNetdev.Act.txqInit (.sta 0 0) 0 ∅ .legacy::
    (List.range 65).map fun n =>
      .txqQueueSkb (.sta 0 0) ⟨n, some (.unicast 0), false, false⟩ false

def servedRun : List TxqNetdev.Act := filledRun++[.hwqProcess .be, .txqDeinit (.sta 0 0)]

def served : Net := (exec TxqNetdev.step TxqNetdev.init servedRun).get (by decide +kernel)

theorem run_released_sample : Throughout TxqNetdev.step Released TxqNetdev.init servedRun ↔
    Meets TxqNetdev.step Frees TxqNetdev.init servedRun := by
  have hrun : exec TxqNetdev.step TxqNetdev.init servedRun = some served := (Option.some_get _).symm
  exact run_released_iff hrun

def reusedRun : List TxqNetdev.Act :=
  filledRun++[.txqDeinit (.sta 0 0), .txqInit (.sta 0 0) 0 ∅ .legacy]

def reused : Net := (exec TxqNetdev.step TxqNetdev.init reusedRun).get (by decide +kernel)

/-- The station goes away with its packets, and the next one that gets its index finds an empty
txq behind a stopped subqueue. -/
theorem reused_txq_stopped : ∃ net, exec TxqNetdev.step TxqNetdev.init reusedRun = some net ∧
    ¬ Released net := by
  refine ⟨reused, (Option.some_get _).symm, fun hr => ?_⟩
  have hstopped : (0, .sta 0 0) ∈ reused.stopped := by decide +kernel
  have hsub : reused.subqueue (.sta 0 0) = some (0, .sta 0 0) := by decide +kernel
  have hflow : (reused.hw.txq (.sta 0 0)).ndevFlowCtrl = false := by decide +kernel
  obtain ⟨j, hj⟩ := hr _ hstopped
  rcases ndevIdx_inj (subqueue_eq hj.subqueue).2 (subqueue_eq hsub).2 with rfl | ⟨u, v, -, hno⟩
  · exact Bool.false_ne_true (hflow.symm.trans hj.flow)
  · cases hno

end AIC.TxqFlowControl
