import Aic8800.TxqTurns

/-!
# The subqueues of the network devices

Where the scheduler of `rwnx_txq.c` stops and wakes the netdev subqueues that
feed its txqs. The functions do to the txqs what they do in the machine of the
scheduler; the pointer `ndev` of each txq and the stopped subqueues are kept
beside them. A call with a NULL pointer gives no state.
-/

set_option autoImplicit false

namespace AIC.TxqNetdev
open AIC.TxqMachine Lib.GuardedRun Lib.CursorLoop

/-- A subqueue of a network device: one for each TID of each station, and one for group
addressed frames. -/
inductive NdevIdx where
  | sta (i tid : ℕ)
  | bcmc
  deriving DecidableEq

/-- `NX_STA_NDEV_IDX` and `NX_BCMC_TXQ_NDEV_IDX`, with `NX_REMOTE_STA_MAX` of the chip. -/
def NdevIdx.num (remoteStaMax : ℕ) : NdevIdx → ℕ
  | .sta i tid => tid+i*NX_NB_TID_PER_STA
  | .bcmc => NX_NB_TID_PER_STA*remoteStaMax

/-- `ndev_idx`, which is `NDEV_NO_TXQ` for the txqs that netdev does not feed. -/
def TxqId.ndevIdx : TxqId → Option NdevIdx
  | .sta i tid => if tid.val < NX_NB_TID_PER_STA then some (.sta i tid) else none
  | .bcmc _ => some .bcmc
  | .unk _ => none
  | .offchan => none

/-- The netdev that a txq is initialised with: the one of the station's vif, or of the own. -/
def TxqId.netdev (vif : ℕ) : TxqId → ℕ
  | .sta _ _ => vif
  | .bcmc v => v
  | .unk v => v
  | .offchan => vif

/-- The subqueues that feed the txqs have different numbers. -/
theorem num_inj {n : ℕ} {j k : TxqId} {x y : NdevIdx} (hj : j.Valid n) (hk : k.Valid n)
    (hx : TxqId.ndevIdx j = some x) (hy : TxqId.ndevIdx k = some y) (h : x.num n = y.num n) :
    x = y := by
  cases j <;> cases k <;>
    simp only [TxqId.ndevIdx, Option.ite_none_right_eq_some, Option.some.injEq, reduceCtorEq,
      TxqId.Valid] at hx hy hj hk
  case sta.sta i s j t =>
    obtain ⟨hs, rfl⟩ := hx
    obtain ⟨ht, rfl⟩ := hy
    simp only [NdevIdx.num, NX_NB_TID_PER_STA] at hs ht h
    have hi : i = j := by omega
    have htid : s.val = t.val := by omega
    rw [hi, htid]
  case sta.bcmc i s v =>
    obtain ⟨hs, rfl⟩ := hx
    subst hy
    simp only [NdevIdx.num, NX_NB_TID_PER_STA] at hs h
    omega
  case bcmc.sta v i s =>
    obtain ⟨hs, rfl⟩ := hy
    subst hx
    simp only [NdevIdx.num, NX_NB_TID_PER_STA] at hs h
    omega
  case bcmc.bcmc u v =>
    rw [← hx, ← hy]

/-- A number says which txq it is, or that it is one for group addressed frames. -/
theorem ndevIdx_inj {j k : TxqId} {i : NdevIdx} (hj : TxqId.ndevIdx j = some i)
    (hk : TxqId.ndevIdx k = some i) : j = k ∨ ∃ u v, j = .bcmc u ∧ k = .bcmc v := by
  cases j <;> cases k <;>
    simp only [TxqId.ndevIdx, Option.ite_none_right_eq_some, Option.some.injEq, reduceCtorEq]
      at hj hk
  case sta.sta i s j t =>
    obtain ⟨-, rfl⟩ := hj
    obtain ⟨-, heq⟩ := hk
    obtain ⟨rfl, htid⟩ := NdevIdx.sta.inj heq
    rw [Fin.ext htid]
    exact .inl rfl
  case sta.bcmc i s v =>
    obtain ⟨-, rfl⟩ := hj
    cases hk
  case bcmc.sta v i s =>
    obtain ⟨-, rfl⟩ := hk
    cases hj
  case bcmc.bcmc u v => exact .inr ⟨u, v, rfl, rfl⟩

/-- The netdev of a vif is named by the index of the vif. -/
structure Net where
  hw : Hw
  ndev : TxqId → Option ℕ
  stopped : Finset (ℕ × NdevIdx)

def init : Net := ⟨TxqMachine.init, fun _ => none, ∅⟩

namespace Net

def subqueue (net : Net) (k : TxqId) : Option (ℕ × NdevIdx) :=
  (net.ndev k).bind fun d => (TxqId.ndevIdx k).map fun i => (d, i)

/-- `netif_stop_subqueue` of the subqueue of a txq. -/
def stopSubqueue (net : Net) (k : TxqId) : Option Net :=
  (net.subqueue k).map fun x => { net with stopped := insert x net.stopped }

def wakeSubqueue (net : Net) (k : TxqId) : Option Net :=
  (net.subqueue k).map fun x => { net with stopped := net.stopped.erase x }

def txqInit (net : Net) (k : TxqId) (vif : ℕ) (status : Finset StopReason) (psId : PsId) : Net :=
  { net with
    hw := net.hw.txqInit k status k.home k.owner psId
    ndev := Function.update net.ndev k (some (TxqId.netdev vif k)) }

def txqDeinit (net : Net) (k : TxqId) : Net := { net with hw := net.hw.txqDeinit k }

def txqQueueSkb (net : Net) (k : TxqId) (skb : Skb) (retry : Bool) : Option Net :=
  ((net.hw.txq k).enqueue skb retry).bind fun t =>
    (net.hw.txqQueueSkb k skb retry).bind fun hw =>
      if t.ndevTxq ∧ RWNX_NDEV_FLOW_CTRL_STOP < t.skList.length then
        { net with hw := hw }.stopSubqueue k
      else some { net with hw := hw }

/-- The end of a turn of the loop in `rwnx_hwq_process`. -/
def flowCtrlRestart (net : Net) (k : TxqId) : Option Net :=
  let net' := { net with hw := net.hw.setTxq k (net.hw.txq k).flowCtrlRestart }
  if (net.hw.txq k).ndevFlowCtrl ∧
      (net.hw.txq k).skList.length < RWNX_NDEV_FLOW_CTRL_RESTART then net'.wakeSubqueue k
  else some net'

def serve (net : Net) (q : HwqId) (k : TxqId) : Option Net :=
  let done := (net.hw.txq k).getSkbToPush.2
  { net with hw := ((net.hw.pushReady k).leave q k done).abortSp k }.flowCtrlRestart k

def processTxq (q : HwqId) (net : Net) (k : TxqId) : Option Net :=
  if !(net.hw.txq k).inHwqList then none
  else if !(net.hw.txq k).active then some net
  else if (net.hw.txq k).credits ≤ 0 then none
  else if (net.hw.txq k).skList = [] then none
  else net.serve q k

def hwqProcess (net : Net) (q : HwqId) : Option Net :=
  let net := { net with hw := net.hw.setHwq q { net.hw.hwq q with needProcessing := false } }
  let pos := (net.hw.hwq q).list.head?
  loop (fun net => (net.hw.hwq q).list) (processTxq q)
    (cost (fun net => (net.hw.hwq q).list) (fun net => net.hw.waiting q) net pos) net pos

/-- The txqs of a station that netdev feeds. -/
def dataTxqs (i : ℕ) : List TxqId := (StaId.unicast i).txqs.take NX_NB_TID_PER_STA

/-- A turn of the loop in `rwnx_txq_sta_switch_vif`, for a txq that was initialised. -/
def switchTxq (vif : ℕ) (net : Net) (k : TxqId) : Option Net :=
  if net.ndev k = none then none
  else { net with ndev := Function.update net.ndev k (some vif) }.wakeSubqueue k

def txqStaSwitchVif (net : Net) (i vif : ℕ) : Option Net := exec (switchTxq vif) net (dataTxqs i)

end Net

/-! ## Runs -/

inductive Act where
  | txqInit (k : TxqId) (vif : ℕ) (status : Finset StopReason) (psId : PsId)
  | txqDeinit (k : TxqId)
  | txqStart (k : TxqId) (reason : Finset StopReason)
  | txqStop (k : TxqId) (reason : Finset StopReason)
  | txqQueueSkb (k : TxqId) (skb : Skb) (retry : Bool)
  | hwqProcess (q : HwqId)
  | txqStaSwitchVif (i vif : ℕ)

def step (net : Net) : Act → Option Net
  | .txqInit k vif status psId => some (net.txqInit k vif status psId)
  | .txqDeinit k => some (net.txqDeinit k)
  | .txqStart k reason => (net.hw.txqStart k reason).map fun hw => { net with hw := hw }
  | .txqStop k reason => some { net with hw := net.hw.txqStop k reason }
  | .txqQueueSkb k skb retry => net.txqQueueSkb k skb retry
  | .hwqProcess q => net.hwqProcess q
  | .txqStaSwitchVif i vif => net.txqStaSwitchVif i vif

end AIC.TxqNetdev
