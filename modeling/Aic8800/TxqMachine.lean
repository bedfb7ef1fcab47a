import Aic8800.Lib.CursorLoop
import Aic8800.Lib.GuardedRun
import Mathlib.Data.Finset.Basic
import Mathlib.Data.List.Rotate
import Mathlib.Data.List.FinRange
import Mathlib.Data.Int.Basic

/-!
# The scheduler of the TX queues

The txqs of `rwnx_txq.c`, the list of ready txqs of each hardware queue, and the
power-save counters of the stations. A function gives no state where the source
stops in a `BUG_ON`, dereferences NULL or links an entry twice. The `tx_lock`
makes each of them one step.
-/

set_option autoImplicit false

namespace AIC.TxqMachine
open Lib.GuardedRun Lib.CursorLoop

/-- `RWNX_TXQ_STOP_*`, the bits of a status that a txq is stopped and started for. -/
inductive StopReason where
  | full | csa | staPs | vifPs | chan | muPos
  deriving DecidableEq

/-- `RWNX_TXQ_STOP`. -/
def TXQ_STOP : Finset StopReason := {.full, .csa, .staPs, .vifPs, .chan}

inductive HwqId where
  | bk | be | vi | vo
  deriving DecidableEq

inductive PsId where
  | legacy | uapsd
  deriving DecidableEq

/-- The station of index `i`, and the one of a vif for group addresses, which
`rwnx_get_tx_priv` looks for behind the others. -/
inductive StaId where
  | unicast (i : ℕ)
  | multicast (vif : ℕ)
  deriving DecidableEq

abbrev NX_NB_TXQ_PER_STA : ℕ := 9

/-- Who a txq is for: the entries of `rwnx_hw->txq` in their order. -/
inductive TxqId where
  | sta (i : ℕ) (tid : Fin NX_NB_TXQ_PER_STA)
  | bcmc (vif : ℕ)
  | unk (vif : ℕ)
  | offchan
  deriving DecidableEq

def NX_VIRT_DEV_MAX : ℕ := 4

/-- The index of the entry, with `NX_REMOTE_STA_MAX` of the chip. -/
def TxqId.idx (remoteStaMax : ℕ) : TxqId → ℕ
  | .sta i tid => i*NX_NB_TXQ_PER_STA+tid
  | .bcmc vif => remoteStaMax*NX_NB_TXQ_PER_STA+vif
  | .unk vif => remoteStaMax*NX_NB_TXQ_PER_STA+NX_VIRT_DEV_MAX+vif
  | .offchan => remoteStaMax*NX_NB_TXQ_PER_STA+NX_VIRT_DEV_MAX*2

def TxqId.Valid (remoteStaMax : ℕ) : TxqId → Prop
  | .sta i _ => i < remoteStaMax
  | .bcmc vif => vif < NX_VIRT_DEV_MAX
  | .unk vif => vif < NX_VIRT_DEV_MAX
  | .offchan => True

/-- Each entry of the array is named once. -/
theorem idx_inj {n : ℕ} {j k : TxqId} (hj : j.Valid n) (hk : k.Valid n)
    (h : j.idx n = k.idx n) : j = k := by
  cases j <;> cases k <;>
    simp only [TxqId.Valid, TxqId.idx, NX_NB_TXQ_PER_STA, NX_VIRT_DEV_MAX, TxqId.sta.injEq,
      TxqId.bcmc.injEq, TxqId.unk.injEq, reduceCtorEq] at hj hk h ⊢ <;>
    omega

def TID_MGT : ℕ := 8

/-- The tid a txq is initialised with. -/
def TxqId.tid : TxqId → ℕ
  | .sta _ tid => tid
  | .bcmc _ => 0
  | .unk _ => TID_MGT
  | .offchan => TID_MGT

/-- `rwnx_tid2hwq`. -/
def tid2hwq : ℕ → HwqId
  | 0 => .be
  | 1 => .bk
  | 2 => .bk
  | 3 => .be
  | 4 => .vi
  | 5 => .vi
  | 6 => .vo
  | 7 => .vo
  | 8 => .vo
  | _ => .be

/-- `nx_txdesc_cnt`. -/
def HwqId.size : HwqId → ℕ
  | .bk => 8
  | .be => 64
  | .vi => 64
  | .vo => 32

/-- `sta` and `mesh` are the station and the kind of the vif in the `rwnx_sw_txhdr`, and `mgmt`
is `TXU_CNTRL_MGMT` of its flags. -/
structure Skb where
  id : ℕ
  sta : Option StaId
  mgmt : Bool
  mesh : Bool
  deriving DecidableEq

/-- `active` says that `idx` is not `TXQ_INACTIVE`; `inHwqList`, `stops` and `ndevFlowCtrl` are
the bits of `status`, and `ndevTxq` says that `ndev_idx` is not `NDEV_NO_TXQ`. -/
structure Txq where
  active : Bool
  inHwqList : Bool
  stops : Finset StopReason
  ndevFlowCtrl : Bool
  credits : ℤ
  pktSent : ℕ
  pktPushed : ℕ
  skList : List Skb
  lastRetrySkb : Option ℕ
  nbRetry : ℕ
  hwq : Option HwqId
  pushLimit : ℕ
  sta : Option StaId
  psId : PsId
  ndevTxq : Bool

/-- An entry is linked at most once. -/
structure Hwq where
  list : List TxqId
  linkedOnce : list.Nodup
  needProcessing : Bool

/-- `underflow` records that a counter was taken below zero. -/
structure Sta where
  psActive : Bool
  pktReady : PsId → ℕ
  spCnt : PsId → ℕ
  uapsdTids : BitVec 16
  tdlsActive : Bool
  underflow : Bool

/-- What `aicwf_frame_tx` was given, until it is confirmed. -/
structure Pushed where
  skb : Skb
  txq : TxqId
  hwQueue : Option HwqId
  eosp : Bool
  moreData : Bool

/-- `traffic` are the calls of `rwnx_set_traffic_status`. -/
structure Hw where
  txq : TxqId → Txq
  hwq : HwqId → Hwq
  sta : StaId → Sta
  pushed : List Pushed
  traffic : List (StaId × PsId × Bool)
  nextSkb : ℕ

/-- A txq in memory that was cleared. -/
def Txq.blank : Txq where
  active := false
  inHwqList := false
  stops := ∅
  ndevFlowCtrl := false
  credits := 0
  pktSent := 0
  pktPushed := 0
  skList := []
  lastRetrySkb := none
  nbRetry := 0
  hwq := none
  pushLimit := 0
  sta := none
  psId := .legacy
  ndevTxq := true

def init : Hw where
  txq := fun _ => .blank
  hwq := fun _ => ⟨[], List.nodup_nil, false⟩
  sta := fun _ => ⟨false, fun _ => 0, fun _ => 0, 0, false, false⟩
  pushed := []
  traffic := []
  nextSkb := 0

/-- `foreach_sta_txq`. -/
def StaId.txqs : StaId → List TxqId
  | .unicast i => (List.finRange NX_NB_TXQ_PER_STA).map (.sta i)
  | .multicast vif => [.bcmc vif]

/-- `rwnx_txq_sta_get`. -/
def StaId.txqGet : StaId → ℕ → TxqId
  | .unicast i, tid => if h : tid < NX_NB_TXQ_PER_STA then .sta i ⟨tid, h⟩ else .sta i ⟨0, by decide⟩
  | .multicast vif, _ => .bcmc vif

def NX_TXQ_INITIAL_CREDITS : ℤ := 64
def NX_NB_TID_PER_STA : ℕ := 8
def RWNX_NDEV_FLOW_CTRL_STOP : ℕ := 64
def RWNX_NDEV_FLOW_CTRL_RESTART : ℕ := 64

def TxqId.hasNdev : TxqId → Bool
  | .sta _ tid => decide (tid.val < NX_NB_TID_PER_STA)
  | .bcmc _ => true
  | .unk _ => false
  | .offchan => false

namespace Txq

def Stopped (t : Txq) : Prop := (t.stops ∩ TXQ_STOP).Nonempty

instance : DecidablePred Stopped := fun t => inferInstanceAs (Decidable (t.stops ∩ TXQ_STOP).Nonempty)

def isFull (t : Txq) : Bool := decide (StopReason.full ∈ t.stops)

/-- The credits of an s8. -/
def addCredit (t : Txq) : Txq := { t with credits := (t.credits+1).bmod 256 }

/-- `rwnx_skb_append`: nothing when the old buffer is not in the list. -/
def skbAppend (old : ℕ) (skb : Skb) : List Skb → Option (List Skb)
  | [] => none
  | x::xs =>
    match skbAppend old skb xs with
    | some ys => some (x::ys)
    | none => if x.id = old then some (x::skb::xs) else none

def enqueue (t : Txq) (skb : Skb) (retry : Bool) : Option Txq :=
  if !retry then some { t with skList := t.skList++[skb] }
  else
    let list := match t.lastRetrySkb with
      | some old => skbAppend old skb t.skList
      | none => some (skb::t.skList)
    list.map fun l =>
      { t with
        skList := l
        lastRetrySkb := some skb.id
        nbRetry := t.nbRetry+1 }

def flowCtrlStop (t : Txq) : Txq :=
  { t with
    ndevFlowCtrl := t.ndevFlowCtrl ||
      (t.ndevTxq && decide (RWNX_NDEV_FLOW_CTRL_STOP < t.skList.length)) }

def flowCtrlRestart (t : Txq) : Txq :=
  { t with
    ndevFlowCtrl := t.ndevFlowCtrl &&
      !decide (t.skList.length < RWNX_NDEV_FLOW_CTRL_RESTART) }

/-- `rwnx_txq_get_credits`. -/
def getCredits (t : Txq) : ℤ :=
  if t.pushLimit ≠ 0 ∧ (t.pushLimit : ℤ) < t.credits then t.pushLimit else t.credits

/-- `rwnx_txq_get_skb_to_push`: how many buffers are taken, and whether the txq is done. -/
def getSkbToPush (t : Txq) : ℕ × Bool :=
  if (t.skList.length : ℤ) ≤ t.getCredits then (t.skList.length, true)
  else (t.getCredits.toNat, decide (t.pushLimit ≠ 0 ∧ t.getCredits = t.pushLimit))

/-- What `rwnx_tx_push` does to the txq of the buffer. -/
def push (t : Txq) : Txq :=
  { t with
    lastRetrySkb := if t.nbRetry = 1 then none else t.lastRetrySkb
    nbRetry := t.nbRetry-1
    pktSent := if t.nbRetry = 0 then (t.pktSent+1) % 256 else t.pktSent
    pktPushed := (t.pktPushed+1) % 256
    pushLimit := t.pushLimit-1 }

end Txq

namespace Hwq

def addTail (h : Hwq) (k : TxqId) (hk : k ∉ h.list) : Hwq where
  list := h.list++[k]
  linkedOnce := List.nodup_append.mpr ⟨h.linkedOnce, List.nodup_singleton k, fun a ha b hb => by
    rintro rfl
    exact hk (List.mem_singleton.mp hb ▸ ha)⟩
  needProcessing := true

def del (h : Hwq) (k : TxqId) : Hwq where
  list := h.list.erase k
  linkedOnce := h.linkedOnce.erase k
  needProcessing := h.needProcessing

def rotateLeft (h : Hwq) : Hwq where
  list := h.list.rotate 1
  linkedOnce := List.nodup_rotate.mpr h.linkedOnce
  needProcessing := h.needProcessing

end Hwq

namespace Sta

/-- A packet more for the station. -/
def queued (s : Sta) (p : PsId) : Sta :=
  { s with pktReady := Function.update s.pktReady p ((s.pktReady p+1) % 2^16) }

/-- A packet less in the service period. -/
def spLess (s : Sta) (p : PsId) (n : ℕ) : Sta :=
  { s with
    spCnt := Function.update s.spCnt p ((s.spCnt p+2^16-n % 2^16) % 2^16)
    underflow := s.underflow || decide (s.spCnt p < n) }

/-- The counters in `rwnx_set_more_data_flag`. -/
def pushed (s : Sta) (p : PsId) : Sta :=
  { s with
    pktReady := Function.update s.pktReady p ((s.pktReady p+2^16-1) % 2^16)
    underflow := s.underflow || decide (s.pktReady p = 0) }.spLess p 1

def grant (s : Sta) (p : PsId) (n : ℕ) : Sta :=
  { s with spCnt := Function.update s.spCnt p ((s.spCnt p+n) % 2^16) }

end Sta

namespace Hw

def setTxq (hw : Hw) (k : TxqId) (t : Txq) : Hw := { hw with txq := Function.update hw.txq k t }

def setHwq (hw : Hw) (q : HwqId) (h : Hwq) : Hw := { hw with hwq := Function.update hw.hwq q h }

def setSta (hw : Hw) (s : StaId) (x : Sta) : Hw := { hw with sta := Function.update hw.sta s x }

/-! ## The lists -/

/-- `list_add_tail` of an entry that is linked already breaks the list. -/
def addToHwList (hw : Hw) (k : TxqId) : Option Hw :=
  if (hw.txq k).inHwqList then some hw
  else match (hw.txq k).hwq with
    | none => none
    | some q =>
      if hk : k ∈ (hw.hwq q).list then none
      else some ((hw.setTxq k { hw.txq k with inHwqList := true }).setHwq q
        ((hw.hwq q).addTail k hk))

/-- `list_del` takes the entry out of the list it is in. -/
def delFromHwList (hw : Hw) (k : TxqId) : Hw :=
  if (hw.txq k).inHwqList then
    { hw.setTxq k { hw.txq k with inHwqList := false } with hwq := fun q => (hw.hwq q).del k }
  else hw

/-! ## Init and deinit -/

/-- The entry is cleared without a look at whether it is linked. -/
def txqInit (hw : Hw) (k : TxqId) (status : Finset StopReason) (hwq : HwqId)
    (sta : Option StaId) (psId : PsId) : Hw :=
  hw.setTxq k
    { Txq.blank with
      active := true
      stops := status
      credits := NX_TXQ_INITIAL_CREDITS
      hwq := some hwq
      sta := sta
      psId := psId
      ndevTxq := k.hasNdev }

/-- `rwnx_txq_deinit` with its flush. -/
def txqDeinit (hw : Hw) (k : TxqId) : Hw :=
  if !(hw.txq k).active then hw
  else
    let hw := hw.delFromHwList k
    hw.setTxq k
      { hw.txq k with
        active := false
        skList := [] }

def txqUnkVifInit (hw : Hw) (vif : ℕ) : Hw := hw.txqInit (.unk vif) ∅ .vo none .legacy

def txqVifInit (hw : Hw) (vif : ℕ) (status : Finset StopReason) : Hw :=
  (hw.txqInit (.bcmc vif) status .be (some (.multicast vif)) .legacy).txqInit (.unk vif) status .vo
    none .legacy

def txqVifDeinit (hw : Hw) (vif : ℕ) : Hw := (hw.txqDeinit (.bcmc vif)).txqDeinit (.unk vif)

def txqStaInit (hw : Hw) (s : StaId) (status : Finset StopReason) : Hw :=
  s.txqs.foldl (fun hw k => hw.txqInit k status (tid2hwq k.tid) (some s)
    (if (hw.sta s).uapsdTids.getLsbD k.tid then .uapsd else .legacy)) hw

def txqStaDeinit (hw : Hw) (s : StaId) : Hw := s.txqs.foldl txqDeinit hw

def txqOffchanInit (hw : Hw) : Hw := hw.txqInit .offchan {.chan} .vo none .legacy

/-! ## Start and stop -/

def txqStart (hw : Hw) (k : TxqId) (reason : Finset StopReason) : Option Hw :=
  if (hw.txq k).active ∧ ((hw.txq k).stops ∩ reason).Nonempty then
    let t := { hw.txq k with stops := (hw.txq k).stops \ reason }
    if ¬ t.Stopped ∧ t.skList ≠ [] then (hw.setTxq k t).addToHwList k else some (hw.setTxq k t)
  else some hw

def txqStop (hw : Hw) (k : TxqId) (reason : Finset StopReason) : Hw :=
  if (hw.txq k).active then
    (hw.setTxq k { hw.txq k with stops := (hw.txq k).stops ∪ reason }).delFromHwList k
  else hw

def txqStaStart (hw : Hw) (s : StaId) (reason : Finset StopReason) : Option Hw :=
  exec (fun hw k => hw.txqStart k reason) hw s.txqs

def txqStaStop (hw : Hw) (s : StaId) (reason : Finset StopReason) : Hw :=
  s.txqs.foldl (fun hw k => hw.txqStop k reason) hw

/-! ## Queueing -/

def setTrafficStatus (hw : Hw) (s : StaId) (p : PsId) (available : Bool) : Hw :=
  { hw with traffic := hw.traffic++[(s, p, available)] }

def psQueue (hw : Hw) (k : TxqId) : Hw :=
  match (hw.txq k).sta with
  | none => hw
  | some s =>
    if !(hw.sta s).psActive then hw
    else
      let p := (hw.txq k).psId
      let hw := hw.setSta s ((hw.sta s).queued p)
      if (hw.sta s).pktReady p = 1 then hw.setTrafficStatus s p true else hw

def txqQueueSkb (hw : Hw) (k : TxqId) (skb : Skb) (retry : Bool) : Option Hw :=
  ((hw.txq k).enqueue skb retry).bind fun t =>
    let hw := (hw.psQueue k).setTxq k t.flowCtrlStop
    if t.Stopped then some hw else hw.addToHwList k

/-! ## Pushing -/

/-- `rwnx_set_more_data_flag`, with `TXU_CNTRL_EOSP` and `TXU_CNTRL_MORE_DATA`. -/
def setMoreDataFlag (hw : Hw) (s : StaId) (p : PsId) (mesh : Bool) : Hw × Bool × Bool :=
  if !(hw.sta s).psActive then (hw, false, false)
  else
    let x := (hw.sta s).pushed p
    let hw' := hw.setSta s x
    let eosp := (p = .uapsd || mesh || x.tdlsActive) && x.spCnt p = 0
    if x.pktReady p = 0 then (hw'.setTrafficStatus s p false, eosp, false) else (hw', eosp, true)

def txPush (hw : Hw) (k : TxqId) (skb : Skb) : Hw :=
  let (hw', eosp, moreData) := match skb.sta with
    | none => (hw, false, false)
    | some s => hw.setMoreDataFlag s (hw.txq k).psId skb.mesh
  { hw'.setTxq k (hw.txq k).push with
    pushed := hw.pushed++[⟨skb, k, (hw.txq k).hwq, eosp, moreData⟩] }

/-- The service period of legacy power save is given up. -/
def abortSp (hw : Hw) (k : TxqId) : Hw :=
  match (hw.txq k).sta with
  | none => hw
  | some s =>
    if (hw.txq k).pushLimit ≠ 0 ∧ (hw.txq k).psId = .legacy then
      (hw.setSta s ((hw.sta s).spLess .legacy (hw.txq k).pushLimit)).setTxq k
        { hw.txq k with pushLimit := 0 }
    else hw

/-- The txq leaves the list when it is done, or lets the next one go first. -/
def leave (hw : Hw) (q : HwqId) (k : TxqId) (done : Bool) : Hw :=
  if done then
    let hw := hw.delFromHwList k
    hw.setTxq k { hw.txq k with pktSent := 0 }
  else if (hw.txq k).inHwqList ∧ q.size < (hw.txq k).pktSent then
    (hw.setTxq k { hw.txq k with pktSent := 0 }).setHwq q (hw.hwq q).rotateLeft
  else hw

/-- The buffers that may be pushed are taken from the list and pushed. -/
def pushReady (hw : Hw) (k : TxqId) : Hw :=
  let t := hw.txq k
  let n := t.getSkbToPush.1
  (t.skList.take n).foldl (fun hw skb => hw.txPush k skb)
    (hw.setTxq k { t with skList := t.skList.drop n })

def serve (hw : Hw) (q : HwqId) (k : TxqId) : Hw :=
  let done := (hw.txq k).getSkbToPush.2
  let hw := ((hw.pushReady k).leave q k done).abortSp k
  hw.setTxq k (hw.txq k).flowCtrlRestart

/-- A turn of the loop in `rwnx_hwq_process`, with its checks. -/
def processTxq (q : HwqId) (hw : Hw) (k : TxqId) : Option Hw :=
  if !(hw.txq k).inHwqList then none
  else if !(hw.txq k).active then some hw
  else if (hw.txq k).credits ≤ 0 then none
  else if (hw.txq k).skList = [] then none
  else some (hw.serve q k)

/-- The buffers that wait on the txqs of a list. -/
def waiting (hw : Hw) (q : HwqId) : ℕ := ((hw.hwq q).list.map fun k => (hw.txq k).skList.length).sum

def hwqProcess (hw : Hw) (q : HwqId) : Option Hw :=
  let hw := hw.setHwq q { hw.hwq q with needProcessing := false }
  let pos := (hw.hwq q).list.head?
  loop (fun hw => (hw.hwq q).list) (processTxq q)
    (cost (fun hw => (hw.hwq q).list) (fun hw => hw.waiting q) hw pos) hw pos

def hwqProcessAll (hw : Hw) : Option Hw :=
  exec (fun hw q => if (hw.hwq q).needProcessing then hw.hwqProcess q else some hw) hw
    [.vo, .vi, .be, .bk]

end Hw

end AIC.TxqMachine
