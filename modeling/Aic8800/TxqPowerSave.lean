import Aic8800.TxqMachine

/-!
# Power save, confirmations and the runs of the scheduler

`rwnx_ps_bh_enable` and `rwnx_ps_bh_traffic_req` of `rwnx_tx.c` with the
confirmation of a pushed buffer, and the machine whose actions are the functions
that the rest of the driver calls, in any order.
-/

set_option autoImplicit false

namespace AIC.TxqMachine
open Lib.GuardedRun

def PS_SP_INTERRUPTED : ℕ := 255

/-- `nx_tid_prio`. -/
def nxTidPrio : List ℕ := [7, 6, 5, 4, 3, 0, 2, 1]

/-- The buffers that a service period may take from the txq, a u16. -/
def Txq.spLen (t : Txq) : ℕ :=
  if t.credits < (t.skList.length % 2^16 : ℕ) then (t.credits % 2^16).toNat
  else t.skList.length % 2^16

namespace Hw

/-! ## Power save -/

/-- The counter of ready packets as `rwnx_ps_bh_enable` adds it up. -/
def countReady (hw : Hw) (p : PsId) : List TxqId → ℕ
  | [] => 0
  | k::ks => ((if (hw.txq k).psId = p then (hw.txq k).skList.length else 0)+hw.countReady p ks) % 2^16

def psReady (hw : Hw) : StaId → PsId → ℕ
  | .multicast vif, .legacy => (hw.txq (.bcmc vif)).skList.length % 2^16
  | .multicast _, .uapsd => 0
  | .unicast i, p => hw.countReady p (StaId.unicast i).txqs

def psEnable (hw : Hw) (s : StaId) : Hw :=
  let hw := hw.setSta s
    { hw.sta s with
      psActive := true
      spCnt := fun _ => 0 }
  let hw := hw.txqStaStop s {.staPs}
  hw.setSta s { hw.sta s with pktReady := hw.psReady s }

/-- The hardware queue of group addressed frames is the one of best effort again. -/
def psRelease (s : StaId) (hw : Hw) (k : TxqId) : Hw :=
  hw.setTxq k
    { hw.txq k with
      pushLimit := 0
      hwq := match s with
        | .multicast _ => some .be
        | .unicast _ => (hw.txq k).hwq }

def psDisable (hw : Hw) (s : StaId) : Option Hw :=
  let hw := hw.setSta s { hw.sta s with psActive := false }
  (s.txqs.foldl (psRelease s) hw).txqStaStart s {.staPs}

def psBhEnable (hw : Hw) (s : StaId) (enable : Bool) : Option Hw :=
  if enable then some (hw.psEnable s) else hw.psDisable s

/-- A txq is given its part of the service period. -/
def spGrant (hw : Hw) (s : StaId) (p : PsId) (k : TxqId) (n : ℕ) : Hw :=
  (hw.setTxq k { hw.txq k with pushLimit := n % 2^8 }).setSta s ((hw.sta s).grant p n)

/-- The request is dispatched between the txqs, in the order of their priority. -/
def dispatch (s : StaId) (p : PsId) : Hw → ℕ → List TxqId → Option Hw
  | hw, _, [] => some hw
  | hw, req, k::ks =>
    let len := (hw.txq k).spLen
    if (hw.txq k).psId ≠ p ∨ len = 0 then dispatch s p hw req ks
    else if len < req then
      ((hw.spGrant s p k len).addToHwList k).bind fun hw => dispatch s p hw (req-len) ks
    else (hw.spGrant s p k req).addToHwList k

/-- For group addressed frames the credits bound the request, as a u16. -/
def dispatchMulticast (hw : Hw) (vif : ℕ) (p : PsId) (req : ℕ) : Option Hw :=
  let k := TxqId.bcmc vif
  let s := StaId.multicast vif
  let n := if (hw.txq k).credits < req then ((hw.txq k).credits % 2^16).toNat else req
  ((hw.setTxq k { hw.txq k with pushLimit := n % 2^8 }).setSta s
    { hw.sta s with spCnt := Function.update (hw.sta s).spCnt p n }).addToHwList k

/-- The service period is interrupted: the txqs stay where they are. -/
def spInterrupt (hw : Hw) (s : StaId) : Hw :=
  let hw := hw.setSta s
    { hw.sta s with spCnt := Function.update (hw.sta s).spCnt .uapsd 0 }
  s.txqs.foldl (fun hw k => hw.setTxq k { hw.txq k with pushLimit := 0 }) hw

/-- `pkt_ready_all`. -/
def readyAll (hw : Hw) (s : StaId) (p : PsId) : ℤ := (hw.sta s).pktReady p-(hw.sta s).spCnt p

/-- A request starts a service period when none is under way and packets are ready. -/
def spStarts (hw : Hw) (s : StaId) (p : PsId) : Prop :=
  (hw.sta s).psActive = true ∧ (hw.sta s).spCnt p = 0 ∧ 0 < hw.readyAll s p

instance (hw : Hw) (s : StaId) (p : PsId) : Decidable (hw.spStarts s p) :=
  inferInstanceAs (Decidable (_ ∧ _ ∧ _))

/-- The request of a station, 0 for all. -/
def adaptReq (hw : Hw) (s : StaId) (p : PsId) (req : ℕ) : ℕ :=
  if req = 0 ∨ hw.readyAll s p < req then (hw.readyAll s p).toNat else req

def psBhTrafficReq (hw : Hw) (s : StaId) (req : ℕ) (p : PsId) : Option Hw :=
  if !(hw.sta s).psActive then some hw
  else if req = PS_SP_INTERRUPTED ∧ p = .uapsd then some (hw.spInterrupt s)
  else if ¬ hw.spStarts s p then some hw
  else match s with
    | .multicast vif => hw.dispatchMulticast vif p (hw.adaptReq s p req)
    | .unicast i =>
      dispatch s p hw (hw.adaptReq s p req) (nxTidPrio.map (StaId.unicast i).txqGet)

/-! ## Confirmations -/

/-- `rwnx_txq_confirm_any`. -/
def txqConfirmAny (hw : Hw) (f : Pushed) : Hw :=
  let hw := hw.setTxq f.txq
    { hw.txq f.txq with pktPushed := (hw.txq f.txq).pktPushed-1 }
  match f.hwQueue with
  | none => hw
  | some q => hw.setHwq q { hw.hwq q with needProcessing := true }

def txRetry (hw : Hw) (f : Pushed) : Option Hw :=
  let hw := hw.setTxq f.txq (hw.txq f.txq).addCredit
  (if 0 < (hw.txq f.txq).credits then hw.txqStart f.txq {.full} else some hw).bind fun hw =>
    hw.txqQueueSkb f.txq f.skb true

/-- A service period goes on with the confirmation. -/
def continueSp (hw : Hw) (k : TxqId) : Option Hw :=
  if (hw.txq k).active ∧ (hw.txq k).pushLimit ≠ 0 ∧ ¬ (hw.txq k).isFull then hw.addToHwList k
  else some hw

def confirmed (hw : Hw) (f : Pushed) (retry : Bool) : Option Hw :=
  let hw := hw.txqConfirmAny f
  if !f.skb.mgmt && (hw.txq f.txq).active && retry then hw.txRetry f else hw.continueSp f.txq

/-- `rwnx_txdatacfm` for the buffer at place `i`, with a status other than zero: `retry` is
`retry_required` or `sw_retry_required`. -/
def txdatacfm (hw : Hw) (i : ℕ) (busDown retry : Bool) : Option Hw :=
  match hw.pushed[i]? with
  | none => some hw
  | some f =>
    let hw := { hw with pushed := hw.pushed.eraseIdx i }
    if busDown then some hw else hw.confirmed f retry

def txqCreditUpdate (hw : Hw) (s : StaId) (tid : ℕ) : Option Hw :=
  let k := s.txqGet tid
  if !(hw.txq k).active then some hw
  else if (hw.txq k).credits ≤ 0 then some (hw.txqStop k {.full})
  else hw.txqStart k {.full}

/-! ## Connections and stations -/

/-- `rwnx_cfg80211_start_ap` and `rwnx_cfg80211_join_mesh`. -/
def startAp (hw : Hw) (vif : ℕ) (status : Finset StopReason) : Hw :=
  let s := StaId.multicast vif
  (hw.setSta s { hw.sta s with psActive := false }).txqVifInit vif status

/-- `rwnx_rx_sm_connect_ind`. -/
def smConnectInd (hw : Hw) (i vif : ℕ) (status : Finset StopReason) (tdls : Bool) : Hw :=
  let s := StaId.unicast i
  let hw := (hw.setSta s { hw.sta s with psActive := false }).txqStaInit s status
  if tdls then hw.txqUnkVifInit vif else hw

/-- `rwnx_cfg80211_add_station` up to the txqs. -/
def addStation (hw : Hw) (i : ℕ) (uapsdTids : BitVec 16) (tdlsActive : Bool)
    (status : Finset StopReason) : Hw :=
  let s := StaId.unicast i
  (hw.setSta s
    { hw.sta s with
      uapsdTids := uapsdTids
      tdlsActive := tdlsActive }).txqStaInit s status

/-- `rwnx_start_xmit` and `rwnx_start_mgmt_xmit` from where they take the lock: the buffer is for
the station that the txq was looked up for. -/
def xmit (hw : Hw) (k : TxqId) (sta : Option StaId) (mgmt mesh : Bool) : Option Hw :=
  { hw with nextSkb := hw.nextSkb+1 }.txqQueueSkb k ⟨hw.nextSkb, sta, mgmt, mesh⟩ false

end Hw

/-! ## Runs -/

/-- Where a buffer goes: to a station, or with a management frame to one that is not known. -/
inductive Dest where
  | sta (s : StaId) (tid : ℕ)
  | unk (vif : ℕ)
  | offchan
  deriving DecidableEq

def Dest.txq : Dest → TxqId
  | .sta s tid => s.txqGet tid
  | .unk vif => .unk vif
  | .offchan => .offchan

def Dest.station : Dest → Option StaId
  | .sta s _ => some s
  | .unk _ => none
  | .offchan => none

inductive Act where
  | startAp (vif : ℕ) (status : Finset StopReason)
  | addStation (i : ℕ) (uapsdTids : BitVec 16) (tdlsActive : Bool) (status : Finset StopReason)
  | smConnectInd (i vif : ℕ) (status : Finset StopReason) (tdls : Bool)
  | txqUnkVifInit (vif : ℕ)
  | txqOffchanInit
  | txqVifDeinit (vif : ℕ)
  | txqStaDeinit (s : StaId)
  | txqDeinit (k : TxqId)
  | txqStart (k : TxqId) (reason : Finset StopReason)
  | txqStop (k : TxqId) (reason : Finset StopReason)
  | xmit (d : Dest) (mgmt mesh : Bool)
  | hwqProcess (q : HwqId)
  | hwqProcessAll
  | txdatacfm (i : ℕ) (busDown retry : Bool)
  | txqCreditUpdate (s : StaId) (tid : ℕ)
  | psBhEnable (s : StaId) (enable : Bool)
  | psBhTrafficReq (s : StaId) (req : ℕ) (p : PsId)

def step (hw : Hw) : Act → Option Hw
  | .startAp vif status => some (hw.startAp vif status)
  | .addStation i uapsdTids tdlsActive status =>
    some (hw.addStation i uapsdTids tdlsActive status)
  | .smConnectInd i vif status tdls => some (hw.smConnectInd i vif status tdls)
  | .txqUnkVifInit vif => some (hw.txqUnkVifInit vif)
  | .txqOffchanInit => some hw.txqOffchanInit
  | .txqVifDeinit vif => some (hw.txqVifDeinit vif)
  | .txqStaDeinit s => some (hw.txqStaDeinit s)
  | .txqDeinit k => some (hw.txqDeinit k)
  | .txqStart k reason => hw.txqStart k reason
  | .txqStop k reason => some (hw.txqStop k reason)
  | .xmit d mgmt mesh => hw.xmit d.txq d.station mgmt mesh
  | .hwqProcess q => hw.hwqProcess q
  | .hwqProcessAll => hw.hwqProcessAll
  | .txdatacfm i busDown retry => hw.txdatacfm i busDown retry
  | .txqCreditUpdate s tid => hw.txqCreditUpdate s tid
  | .psBhEnable s enable => hw.psBhEnable s enable
  | .psBhTrafficReq s req p => hw.psBhTrafficReq s req p

end AIC.TxqMachine
