import Aic8800.ChannelContext

/-!
# The handlers that link and unlink

A request of cfg80211 holds `rtnl` from its call to its return, so there is at
most one of them. Where it waits for the firmware, the indications and the two
work items run. A request that touches nothing before its confirmation is one
step, taken at the confirmation.
-/

set_option autoImplicit false

namespace AIC.ChannelMachine
open AIC.ChannelContext

def CO_OK : ℕ := 0

section
variable (hw : Hw)

/-! ## Indications -/

/-- A monitor interface goes where the station goes. -/
def rxSmConnectInd (v : VifId) (statusCode chIdx : ℕ) (chandef : Chandef) : Hw :=
  if statusCode = 0 then
    let hw := hw.rwnxChanctxLink v chIdx (some chandef)
    match hw.monitorVif with
    | some m => (hw.rwnxChanctxUnlink m).rwnxChanctxLink m chIdx none
    | none => hw
  else hw

def rxSmDisconnectInd (v : VifId) : Hw := hw.rwnxChanctxUnlink v

/-- Only a first peer link, and one of the firmware's own peering, links the interface. -/
def rxMeshPeerUpdateInd (v : VifId) (staIdx : ℕ) (estab : Bool) : Hw :=
  if (hw.vif v).iftype ≠ .meshPoint ∨ NX_REMOTE_STA_MAX ≤ staIdx then hw
  else if (hw.vif v).userMpm = false ∧ estab = true then
    if hw.staValid staIdx then hw
    else { hw.rwnxChanctxLink v (hw.vif v).chIndex none with
      staValid := Function.update hw.staValid staIdx true }
  else if estab then hw
  else { hw with staValid := Function.update hw.staValid staIdx false }

def relink (v : VifId) (chIdx : ℕ) (chandef : Option Chandef) : Hw :=
  let hw := (hw.rwnxChanctxUnlink v).rwnxChanctxLink v chIdx chandef
  if hw.curChanctx = chIdx then hw.radarDetectionEnableOnCurChannel else hw

/-- For an access point the indication only schedules `rwnx_csa_finish`. -/
def rxCsaFinishInd (v : VifId) (status chIdx : ℕ) : Hw :=
  if (hw.vif v).iftype = .ap ∨ (hw.vif v).iftype = .p2pGo then hw
  else if status = 0 then relink hw v chIdx none
  else hw

/-- `sent`: the indication was good and both beacon requests were. -/
def rwnxCsaFinish (v : VifId) (sent : Bool) (chIdx : ℕ) (chandef : Chandef) : Hw :=
  if sent then relink hw v chIdx (some chandef) else hw

def rxChanSwitchInd (chanIdx : ℕ) : Hw :=
  { hw with curChanctx := chanIdx }.radarDetectionEnableOnCurChannel

/-! ## Requests -/

def openVif (v : VifId) : Hw :=
  if (hw.vif v).iftype = .monitor then { hw with monitorVif := some v } else hw

def startApCfm (v : VifId) (status chIdx : ℕ) (chandef : Chandef) : Hw :=
  if status = CO_OK then
    let hw := hw.rwnxChanctxLink v chIdx (some chandef)
    if hw.curChanctx = chIdx then hw.radarDetectionEnableOnCurChannel else hw
  else hw

def joinMeshCfm (v : VifId) (status chIdx : ℕ) (chandef : Chandef) (userMpm : Bool) : Hw :=
  if status = CO_OK then
    let hw := (hw.setVif v { hw.vif v with userMpm := userMpm }).rwnxChanctxLink v chIdx
      (some chandef)
    if hw.curChanctx = chIdx then hw.radarDetectionEnableOnCurChannel else hw
  else hw

def setMonitorChannel (chandef : Option Chandef) : Hw :=
  match hw.monitorVif with
  | none => hw
  | some m =>
    let i := (hw.vif m).chIndex
    if hw.rwnxChanctxValid i ∧ chandef = some (hw.chanctxTable i).chanDef then hw
    else { hw with rtnl := .monitor m }

/-- `cfm` is missing when the request was not allocated; `busy`: `1 < vif_started`. -/
def monitorCfm (m : VifId) (cfm : Option (ℕ × Chandef)) (busy : Bool) : Hw :=
  let hw : Hw := { hw with rtnl := .idle }
  match cfm with
  | none => hw
  | some (chanIndex, chandef) =>
    let hw := hw.rwnxChanctxUnlink m
    if chanIndex = RWNX_CH_NOT_SET then hw
    else hw.rwnxChanctxLink m chanIndex (if busy then none else some chandef)

/-! ## The channel availability check -/

/-- `schedule_delayed_work` leaves a timer that runs as it is. -/
def startRadarDetection (v : VifId) (chandef : Chandef) : Hw :=
  { hw with
    cacVif := some v
    timer := hw.timer.or (some v)
    rtnl := .startCac v chandef }

def cacPending (v : VifId) : Bool :=
  decide (hw.cacVif = some v) || decide (hw.timer = some v) ||
    decide (hw.work.map Prod.fst = some v)

/-- The confirmation is on the stack and holds anything when the request was not sent. -/
def startCacCfm (v : VifId) (chandef : Chandef) (status chIdx : ℕ) : Hw :=
  let hw : Hw := { hw with rtnl := .idle }
  if status = CO_OK then
    let hw := hw.rwnxChanctxLink v chIdx (some chandef)
    { hw.note (.started v) with
      detect := if hw.curChanctx = (hw.vif v).chIndex then .report else hw.detect }
  else hw.note (.failed v (cacPending hw v))

/-- The context of the interface is read for the event. -/
def useCtxt (v : VifId) : Hw :=
  { hw with outside := hw.outside || decide (NX_CHAN_CTXT_CNT ≤ (hw.vif v).chIndex) }

def cacUnlink (v : VifId) : Hw :=
  let t := hw.rwnxChanctxUnlink v
  if (hw.vif v).chIndex = RWNX_CH_NOT_SET then t else t.note (.unlinked v)

/-- `rwnx_radar_cac_work`, from one read of `cac_vif` to the next. -/
def radarCacWork (v : VifId) (pc : CacPc) : Hw :=
  match pc, hw.cacVif with
  | .test, none => { hw with work := none }
  | .test, some _ => { hw with work := some (v, .event) }
  | .event, some u => { (useCtxt hw u).note (.finished u) with work := some (v, .stop) }
  | .stop, some u => { hw.note (.stopReq u) with work := some (v, .unlink) }
  | .unlink, some u => { cacUnlink hw u with work := some (v, .clear) }
  | .clear, _ => { hw with cacVif := none, work := none }
  | _, none => { hw with oops := true, work := none }

def afterCancel (u : VifId) (l : Leaver) : Hw :=
  match l with
  | .leaveMesh => { hw with rtnl := .idle }
  | .close | .stopAp => { hw with rtnl := .leaving u l }

/-- `rwnx_radar_cancel_cac` up to the wait. -/
def radarCancelCac (u : VifId) (l : Leaver) : Hw :=
  match hw.cacVif with
  | none => afterCancel hw u l
  | some v =>
    if hw.timer.isSome then
      { ((useCtxt hw v).note (.cancelled u v)).note (.stopReq v) with
        timer := none
        rtnl := .cancel u l }
    else afterCancel { hw with cacVif := none } u l

def cancelCfm (u : VifId) (l : Leaver) : Hw :=
  match hw.cacVif with
  | none => { hw with oops := true, rtnl := .idle }
  | some v => afterCancel { cacUnlink (hw.note (.aborted v)) v with cacVif := none } u l

def leaveMesh (v : VifId) (status : ℕ) : Hw :=
  if status = CO_OK then radarCancelCac (hw.rwnxChanctxUnlink v) v .leaveMesh else hw

/-- `rwnx_close` may return before its unlink, after a scan that cannot be cancelled. -/
def left (v : VifId) (l : Leaver) (early : Bool) : Hw :=
  let hw : Hw := { hw with rtnl := .idle }
  if early then hw
  else
    let hw := hw.rwnxChanctxUnlink v
    if l = .close ∧ (hw.vif v).iftype = .monitor then { hw with monitorVif := none } else hw

end

inductive Act where
  | connectInd (v : VifId) (statusCode chIdx : ℕ) (chandef : Chandef)
  | disconnectInd (v : VifId)
  | meshPeerUpdateInd (v : VifId) (staIdx : ℕ) (estab : Bool)
  | csaFinishInd (v : VifId) (status chIdx : ℕ)
  | csaFinish (v : VifId) (sent : Bool) (chIdx : ℕ) (chandef : Chandef)
  | chanSwitchInd (chanIdx : ℕ)
  | fire
  | work
  | openVif (v : VifId)
  | startApCfm (v : VifId) (status chIdx : ℕ) (chandef : Chandef)
  | joinMeshCfm (v : VifId) (status chIdx : ℕ) (chandef : Chandef) (userMpm : Bool)
  | setMonitorChannel (chandef : Option Chandef)
  | monitorCfm (cfm : Option (ℕ × Chandef)) (busy : Bool)
  | startRadarDetection (v : VifId) (chandef : Chandef)
  | startCacCfm (status chIdx : ℕ)
  | close (v : VifId)
  | stopAp (v : VifId)
  | leaveMesh (v : VifId) (status : ℕ)
  | cancelCfm
  | left (early : Bool)
  deriving DecidableEq

def request (hw : Hw) : Act → Option Hw
  | .openVif v => some (openVif hw v)
  | .startApCfm v status chIdx chandef => some (startApCfm hw v status chIdx chandef)
  | .joinMeshCfm v status chIdx chandef mpm => some (joinMeshCfm hw v status chIdx chandef mpm)
  | .setMonitorChannel chandef => some (setMonitorChannel hw chandef)
  | .startRadarDetection v chandef => some (startRadarDetection hw v chandef)
  | .close v => some (radarCancelCac hw v .close)
  | .stopAp v => some (radarCancelCac hw v .stopAp)
  | .leaveMesh v status => some (leaveMesh hw v status)
  | _ => none

/-- What waits for an answer goes on. -/
def resume (hw : Hw) : Act → Option Hw
  | .monitorCfm cfm busy =>
    match hw.rtnl with
    | .monitor m => some (monitorCfm hw m cfm busy)
    | _ => none
  | .startCacCfm status chIdx =>
    match hw.rtnl with
    | .startCac v chandef => some (startCacCfm hw v chandef status chIdx)
    | _ => none
  | .cancelCfm =>
    match hw.rtnl with
    | .cancel u l => some (cancelCfm hw u l)
    | _ => none
  | .left early =>
    match hw.rtnl with
    | .leaving v l => if early = true ∧ l ≠ .close then none else some (left hw v l early)
    | _ => none
  | _ => none

def step (hw : Hw) : Act → Option Hw
  | .connectInd v statusCode chIdx chandef => some (rxSmConnectInd hw v statusCode chIdx chandef)
  | .disconnectInd v => some (rxSmDisconnectInd hw v)
  | .meshPeerUpdateInd v staIdx estab => some (rxMeshPeerUpdateInd hw v staIdx estab)
  | .csaFinishInd v status chIdx => some (rxCsaFinishInd hw v status chIdx)
  | .csaFinish v sent chIdx chandef => some (rwnxCsaFinish hw v sent chIdx chandef)
  | .chanSwitchInd chanIdx => some (rxChanSwitchInd hw chanIdx)
  | .fire =>
    match hw.timer, hw.work with
    | some v, none => some { hw with timer := none, work := some (v, .test) }
    | _, _ => none
  | .work => hw.work.map fun w => radarCacWork hw w.1 w.2
  | .monitorCfm cfm busy => resume hw (.monitorCfm cfm busy)
  | .startCacCfm status chIdx => resume hw (.startCacCfm status chIdx)
  | .cancelCfm => resume hw .cancelCfm
  | .left early => resume hw (.left early)
  | a => if hw.rtnl = .idle then request hw a else none

end AIC.ChannelMachine
