import Aic8800.RxDataAccess

/-!
# Messages from the firmware

`rwnx_rx_handle_msg`: the tables of handlers by task and message number, and
the handlers reduced to the accesses whose index they take from the message.
The parameters of a message are bytes, read where `lmac_msg.h` puts the fields.
An entry whose address is only formed is accessed where it is used or kept.
-/

set_option autoImplicit false

namespace AIC.MsgRx
open Lib.TableAccess
open AIC.RxDataInd (NlIftype NX_VIRT_DEV_MAX)
open AIC.RxDataAccess (NX_REMOTE_STA_MAX)

def NX_CHAN_CTXT_CNT : ℕ := 3
def MAC_DOMAINCHANNEL_24G_MAX : ℕ := 14
def MAC_DOMAINCHANNEL_5G_MAX : ℕ := 28
def SCAN_CHANNEL_MAX : ℕ := MAC_DOMAINCHANNEL_24G_MAX+MAC_DOMAINCHANNEL_5G_MAX
def RWNX_INVALID_VIF : ℕ := 0xFF

structure IpcE2aMsg where
  id : UInt16
  param : ℕ → UInt8

namespace IpcE2aMsg
variable (m : IpcE2aMsg)

def msgT : ℕ := m.id.toNat >>> 10
def msgI : ℕ := m.id.toNat &&& 0x3FF
def u8 (off : ℕ) : ℕ := (m.param off).toNat
def u16 (off : ℕ) : ℕ := m.u8 off+256*m.u8 (off+1)
def flag (off : ℕ) : Bool := m.param off != 0

end IpcE2aMsg

/-! ## The handlers and their tables -/

inductive Handler where
  | chanSwitchInd | chanPreSwitchInd | remainOnChannelExpInd | psChangeInd | trafficReqInd
  | p2pVifPsChangeInd | csaCounterInd | csaFinishInd | csaTrafficInd | channelSurveyInd
  | p2pNoaUpdInd | rssiStatusInd | pktlossNotifyInd | apmStalossInd
  | dbgErrorInd
  | tdlsChanSwitchCfm | tdlsChanSwitchInd | tdlsChanSwitchBaseInd | tdlsPeerPsInd
  | scanuStartCfm | scanuResultInd
  | meTkipMicFailureInd | meTxCreditsUpdateInd
  | smConnectInd | smDisconnectInd | smExternalAuthRequiredInd
  | meshPathCreateCfm | meshPeerUpdateInd | meshPathUpdateInd | meshProxyUpdateInd
  deriving DecidableEq

abbrev Hdlrs := List (Option Handler)

/-- An array of `n` entries with designated initializers. -/
def hdlrs (n : ℕ) (entries : List (ℕ × Handler)) : Hdlrs :=
  (List.range n).map fun i => entries.lookup i

def mmHdlrs : Hdlrs := hdlrs 135
  [(68, .chanSwitchInd), (69, .chanPreSwitchInd), (72, .remainOnChannelExpInd),
    (73, .psChangeInd), (74, .trafficReqInd), (77, .p2pVifPsChangeInd), (78, .csaCounterInd),
    (88, .csaFinishInd), (89, .csaTrafficInd), (79, .channelSurveyInd), (85, .p2pNoaUpdInd),
    (87, .rssiStatusInd), (96, .pktlossNotifyInd), (125, .apmStalossInd)]

def dbgHdlrs : Hdlrs := hdlrs 33 [(8, .dbgErrorInd)]

def tdlsHdlrs : Hdlrs := hdlrs 9
  [(1, .tdlsChanSwitchCfm), (2, .tdlsChanSwitchInd), (3, .tdlsChanSwitchBaseInd),
    (6, .tdlsPeerPsInd)]

def scanHdlrs : Hdlrs := hdlrs 12 [(1, .scanuStartCfm), (4, .scanuResultInd)]

def meHdlrs : Hdlrs := hdlrs 23 [(6, .meTkipMicFailureInd), (11, .meTxCreditsUpdateInd)]

def smHdlrs : Hdlrs := hdlrs 13
  [(2, .smConnectInd), (5, .smDisconnectInd), (6, .smExternalAuthRequiredInd)]

def apmHdlrs : Hdlrs := hdlrs 10 []

def meshHdlrs : Hdlrs := hdlrs 16
  [(9, .meshPathCreateCfm), (13, .meshPeerUpdateInd), (14, .meshPathUpdateInd),
    (15, .meshProxyUpdateInd)]

/-- By task. `TASK_SCAN` and `TASK_BAM` have a NULL entry. -/
def msgHdlrs : List (Option Hdlrs) :=
  [some mmHdlrs, some dbgHdlrs, none, some tdlsHdlrs, some scanHdlrs, some meHdlrs, some smHdlrs,
    some apmHdlrs, none, some meshHdlrs]

/-- What indexes are used on. There is nothing behind a NULL entry of `msg_hdlrs`. -/
inductive Table where
  | msgHdlrs
  | hdlrs (task : ℕ)
  | survey | vifTable | staTable | chanctxTable
  deriving DecidableEq

def taskHdlrs (task : ℕ) : Hdlrs := (msgHdlrs[task]?.bind id).getD []

def Table.size : Table → ℕ
  | .msgHdlrs => MsgRx.msgHdlrs.length
  | .hdlrs task => (taskHdlrs task).length
  | .survey => SCAN_CHANNEL_MAX
  | .vifTable => NX_VIRT_DEV_MAX+NX_REMOTE_STA_MAX
  | .staTable => NX_REMOTE_STA_MAX+NX_VIRT_DEV_MAX
  | .chanctxTable => NX_CHAN_CTXT_CNT

abbrev Accesses := List (Table × ℕ)

def dispatchAccess (m : IpcE2aMsg) : Accesses := [(.msgHdlrs, m.msgT), (.hdlrs m.msgT, m.msgI)]

/-- The handler of the message; without one `cmd_mgr_run_callback` does nothing. -/
def handlerOf (m : IpcE2aMsg) : Option Handler := ((taskHdlrs m.msgT)[m.msgI]?).bind id

/-! ## What the handlers access -/

structure Vif where
  vifIndex : ℕ
  iftype : NlIftype
  chIndex : ℕ
  userMpm : Bool
  mpathList : List ℕ

/-- `bands` has the centre frequencies of the channels of each band, `vifs` the interfaces on the
list. -/
structure Hw where
  bands : List (Option (List ℕ))
  vifTable : ℕ → Option Vif
  vifs : List Vif
  curChanctx : ℕ
  monitorVif : ℕ

def channels (hw : Hw) : List ℕ := (hw.bands.filterMap id).flatten

def rwnx2ghzChannels : List ℕ :=
  [2412, 2417, 2422, 2427, 2432, 2437, 2442, 2447, 2452, 2457, 2462, 2467, 2472, 2484, 2390, 2400,
    2410, 2420, 2430, 2440, 2450, 2460, 2470, 2480, 2490, 2500, 2510]

def rwnx5ghzChannels : List ℕ :=
  [5180, 5200, 5220, 5240, 5260, 5280, 5300, 5320, 5500, 5520, 5540, 5560, 5580, 5600, 5620, 5640,
    5660, 5680, 5700, 5720, 5745, 5765, 5785, 5805, 5825, 5190, 5210, 5230, 5250, 5270, 5290,
    5310, 5330, 5340, 5350, 5360, 5370, 5380, 5390, 5400, 5410, 5420, 5430, 5440, 5450, 5460,
    5470, 5480, 5490, 5510, 5530, 5550, 5570, 5590, 5610, 5630, 5650, 5670, 5690, 5710, 5730,
    5750, 5760, 5770, 5780, 5790, 5800, 5810, 5820, 5830, 5840, 5850, 5860, 5870, 5880, 5890,
    5900, 5910, 5920, 5930, 5940, 5950, 5960, 5970]

/-- The extra channels at the end of the lists count only with `custchan`. -/
def wiphyBands (custchan band5gSupport : Bool) : List (Option (List ℕ)) :=
  [some (if custchan then rwnx2ghzChannels else rwnx2ghzChannels.take (27-13)),
    if band5gSupport then
      some (if custchan then rwnx5ghzChannels else rwnx5ghzChannels.take (84-59))
    else none,
    none]

/-- `none`: BUG. -/
def freqToIdx (hw : Hw) (freq : ℕ) : Option ℕ := (channels hw).findIdx? (· == freq)

/-- `rwnx_chanctx_link` and the radar detection of the current channel look at the index first. -/
def chanctxAccess (chIdx : ℕ) : Accesses :=
  if NX_CHAN_CTXT_CNT ≤ chIdx then [] else [(.chanctxTable, chIdx)]

def channelSurveyAccess (hw : Hw) (freq : ℕ) : Accesses :=
  match freqToIdx hw freq with
  | none => []
  | some idx => if SCAN_CHANNEL_MAX < idx then [] else [(.survey, idx)]

def psChangeAccess (staIdx : ℕ) : Accesses :=
  if NX_REMOTE_STA_MAX+NX_VIRT_DEV_MAX ≤ staIdx then [] else [(.staTable, staIdx)]

def csaFinishAccess (hw : Hw) (vifIdx status chanIdx : ℕ) : Accesses :=
  match hw.vifs.find? (fun vif => vif.vifIndex == vifIdx) with
  | none => []
  | some vif =>
    if vif.iftype = .ap ∨ vif.iftype = .p2pGo ∨ status ≠ 0 then []
    else chanctxAccess chanIdx++if hw.curChanctx = chanIdx then chanctxAccess chanIdx else []

/-- Without an interface its device is looked up through NULL. -/
def smConnectAccess (hw : Hw) (statusCode vifIdx apIdx chIdx : ℕ) (roamed : Bool) : Accesses :=
  (.vifTable, vifIdx)::
    match hw.vifTable vifIdx with
    | none => []
    | some vif =>
      if statusCode = 0 then
        (.staTable, apIdx)::chanctxAccess chIdx++
          (if hw.monitorVif ≠ RWNX_INVALID_VIF then chanctxAccess chIdx else [])++
          if roamed then chanctxAccess (if NX_CHAN_CTXT_CNT ≤ chIdx then vif.chIndex else chIdx)
          else []
      else []

def meshPeerUpdateAccess (hw : Hw) (estab : Bool) (vifIdx staIdx : ℕ) : Accesses :=
  (.vifTable, vifIdx)::
    if NX_VIRT_DEV_MAX+NX_REMOTE_STA_MAX ≤ vifIdx ∨ NX_REMOTE_STA_MAX ≤ staIdx then []
    else
      match hw.vifTable vifIdx with
      | none => []
      | some vif =>
        if vif.iftype ≠ .meshPoint ∨ vif.userMpm ∧ estab then [] else [(.staTable, staIdx)]

/-- A path that is new or already listed keeps the address of its next hop. -/
def meshPathUpdateAccess (hw : Hw) (kmalloc delete : Bool) (vifIdx pathIdx nhopStaIdx : ℕ) :
    Accesses :=
  (.vifTable, vifIdx)::
    if NX_VIRT_DEV_MAX+NX_REMOTE_STA_MAX ≤ vifIdx then []
    else
      match hw.vifTable vifIdx with
      | none => []
      | some vif =>
        if vif.iftype ≠ .meshPoint ∨ delete then []
        else if pathIdx ∈ vif.mpathList ∨ kmalloc then [(.staTable, nhopStaIdx)] else []

def Handler.access (hw : Hw) (kmalloc : Bool) (m : IpcE2aMsg) : Handler → Accesses
  | .chanSwitchInd => chanctxAccess (m.u8 0)
  | .psChangeInd => psChangeAccess (m.u8 0)
  | .trafficReqInd => [(.staTable, m.u8 0)]
  | .p2pVifPsChangeInd => [(.vifTable, m.u8 0)]
  | .csaFinishInd => csaFinishAccess hw (m.u8 0) (m.u8 1) (m.u8 2)
  | .channelSurveyInd => channelSurveyAccess hw (m.u16 0)
  | .rssiStatusInd => [(.vifTable, m.u8 0)]
  | .pktlossNotifyInd => [(.vifTable, m.u8 0)]
  | .meTkipMicFailureInd => [(.vifTable, m.u8 18)]
  | .meTxCreditsUpdateInd => [(.staTable, m.u8 0)]
  | .smConnectInd => smConnectAccess hw (m.u16 0) (m.u8 9) (m.u8 10) (m.u8 11) (m.flag 8)
  | .smDisconnectInd => [(.vifTable, m.u8 2)]
  | .smExternalAuthRequiredInd => [(.vifTable, m.u8 0)]
  | .meshPathCreateCfm => [(.vifTable, m.u8 1)]
  | .meshPeerUpdateInd => meshPeerUpdateAccess hw (m.flag 0) (m.u8 1) (m.u8 2)
  | .meshPathUpdateInd =>
    meshPathUpdateAccess hw kmalloc (m.flag 0) (m.u8 2) (m.u8 3) (m.u8 16)
  | .meshProxyUpdateInd => [(.vifTable, m.u8 2)]
  -- they go through the list of interfaces, or have no index at all
  | .chanPreSwitchInd | .remainOnChannelExpInd | .csaCounterInd | .csaTrafficInd
  | .p2pNoaUpdInd | .apmStalossInd | .dbgErrorInd | .tdlsChanSwitchCfm | .tdlsChanSwitchInd
  | .tdlsChanSwitchBaseInd | .tdlsPeerPsInd | .scanuStartCfm | .scanuResultInd => []

/-- The subject of an indication. -/
inductive Group where
  | scan | ps | traffic | channel | connection | mesh | other
  deriving DecidableEq

def Handler.group : Handler → Group
  | .scanuStartCfm | .scanuResultInd | .channelSurveyInd => .scan
  | .psChangeInd | .p2pVifPsChangeInd | .tdlsPeerPsInd => .ps
  | .trafficReqInd => .traffic
  | .chanSwitchInd | .chanPreSwitchInd | .remainOnChannelExpInd | .csaCounterInd | .csaFinishInd
  | .csaTrafficInd | .tdlsChanSwitchCfm | .tdlsChanSwitchInd | .tdlsChanSwitchBaseInd => .channel
  | .smConnectInd | .smDisconnectInd | .smExternalAuthRequiredInd => .connection
  | .meshPathCreateCfm | .meshPeerUpdateInd | .meshPathUpdateInd | .meshProxyUpdateInd => .mesh
  | .p2pNoaUpdInd | .rssiStatusInd | .pktlossNotifyInd | .apmStalossInd | .dbgErrorInd
  | .meTkipMicFailureInd | .meTxCreditsUpdateInd => .other

end AIC.MsgRx
