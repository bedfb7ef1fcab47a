import Aic8800.KeyTable

/-!
# The connection of a station

`rwnx_cfg80211_connect` and `rwnx_cfg80211_disconnect` with the requests they send, the
indications about the connection, and what opening and closing the interface does to
it, for an interface of a station or of a P2P client. Requests are only made of an
interface that is open. An indication can come at any time, also between the two parts
of a close.
-/

set_option autoImplicit false

namespace AIC.Connection
open AIC.KeyTable (AddReply ENOMEM EINVAL WLAN_CIPHER_SUITE_WEP40 WLAN_CIPHER_SUITE_WEP104
  WLAN_CIPHER_SUITE_TKIP)
open AIC.MeshTables (MacAddr)

def CO_OK : ℕ := 0
def CO_BUSY : ℕ := 8
def CO_OP_IN_PROGRESS : ℕ := 9

def EIO : ℤ := 5
def EALREADY : ℤ := 114
def EINPROGRESS : ℤ := 115

def WLAN_STATUS_UNSPECIFIED_FAILURE : ℕ := 1
def WLAN_STATUS_NOT_SUPPORTED_AUTH_ALG : ℕ := 13

def NX_VIRT_DEV_MAX : ℕ := 4

/-- `enum mac_connection_flags` -/
def CONTROL_PORT_HOST : ℕ := 1
def CONTROL_PORT_NO_ENC : ℕ := 2
def DISABLE_HT : ℕ := 4
def WPA_WPA2_IN_USE : ℕ := 8
def MFP_IN_USE : ℕ := 16
def REASSOCIATION : ℕ := 32

/-- `drv_conn_state` -/
inductive Status where
  | disconnected | disconnecting | connecting | connected
  deriving DecidableEq

/-- `enum nl80211_auth_type` -/
inductive AuthType where
  | openSystem | sharedKey | ft | networkEap | sae | filsSk | filsSkPfs | filsPk | automatic
  deriving DecidableEq

structure Channel where
  band : ℕ
  centerFreq : ℕ

/-- `struct cfg80211_connect_params` -/
structure Sme where
  channel : Option Channel
  bssid : Option MacAddr
  ssid : List UInt8
  authType : AuthType
  ie : List UInt8
  externalAuthSupport : Bool
  mfpRequired : Bool
  cipherGroup : ℕ
  ciphersPairwise : List ℕ
  controlPort : Bool
  controlPortEthertype : ℕ
  controlPortNoEncrypt : Bool
  key : Option (List UInt8)
  keyIdx : ℕ

/-- `struct sm_connect_req` -/
structure SmConnectReq where
  ssid : List UInt8
  bssid : MacAddr
  band : ℕ
  freq : ℕ
  flags : ℕ
  ctrlPortEthertype : ℕ
  ie : List UInt8
  listenInterval : ℕ
  dontWaitBcmc : Bool
  authType : ℕ
  uapsdQueues : ℕ
  vifIdx : ℕ

inductive Msg where
  | smConnect (req : SmConnectReq)
  | smDisconnect (reason vifIdx : ℕ)
  | smExternalAuthRequiredRsp (status vifIdx : ℕ)

/-- What the requests read of `rwnx_mod_params`. -/
structure ModParams where
  listenItv : ℕ
  listenBcmc : Bool
  uapsdQueues : ℕ

/-- What comes of a request for a connection. `rwnx_send_msg` returns 0 whether or not the firmware
answers. `accepted` says that the firmware will tell how it ends, and `status` is what is read. -/
structure ConnectReply where
  key : AddReply
  alloc : Bool
  accepted : Bool
  status : ℕ

/-- `tabled` says that the interface is in `vif_table`, and `broken` that a NULL pointer was
followed. `sent` has what was given to `rwnx_send_msg`. The last ones are no data of the driver:
whether cfg80211 was told last that the interface is connected, whether the last disconnection was
one for a roaming, how many accepted requests have no indication yet, and whether the indication of
a disconnection is due. -/
structure State where
  keys : KeyTable.State
  vifIndex : ℕ
  up : Bool
  tabled : Bool
  drvConnState : Status
  ap : Option ℕ
  externalAuth : Bool
  wepEnabled : Bool
  wepAuthErr : Bool
  lastAuthType : AuthType
  carrier : Bool
  isP2pConnected : Bool
  sent : List Msg
  ret : ℤ
  broken : Bool
  told : Bool
  roaming : Bool
  pending : ℕ
  leaving : Bool

/-! ## Requests -/

def isWepSuite (cipher : ℕ) : Bool :=
  cipher = WLAN_CIPHER_SUITE_WEP40 || cipher = WLAN_CIPHER_SUITE_WEP104

/-- `is_wep` of `rwnx_cfg80211_connect` -/
def Sme.isWep (sme : Sme) : Bool :=
  isWepSuite sme.cipherGroup || isWepSuite (sme.ciphersPairwise.headD 0)

/-- The `auth_type` that a WEP connection is tried with. -/
def wepAuthType (wepEnabled wepAuthErr : Bool) (last asked : AuthType) : AuthType :=
  if asked = .automatic then
    if wepEnabled && wepAuthErr then
      if last = .sharedKey then .openSystem else .sharedKey
    else if wepEnabled && !wepAuthErr then last
    else .sharedKey
  else if wepEnabled && wepAuthErr && asked = last then
    if asked = .sharedKey then .openSystem
    else if asked = .openSystem then .sharedKey
    else asked
  else asked

/-- `WLAN_AUTH_OPEN` and so on. There is none for the types that cannot be sent. -/
def authAlg : AuthType → Option ℕ
  | .automatic => some 0
  | .openSystem => some 0
  | .sharedKey => some 1
  | .ft => some 2
  | .sae => some 3
  | _ => none

def connectionFlags (sme : Sme) (ap : Option ℕ) : ℕ :=
  let first := sme.ciphersPairwise.head?
  (if first.any fun c => isWepSuite c || c = WLAN_CIPHER_SUITE_TKIP then DISABLE_HT else 0)+
    (if sme.controlPort then CONTROL_PORT_HOST else 0)+
    (if sme.controlPortNoEncrypt then CONTROL_PORT_NO_ENC else 0)+
    (if !isWepSuite sme.cipherGroup then WPA_WPA2_IN_USE else 0)+
    (if sme.mfpRequired then MFP_IN_USE else 0)+
    (if ap.isSome then REASSOCIATION else 0)

def smConnectReq (params : ModParams) (sme : Sme) (ap : Option ℕ) (vifIndex authType : ℕ) :
    SmConnectReq where
  ssid := sme.ssid
  bssid := sme.bssid.getD (BitVec.allOnes 48)
  band := (sme.channel.map Channel.band).getD 0
  freq := (sme.channel.map Channel.centerFreq).getD 65535
  flags := connectionFlags sme ap
  ctrlPortEthertype := sme.controlPortEthertype
  ie := sme.ie
  listenInterval := params.listenItv
  dontWaitBcmc := !params.listenBcmc
  authType := authType
  uapsdQueues := params.uapsdQueues
  vifIdx := vifIndex

/-- What `rwnx_cfg80211_connect` makes of the status of the confirmation. -/
def connectError (status : ℕ) : ℤ :=
  if status = CO_OK then 0
  else if status = CO_BUSY then -EINPROGRESS
  else if status = CO_OP_IN_PROGRESS then -EALREADY
  else - EIO

section Calls

variable (params : ModParams) (vif : ℕ)

namespace State

/-- A message that there is memory for is given to `rwnx_send_msg`. -/
def send (s : State) (alloc : Bool) (msg : Msg) : State :=
  { s with sent := if alloc then msg::s.sent else s.sent }

/-- `rwnx_send_sm_connect_req`, with the value it returns -/
def sendSmConnectReq (s : State) (sme : Sme) (reply : ConnectReply) : ℤ × State :=
  let s := { s with wepEnabled := false, wepAuthErr := false, lastAuthType := .openSystem }
  if !reply.alloc then (-ENOMEM, s)
  else if 256 < sme.ie.length then (-EINVAL, s)
  else match authAlg sme.authType with
    | none => (-EINVAL, s)
    | some authType =>
      let wep := isWepSuite sme.cipherGroup && sme.ciphersPairwise.head?.any isWepSuite
      (0, { s with
        wepEnabled := wep
        lastAuthType := if wep then sme.authType else .openSystem
        sent := .smConnect (smConnectReq params sme s.ap s.vifIndex authType)::s.sent })

/-- What `rwnx_cfg80211_connect` does before the request. -/
def connectKeys (s : State) (sme : Sme) (reply : ConnectReply) : State :=
  let s := if sme.authType = .sharedKey then match sme.key with
      | some key =>
        { s with keys := s.keys.addKey vif sme.keyIdx false none ⟨key, sme.cipherGroup⟩ reply.key }
      | none => s
    else s
  let s := if s.keys.iftype vif = .p2pClient then { s with isP2pConnected := true } else s
  if s.keys.isSta vif then
    { s with keys := { s.keys with
        pairedCipherType := Function.update s.keys.pairedCipherType vif 0xff
        groupCipherType := Function.update s.keys.groupCipherType vif 0xff } }
  else s

/-- `rwnx_cfg80211_connect` from the key on -/
def connectWith (s : State) (sme : Sme) (reply : ConnectReply) : State :=
  if sme.authType = .sae ∧ sme.externalAuthSupport = false then { s with ret := -EINVAL }
  else
    let sent := (s.connectKeys vif sme reply).sendSmConnectReq params sme reply
    if sent.1 ≠ 0 then { sent.2 with ret := sent.1 }
    else { sent.2 with
      pending := if reply.accepted then sent.2.pending+1 else sent.2.pending
      ret := connectError reply.status }

/-- The parameters with the `auth_type` that is tried. -/
def tried (s : State) (sme : Sme) : Sme :=
  { sme with authType := if sme.isWep then
      wepAuthType s.wepEnabled s.wepAuthErr s.lastAuthType sme.authType
    else sme.authType }

/-- `rwnx_cfg80211_connect` -/
def connect (s : State) (sme : Sme) (reply : ConnectReply) : State :=
  if s.drvConnState = .disconnecting then { s with ret := -EALREADY }
  else
    { s with drvConnState := .connecting }.connectWith params vif (s.tried sme) reply

/-- `rwnx_cfg80211_disconnect` after its wait -/
def disconnect (s : State) (reason : ℕ) (alloc accepted : Bool) : State :=
  if s.drvConnState = .connected then
    { s.send alloc (.smDisconnect reason s.vifIndex) with
      drvConnState := .disconnecting
      keys := { s.keys with keyFlag := true }
      leaving := s.leaving || alloc && accepted
      ret := if alloc then 0 else -ENOMEM }
  else { s with drvConnState := .disconnected, told := false, ret := 0 }

/-! ## Indications -/

/-- What `rwnx_rx_sm_connect_ind` does for the status. -/
def takeStatus (s : State) (statusCode apIdx : ℕ) (bssid : MacAddr) : State :=
  if statusCode = 0 then
    { s with
      keys := { s.keys with sta := Function.update s.keys.sta apIdx (some bssid) }
      ap := some apIdx
      wepAuthErr := if s.wepEnabled then false else s.wepAuthErr
      drvConnState := .connected }
  else
    { s with
      wepAuthErr := if statusCode = WLAN_STATUS_NOT_SUPPORTED_AUTH_ALG ∧ s.wepEnabled = true then true
        else s.wepAuthErr
      drvConnState := .disconnected }

/-- `rwnx_rx_sm_connect_ind`. The carrier is on whatever the status is. -/
def rxSmConnectInd (s : State) (statusCode : ℕ) (roamed : Bool) (apIdx : ℕ) (bssid : MacAddr) :
    State :=
  let s := { s with pending := if roamed then s.pending else s.pending-1 }
  if !s.tabled then { s with broken := true }
  else { s.takeStatus statusCode apIdx bssid with
    told := statusCode = 0
    roaming := false
    carrier := true }

/-- What `rwnx_rx_sm_disconnect_ind` tells before it takes the access point away. -/
def tellDisconnect (s : State) (ftOverDs reassoc : Bool) : State :=
  let s := if s.keys.iftype vif = .p2pClient then { s with isP2pConnected := false } else s
  if s.up then
    { s with
      told := s.told && (ftOverDs || reassoc)
      roaming := ftOverDs || reassoc
      carrier := false }
  else s

/-- `rwnx_rx_sm_disconnect_ind` -/
def rxSmDisconnectInd (s : State) (ftOverDs reassoc : Bool) : State :=
  if !s.tabled then { s with leaving := false }
  else match s.ap with
    | none => { s with leaving := false, broken := true }
    | some i =>
      let s := { s with leaving := false }.tellDisconnect vif ftOverDs reassoc
      { s with
        keys := { s.keys with sta := Function.update s.keys.sta i none }
        ap := none
        externalAuth := false
        drvConnState := .disconnected }

/-- `rwnx_rx_sm_external_auth_required_ind`. `started` says that cfg80211 has taken the request. -/
def rxSmExternalAuthRequiredInd (s : State) (started alloc : Bool) : State :=
  if !s.tabled then { s with broken := true }
  else if NX_VIRT_DEV_MAX < s.vifIndex ∨ s.up = false ∨ s.keys.iftype vif ≠ .station ∨
      started = false then
    s.send alloc (.smExternalAuthRequiredRsp WLAN_STATUS_UNSPECIFIED_FAILURE s.vifIndex)
  else { s with externalAuth := true }

/-- `rwnx_cfg80211_external_auth` -/
def externalAuthDone (s : State) (status : ℕ) (alloc : Bool) : State :=
  if !s.externalAuth then { s with ret := -EINVAL }
  else { s.send alloc (.smExternalAuthRequiredRsp status s.vifIndex) with
    externalAuth := false
    ret := if alloc then 0 else -ENOMEM }

/-! ## The interface -/

/-- `rwnx_open` from the confirmation on. `first` says that no interface was open. -/
def rwnxOpen (s : State) (first : Bool) (instNbr : ℕ) : State :=
  { s with
    drvConnState := if first then .disconnected else s.drvConnState
    vifIndex := instNbr
    up := true
    tabled := true }

/-- `rwnx_close` up to the carrier -/
def closeCarrier (s : State) : State :=
  { s with
    up := false
    told := if s.carrier then false else s.told
    carrier := false }

/-- `rwnx_close` from the bus on. `queued` says that what the firmware has still to say about the
connection was already on its way. -/
def closeRemove (s : State) (busUp alloc queued : Bool) : State :=
  let s := if busUp ∧ s.drvConnState = .connecting then
      { s.send alloc (.smDisconnect 3 s.vifIndex) with drvConnState := .disconnected }
    else s
  { s with
    tabled := false
    pending := if queued then s.pending else 0
    leaving := s.leaving && queued }

end State

/-! ## Runs -/

inductive Act where
  | connect (sme : Sme) (reply : ConnectReply)
  | disconnect (reason : ℕ) (alloc accepted : Bool)
  | smConnectInd (statusCode : ℕ) (roamed : Bool) (apIdx : ℕ) (bssid : MacAddr)
  | smDisconnectInd (ftOverDs reassoc : Bool)
  | smExternalAuthRequiredInd (started alloc : Bool)
  | externalAuth (status : ℕ) (alloc : Bool)
  | rwnxOpen (first : Bool) (instNbr : ℕ)
  | closeCarrier
  | closeRemove (busUp alloc queued : Bool)

/-- When a request can be made, and that an indication of a connection that was asked for answers a
request. -/
def enabled (s : State) : Act → Bool
  | .connect _ _ => s.up
  | .disconnect _ _ _ => s.up
  | .smConnectInd _ roamed _ _ => roamed || 0 < s.pending
  | .externalAuth _ _ => s.up
  | .rwnxOpen _ _ => !s.up && !s.tabled
  | .closeCarrier => s.up
  | .closeRemove _ _ _ => !s.up && s.tabled
  | _ => true

def act (s : State) : Act → State
  | .connect sme reply => s.connect params vif sme reply
  | .disconnect reason alloc accepted => s.disconnect reason alloc accepted
  | .smConnectInd statusCode roamed apIdx bssid => s.rxSmConnectInd statusCode roamed apIdx bssid
  | .smDisconnectInd ftOverDs reassoc => s.rxSmDisconnectInd vif ftOverDs reassoc
  | .smExternalAuthRequiredInd started alloc => s.rxSmExternalAuthRequiredInd vif started alloc
  | .externalAuth status alloc => s.externalAuthDone status alloc
  | .rwnxOpen first instNbr => s.rwnxOpen first instNbr
  | .closeCarrier => s.closeCarrier
  | .closeRemove busUp alloc queued => s.closeRemove busUp alloc queued

def step (s : State) (a : Act) : Option State :=
  if enabled s a then some (act params vif s a) else none

def init (keys : KeyTable.State) : State where
  keys := keys
  vifIndex := 0
  up := false
  tabled := false
  drvConnState := .disconnected
  ap := none
  externalAuth := false
  wepEnabled := false
  wepAuthErr := false
  lastAuthType := .openSystem
  carrier := false
  isP2pConnected := false
  sent := []
  ret := 0
  broken := false
  told := false
  roaming := false
  pending := 0
  leaving := false

end Calls

end AIC.Connection
