import Aic8800.Lib.ReservedArea
import Mathlib.Algebra.Order.Ring.Nat

/-!
# The frames of TDLS

`rwnx_tdls_send_mgmt_packet_data` down to the frame it hands on: the allocation, the
header and fixed fields, and the information elements with each `skb_put` and each
byte that is written. `none` is `skb_over_panic` or a copy past what was reserved.
-/

set_option autoImplicit false

namespace AIC.TdlsFrame
open Lib.ReservedArea

abbrev Skb := Area UInt8

abbrev Bytes (n : ℕ) := {l : List UInt8 // l.length = n}

def le16 (n : ℕ) : List UInt8 := [UInt8.ofNat n, UInt8.ofNat (n/256)]

def le32 (n : ℕ) : List UInt8 := le16 n++le16 (n/65536)

def be16 (n : ℕ) : List UInt8 := [UInt8.ofNat (n/256), UInt8.ofNat n]

inductive Action where
  | setupRequest | setupResponse | setupConfirm | teardown | discoveryRequest | discoverRes
  | other (code : UInt8)
  deriving DecidableEq

def Action.code : Action → UInt8
  | .setupRequest => 0
  | .setupResponse => 1
  | .setupConfirm => 2
  | .teardown => 3
  | .discoveryRequest => 10
  | .discoverRes => 14
  | .other code => code

/-- `enum nl80211_band`, as far as the driver has bands. -/
inductive Band where
  | ghz2 | ghz5
  deriving DecidableEq

/-- `enum nl80211_chan_width`. -/
inductive ChanWidth where
  | w20NoHt | w20 | w40 | w80 | w80p80 | w160 | w5 | w10
  deriving DecidableEq

structure HtCap where
  htSupported : Bool
  cap : ℕ
  ampduFactor : ℕ
  ampduDensity : ℕ
  mcs : Bytes 16

structure VhtCap where
  vhtSupported : Bool
  cap : ℕ
  vhtMcs : Bytes 8

/-- `channels` are the centre frequencies, `n_channels` of them. -/
structure SupportedBand where
  channels : List ℕ
  htCap : HtCap
  vhtCap : VhtCap

structure Sta where
  valid : Bool
  band : Band
  width : ChanWidth
  centerFreq : ℕ
  centerFreq1 : ℕ
  centerFreq2 : ℕ
  qos : Bool
  acm : ℕ
  macAddr : Bytes 6
  ht : Bool
  vht : Bool
  acParam : Fin 4 → ℕ
  aid : ℕ

/-- `band5` is there if `band_5g_support` is set. The sum of the channels is an int. -/
structure Hw where
  permAddr : Bytes 6
  band2 : SupportedBand
  band5 : Option SupportedBand
  tdlsChannelSwitch : Bool
  mcsMap : ℕ
  staTable : List Sta
  channels_int : band2.channels.length+(band5.elim [] SupportedBand.channels).length < 2^31

def Hw.bands (hw : Hw) : Band → Option SupportedBand
  | .ghz2 => some hw.band2
  | .ghz5 => hw.band5

def Hw.channels5 (hw : Hw) : List ℕ := hw.band5.elim [] SupportedBand.channels

/-- The interface, whose access point is on a band of the device. -/
structure Vif (hw : Hw) where
  ap : Sta
  on_band : (hw.bands ap.band).isSome

def Vif.sband {hw : Hw} (vif : Vif hw) : SupportedBand := (hw.bands vif.ap.band).get vif.on_band

def Hw.getSta (hw : Hw) (mac : Bytes 6) : Option Sta :=
  hw.staTable.find? fun sta => sta.valid && sta.macAddr == mac

structure ChanDef where
  band : Band
  centerFreq : ℕ
  width : ChanWidth
  centerFreq1 : ℕ
  centerFreq2 : ℕ

/-- What the frames take from cfg80211. -/
structure Cfg80211 where
  frequencyToChannel : ℕ → ℕ
  chandefToOperatingClass : ChanDef → Option UInt8

def WLAN_EID_SUPP_RATES : UInt8 := 1
def WLAN_EID_SUPPORTED_CHANNELS : UInt8 := 36
def WLAN_EID_HT_CAPABILITY : UInt8 := 45
def WLAN_EID_EXT_SUPP_RATES : UInt8 := 50
def WLAN_EID_SUPPORTED_REGULATORY_CLASSES : UInt8 := 59
def WLAN_EID_HT_OPERATION : UInt8 := 61
def WLAN_EID_BSS_COEX_2040 : UInt8 := 72
def WLAN_EID_LINK_ID : UInt8 := 101
def WLAN_EID_EXT_CAPABILITY : UInt8 := 127
def WLAN_EID_VHT_CAPABILITY : UInt8 := 191
def WLAN_EID_VHT_OPERATION : UInt8 := 192
def WLAN_EID_AID : UInt8 := 197
def WLAN_EID_VENDOR_SPECIFIC : UInt8 := 221

def IEEE80211_HT_CAP_SUP_WIDTH_20_40 : ℕ := 0x0002

/-- The bitrates of the 2.4 GHz band, in 100 kbit/s. -/
def rwnxRatetable : List ℕ := [10, 20, 55, 110, 60, 90, 120, 180, 240, 360, 480, 540]

/-! ## The elements -/

section elements
variable (k : Cfg80211) (hw : Hw) (vif : Vif hw) (skb : Skb)

def rateByte (bitrate : ℕ) : UInt8 := UInt8.ofNat ((bitrate+4)/5)

def sratesIe : List UInt8 := WLAN_EID_SUPP_RATES::8::(rwnxRatetable.take 8).map rateByte

def addSratesIe : Option Skb :=
  if skb.tailroom < 8+2 then pure skb else fill (8+2) sratesIe skb

def exrates : ℕ := rwnxRatetable.length-8

def extSratesIe : List UInt8 :=
  WLAN_EID_EXT_SUPP_RATES::UInt8.ofNat exrates::(rwnxRatetable.drop 8).map rateByte

def addExtSratesIe : Option Skb :=
  if skb.tailroom < exrates+2 then pure skb else fill (exrates+2) extSratesIe skb

/-- The first channel of a band and their number. -/
def subband (channels : List ℕ) : List UInt8 :=
  [UInt8.ofNat (k.frequencyToChannel (channels.headD 0)), UInt8.ofNat channels.length]

def subbandCnt : ℕ :=
  (if 0 < hw.band2.channels.length then 1 else 0)+if 0 < hw.channels5.length then 1 else 0

/-- Two bytes for a band, which are written if the band has channels. -/
def addSubband (channels : List ℕ) : Option Skb := do
  let reserved ← put 2 skb
  if 0 < channels.length then poke skb.len (subband k channels) reserved else pure reserved

def tdlsAddSuppChannels : Option Skb := do
  let head ← fill 2 [WLAN_EID_SUPPORTED_CHANNELS] skb
  let first ← addSubband k head hw.band2.channels
  let second ← addSubband k first hw.channels5
  poke (skb.len+1) [UInt8.ofNat (2*subbandCnt hw)] second

def extCapab : List UInt8 :=
  [WLAN_EID_EXT_CAPABILITY, 5, 0, 0, 0,
    UInt8.ofNat ((1 <<< 4) ||| (if hw.tdlsChannelSwitch then 1 <<< 6 else 0)),
    UInt8.ofNat (1 <<< 5)]

def tdlsAddExtCapab : Option Skb := fill 7 (extCapab hw) skb

def wmmInfoIe (qosinfo : UInt8) : List UInt8 :=
  [WLAN_EID_VENDOR_SPECIFIC, 7, 0x00, 0x50, 0xf2, 2, 0, 1, qosinfo]

def addWmmInfoIe (qosinfo : UInt8) : Option Skb := fill 9 (wmmInfoIe qosinfo) skb

/-- AC_BK, AC_BE, AC_VI and AC_VO are 0 to 3. -/
def acFromWmm : Fin 4 → Fin 4
  | ⟨0, _⟩ => ⟨1, by decide⟩
  | ⟨1, _⟩ => ⟨0, by decide⟩
  | i => i

def wmmAc (acm : ℕ) (acParams : Fin 4 → ℕ) (i : Fin 4) : List UInt8 :=
  let j := acFromWmm i
  let cwMin := (acParams j &&& 0xF0) >>> 4
  let cwMax := (acParams j &&& 0xF00) >>> 8
  let acmBit := if acm.testBit j then 1 <<< 4 else 0
  [UInt8.ofNat ((i.val <<< 5) ||| acmBit ||| (acParams j &&& 0xF)),
    UInt8.ofNat ((cwMax <<< 4) ||| cwMin)]++le16 ((acParams j &&& 0x0FFFF000) >>> 12)

def wmmParamIe (acm : ℕ) (acParams : Fin 4 → ℕ) : List UInt8 :=
  [WLAN_EID_VENDOR_SPECIFIC, 24, 0x00, 0x50, 0xf2, 2, 1, 1, 0, 0]++
    (List.finRange 4).flatMap (wmmAc acm acParams)

def addWmmParamIe (acm : ℕ) (acParams : Fin 4 → ℕ) : Option Skb :=
  fill 26 (wmmParamIe acm acParams) skb

def operClasses (opClass : UInt8) : List UInt8 :=
  [WLAN_EID_SUPPORTED_REGULATORY_CLASSES, 2, opClass, opClass]

def opClass : Option UInt8 :=
  k.chandefToOperatingClass
    ⟨vif.ap.band, vif.ap.centerFreq, vif.ap.width, vif.ap.centerFreq1, vif.ap.centerFreq2⟩

def tdlsAddOperClasses : Option Skb :=
  match opClass k hw vif with
  | none => pure skb
  | some opClass => fill 4 (operClasses opClass) skb

def htCapIe (htCap : HtCap) : List UInt8 :=
  WLAN_EID_HT_CAPABILITY::26::(le16 htCap.cap++
    [UInt8.ofNat (htCap.ampduFactor ||| (htCap.ampduDensity <<< 2))]++htCap.mcs.val++
    [0, 0]++[0, 0, 0, 0]++[0])

def ieBuildHtCap (htCap : HtCap) : Option Skb := fill (26+2) (htCapIe htCap) skb

def vhtCapIe (vhtCap : VhtCap) : List UInt8 :=
  WLAN_EID_VHT_CAPABILITY::12::(le32 vhtCap.cap++vhtCap.vhtMcs.val)

def ieBuildVhtCap (vhtCap : VhtCap) : Option Skb := fill 14 (vhtCapIe vhtCap) skb

def bssCoexIe : List UInt8 := [WLAN_EID_BSS_COEX_2040, 1, 1]

def tdlsAddBssCoexIe : Option Skb := fill 3 bssCoexIe skb

def linkIe (peer : Bytes 6) (initiator : Bool) : List UInt8 :=
  let initAddr := if initiator then hw.permAddr else peer
  let rspAddr := if initiator then peer else hw.permAddr
  WLAN_EID_LINK_ID::18::(vif.ap.macAddr.val++initAddr.val++rspAddr.val)

def tdlsAddLinkIe (peer : Bytes 6) (initiator : Bool) : Option Skb :=
  fill 20 (linkIe hw vif peer initiator) skb

/-- The element as far as it is written. -/
def aidIe : List UInt8 := [WLAN_EID_AID, 2, UInt8.ofNat vif.ap.aid]

def tdlsAddAidIe : Option Skb := fill 4 (aidIe hw vif) skb

def secondaryChannel : UInt8 :=
  match vif.ap.width with
  | .w160 | .w80p80 | .w80 | .w40 => if vif.ap.centerFreq1 > vif.ap.centerFreq then 1 else 3
  | _ => 0

def htOperIe (htCap : HtCap) (protMode : ℕ) : List UInt8 :=
  let wide := htCap.cap &&& IEEE80211_HT_CAP_SUP_WIDTH_20_40 ≠ 0 ∧ vif.ap.width ≠ .w20NoHt ∧
    vif.ap.width ≠ .w20
  [WLAN_EID_HT_OPERATION, 22, UInt8.ofNat (k.frequencyToChannel vif.ap.centerFreq),
    secondaryChannel hw vif ||| (if wide then 4 else 0)]++le16 protMode++le16 0++
    htCap.mcs.val.take 10++List.replicate 6 0

/-- `chan_width` and the two centre frequency segments. -/
def vhtSegments : List UInt8 :=
  match vif.ap.width with
  | .w80 => [1, UInt8.ofNat (k.frequencyToChannel vif.ap.centerFreq), 0]
  | .w160 => [2, UInt8.ofNat (k.frequencyToChannel vif.ap.centerFreq), 0]
  | .w80p80 => [3, UInt8.ofNat (k.frequencyToChannel vif.ap.centerFreq1),
      UInt8.ofNat (k.frequencyToChannel vif.ap.centerFreq2)]
  | _ => [0, 0, 0]

def vhtOperIe : List UInt8 :=
  [WLAN_EID_VHT_OPERATION, 5]++vhtSegments k hw vif++le16 hw.mcsMap

/-- `skb_put` takes an unsigned int, `memcpy` a size. -/
def addExtraIes (extra : List UInt8) : Option Skb :=
  if extra.length ≠ 0 then fill (extra.length % 2^32) extra skb else pure skb

end elements

/-! ## The frame -/

section frame
variable (k : Cfg80211) (hw : Hw) (vif : Vif hw) (peer : Bytes 6)

def isSetupOrDiscoverRes : Action → Bool
  | .setupRequest | .setupResponse | .discoverRes => true
  | _ => false

/-- The two elements of a station with VHT. -/
def tdlsAddVhtIes (skb : Skb) : Option Skb := do
  let skb ← tdlsAddAidIe hw vif skb
  ieBuildVhtCap skb vif.sband.vhtCap

def tdlsAddSetupStartIes (action : Action) (initiator : Bool) (extra : List UInt8) (skb : Skb) :
    Option Skb := do
  let htCap := vif.sband.htCap
  let vhtCap := vif.sband.vhtCap
  let skb ← addSratesIe skb
  let skb ← addExtSratesIe skb
  let skb ← tdlsAddSuppChannels k hw skb
  let skb ← tdlsAddExtCapab hw skb
  let skb ← (if action ≠ .discoverRes then addWmmInfoIe skb 0 else pure skb)
  let skb ← tdlsAddOperClasses k hw vif skb
  let skb ← (if isSetupOrDiscoverRes action ∧ htCap.htSupported then ieBuildHtCap skb htCap
    else pure skb)
  let skb ← (if htCap.htSupported ∧ htCap.cap &&& IEEE80211_HT_CAP_SUP_WIDTH_20_40 ≠ 0 then
      tdlsAddBssCoexIe skb
    else pure skb)
  let skb ← tdlsAddLinkIe hw vif skb peer initiator
  let skb ← (if vhtCap.vhtSupported then tdlsAddVhtIes hw vif skb else pure skb)
  addExtraIes skb extra

def tdlsAddSetupCfmIes (initiator : Bool) (extra : List UInt8) (skb : Skb) : Option Skb :=
  match hw.getSta peer with
  | none => pure skb
  | some sta => do
    let htCap := vif.sband.htCap
    let vhtCap := vif.sband.vhtCap
    let skb ← (if sta.qos then addWmmParamIe skb vif.ap.acm vif.ap.acParam else pure skb)
    let skb ← (if htCap.htSupported ∧ !vif.ap.ht ∧ sta.ht then
        fill (2+22) (htOperIe k hw vif htCap 0) skb
      else pure skb)
    let skb ← tdlsAddLinkIe hw vif skb peer initiator
    let skb ← (if vhtCap.vhtSupported ∧ !vif.ap.vht ∧ sta.vht then
        fill (2+5) (vhtOperIe k hw vif) skb
      else pure skb)
    addExtraIes skb extra

def tdlsAddIes (action : Action) (status : ℕ) (initiator : Bool) (extra : List UInt8)
    (skb : Skb) : Option Skb :=
  match action with
  | .setupRequest | .setupResponse | .discoverRes =>
    if status = 0 then tdlsAddSetupStartIes k hw vif peer action initiator extra skb else pure skb
  | .setupConfirm =>
    if status = 0 then tdlsAddSetupCfmIes k hw vif peer initiator extra skb else pure skb
  | .teardown | .discoveryRequest => do
    let skb ← addExtraIes skb extra
    if status = 0 ∨ action = .teardown then tdlsAddLinkIe hw vif skb peer initiator else pure skb
  | .other _ => pure skb

def getTdlsStaCapab (status : ℕ) : ℕ :=
  if status ≠ 0 then 0 else if vif.ap.band ≠ .ghz2 then 0 else (1 <<< 10) ||| (1 <<< 5)

def EINVAL : ℤ := 22
def ENOTSUPP : ℤ := 524

def encapHeader (action : Action) : List UInt8 :=
  peer.val++hw.permAddr.val++be16 0x890D++[2, 12, action.code]

/-- The value of the function with what it wrote. -/
def tdlsPrepareEncapData (action : Action) (dialog : UInt8) (status : ℕ) (skb : Skb) :
    Option (ℤ × Skb) := do
  let skb ← fill 17 (encapHeader hw peer action) skb
  let capab := le16 (getTdlsStaCapab hw vif status)
  match action with
  | .setupRequest => (fill 3 (dialog::capab) skb).map (0, ·)
  | .setupResponse => (fill 5 (le16 status++dialog::capab) skb).map (0, ·)
  | .setupConfirm => (fill 3 (le16 status++[dialog]) skb).map (0, ·)
  | .teardown => (fill 2 (le16 status) skb).map (0, ·)
  | .discoveryRequest => (fill 1 [dialog] skb).map (0, ·)
  | _ => pure (-EINVAL, skb)

/-- The addresses behind the frame control and the duration. -/
def mgmtHeader : List UInt8 :=
  le16 0x00D0++[0, 0]++peer.val++hw.permAddr.val++vif.ap.macAddr.val++[0, 0]

def prepTdlsDirect (action : Action) (dialog : UInt8) (status : ℕ) (skb : Skb) :
    Option (ℤ × Skb) := do
  let skb ← fill 24 (mgmtHeader hw vif peer) skb
  match action with
  | .discoverRes =>
    (fill (1+4) ([4, 14, dialog]++le16 (getTdlsStaCapab hw vif status)) skb).map (0, ·)
  | _ => pure (-EINVAL, skb)

/-- The switch over the action in `rwnx_tdls_send_mgmt_packet_data`. -/
def prepare (action : Action) (dialog : UInt8) (status : ℕ) (skb : Skb) : Option (ℤ × Skb) :=
  match action with
  | .discoverRes => prepTdlsDirect hw vif peer action dialog status skb
  | .other _ => pure (-ENOTSUPP, skb)
  | _ => tdlsPrepareEncapData hw vif peer action dialog status skb

/-- The size that is asked for, an unsigned int. -/
def allocSize (extraIesLen : ℕ) : ℕ :=
  (22+10+6+(2+(hw.band2.channels.length+hw.channels5.length))+10+26+4+28+3+20+(2+12)+4+(2+22)+
    extraIesLen) % 2^32

/-- A frame is handed on with the offset of its information elements. -/
inductive Sent where
  | refused (ret : ℤ)
  | frame (ies : ℕ) (skb : Skb)

/-- `slack` is the room beyond the size in the buffer, if there is one. -/
def tdlsSendMgmtPacketData (slack : Option ℕ) (action : Action) (dialog : UInt8) (status : ℕ)
    (initiator : Bool) (extra : List UInt8) : Option Sent :=
  match slack with
  | none => some (.refused 0)
  | some slack => do
    let skb := empty (allocSize hw extra.length+slack)
    let (ret, skb) ← prepare hw vif peer action dialog status skb
    if ret < 0 then pure (.refused ret)
    else do
      let sent ← tdlsAddIes k hw vif peer action status initiator extra skb
      pure (.frame skb.len sent)

end frame

end AIC.TdlsFrame
