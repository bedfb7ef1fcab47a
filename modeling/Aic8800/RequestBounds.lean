import Aic8800.ScanRequest

/-!
# Requests inside their messages

The scheduled scan, whose request is rewritten as one scan, and the request that adds a station,
beside the scan itself.
-/

set_option autoImplicit false

namespace AIC.RequestBounds
open AIC.ScanRequest Lib.FlatMemory Lib.CheckedBuffer

/-! ## Scheduled scans -/

/-- `struct cfg80211_sched_scan_request`, with an array of `nSsids` SSIDs. -/
structure SchedScanRequest where
  channels : List Channel
  nSsids : ℕ
  ssids : ℕ → Ssid
  matchSets : List Ssid
  ie : Option (List UInt8)

/-- What the driver is doing, and whether its allocation succeeds. `scanningLater` is read after
the request was rewritten. -/
structure SchedEnv where
  isSchedScan : Bool
  scanning : Bool
  alloc : Bool
  scanningLater : Bool
  testmode : Bool
  connecting : Bool
  scan : Env

/-- The scan request that was allocated, and the SSIDs of the scheduled one. -/
structure Rewritten where
  channels : Buffer Channel
  nChannels : ℕ
  ssids : Buffer Ssid
  nSsids : ℕ
  scan : Option Built
  ret : ℤ

/-- What the call did: nothing, a write through the null pointer, or a request. -/
inductive SchedScan where
  | busy
  | nullWrite
  | rewritten (r : Rewritten)

def noChannel : Channel := ⟨0, 0, 0⟩

/-- `scan_request->channels`, filled from the scheduled request. -/
def scanChannels (request : SchedScanRequest) : Buffer Channel :=
  (Buffer.fresh SCAN_REQUEST_CHANNELS fun _ => noChannel).storeAt 0 request.channels

/-- `scan_request->ssids`, which are those of the scheduled request, filled from its match sets. -/
def scanSsids (request : SchedScanRequest) : Buffer Ssid :=
  (Buffer.fresh request.nSsids request.ssids).storeAt 0 request.matchSets

/-- The scan request as the scan reads it. -/
def scanParam (request : SchedScanRequest) : ScanParam :=
  { channels := cells (scanChannels request).cell 0 request.channels.length
    ssids := cells (scanSsids request).cell 0 request.matchSets.length
    ie := request.ie
    noCck := false }

/-- `rwnx_cfg80211_scan`. -/
def cfg80211Scan (env : SchedEnv) (radio : Radio) (param : ScanParam) : Option Built × ℤ :=
  if env.testmode ∨ env.connecting ∨ env.scanningLater then (none, -EBUSY)
  else
    let built := sendScanuReq env.scan radio param
    (some built, built.ret)

/-- `rwnx_cfg80211_sched_scan_start`. -/
def schedScanStart (env : SchedEnv) (radio : Radio) (request : SchedScanRequest) : SchedScan :=
  if env.isSchedScan ∨ env.scanning then .busy
  else if env.alloc then
    let scan := if env.scanningLater then (none, -EBUSY)
      else cfg80211Scan env radio (scanParam request)
    .rewritten
      { channels := scanChannels request
        nChannels := request.channels.length
        ssids := scanSsids request
        nSsids := request.matchSets.length
        scan := scan.1
        ret := scan.2 }
  else .nullWrite

structure Rewritten.Inside (r : Rewritten) : Prop where
  channels : r.channels.Inside
  nChannels : r.nChannels ≤ r.channels.capacity
  ssids : r.ssids.Inside
  nSsids : r.nSsids ≤ r.ssids.capacity
  scan : ∀ built ∈ r.scan, built.Inside

def SchedScan.Inside : SchedScan → Prop
  | .busy => True
  | .nullWrite => False
  | .rewritten r => r.Inside

/-- The scheduled scan is refused, or it has no channel and no more match sets than SSIDs, and the
scan that follows is refused or fits. -/
def SchedFits (env : SchedEnv) (radio : Radio) (request : SchedScanRequest) : Prop :=
  (env.isSchedScan ∨ env.scanning) ∨
    env.alloc ∧ request.channels = [] ∧ request.matchSets.length ≤ request.nSsids ∧
      ((env.scanningLater ∨ env.testmode ∨ env.connecting) ∨
        ScanFits env.scan radio ⟨[], request.matchSets, request.ie, false⟩)

theorem scanParam_eq (request : SchedScanRequest) : scanParam request =
    ⟨request.channels, request.matchSets, request.ie, false⟩ := by
  unfold scanParam
  congr 1
  · exact cells_store ..
  · exact cells_store ..

theorem schedScanStart_inside (env : SchedEnv) (radio : Radio) (request : SchedScanRequest) :
    (schedScanStart env radio request).Inside ↔ SchedFits env radio request := by
  have hchannels : (scanChannels request).Inside ↔ request.channels = [] := by
    rw [scanChannels, Buffer.inside_fresh_storeAt]
    exact Iff.trans Nat.le_zero List.length_eq_zero_iff
  have hssids : (scanSsids request).Inside ↔ request.matchSets.length ≤ request.nSsids :=
    Buffer.inside_fresh_storeAt
  unfold schedScanStart SchedFits
  by_cases hbusy : env.isSchedScan ∨ env.scanning
  · rw [if_pos hbusy]
    exact ⟨fun _ => .inl hbusy, fun _ => trivial⟩
  rw [if_neg hbusy, or_iff_right hbusy]
  by_cases halloc : env.alloc
  · rw [if_pos halloc, and_iff_right halloc]
    have hscan : (∀ built ∈ (if env.scanningLater then (none, -EBUSY)
        else cfg80211Scan env radio (scanParam request)).1, built.Inside) ↔
        (env.scanningLater ∨ env.testmode ∨ env.connecting) ∨
          ScanFits env.scan radio ⟨request.channels, request.matchSets, request.ie, false⟩ := by
      rw [scanParam_eq, cfg80211Scan, ← sendScanuReq_inside]
      by_cases h1 : env.scanningLater
      · simp [h1]
      · by_cases h2 : env.testmode ∨ env.connecting
        · simp [h1, h2]
        · simp [h1, h2]
    constructor
    · intro h
      have hnil := hchannels.mp h.channels
      have := hscan.mp h.scan
      rw [hnil] at this
      exact ⟨hnil, hssids.mp h.ssids, this⟩
    · rintro ⟨hnil, hle, hfits⟩
      rw [← hnil] at hfits
      exact ⟨hchannels.mpr hnil, Nat.le_of_eq (List.length_eq_zero_iff.mpr hnil),
        hssids.mpr hle, hle, hscan.mpr hfits⟩
  · rw [if_neg halloc]
    exact ⟨False.elim, fun h => absurd h.1 halloc⟩

/-! ## Stations -/

def MAC_RATESET_LEN : ℕ := 12
def MAX_MCS_LEN : ℕ := 16
def MAC_HE_MAC_CAPA_LEN : ℕ := 6
def MAC_HE_PHY_CAPA_LEN : ℕ := 11

/-- A capability of HT, with the bytes of its MCS set. -/
structure HtCap where
  capInfo : UInt16
  ampduParamsInfo : UInt8
  mcs : List UInt8
  extendedHtCapInfo : UInt16
  txBFCapInfo : UInt32
  antennaSelectionInfo : UInt8
  mcs_length : mcs.length = 16

structure VhtCap where
  vhtCapInfo : UInt32
  rxHighest : UInt16
  rxMcsMap : UInt16
  txHighest : UInt16
  txMcsMap : UInt16

/-- A capability of HE, with the six maps of its MCS sets in their order. -/
structure HeCap where
  macCapInfo : List UInt8
  phyCapInfo : List UInt8
  mcsSupp : List UInt16
  mac_length : macCapInfo.length = 6
  phy_length : phyCapInfo.length = 11

/-- `struct station_parameters`, whose number of rates is a u8. -/
structure StationParameters where
  supportedRates : List UInt8
  htCapa : Option HtCap
  vhtCapa : Option VhtCap
  heCapa : Option HeCap
  staWme : Bool
  staMfp : Bool
  staTdlsPeer : Bool
  opmodeNotifUsed : UInt8
  aid : UInt16
  uapsdQueues : UInt8
  maxSp : UInt8
  extCapab3 : UInt8
  rates_u8 : supportedRates.length < 256

/-- `struct mac_htcapability`. -/
structure MacHtCapability where
  htCapaInfo : UInt16
  aMpduParam : UInt8
  mcsRate : Buffer UInt8
  htExtendedCapa : UInt16
  txBeamformingCapa : UInt32
  aselCapa : UInt8

/-- `struct mac_hecapability`. -/
structure MacHeCapability where
  macCapInfo : Buffer UInt8
  phyCapInfo : Buffer UInt8
  mcsSupp : List UInt16

/-- `struct me_sta_add_req`. -/
structure MeStaAddReq where
  macAddr : Buffer UInt8
  rateLength : ℕ
  rateArray : Buffer UInt8
  htCap : MacHtCapability
  vhtCap : VhtCap
  heCap : MacHeCapability
  flags : UInt32
  aid : UInt16
  uapsdQueues : UInt8
  maxSpLen : UInt8
  opmode : UInt8
  vifIdx : UInt8
  tdlsSta : Bool
  tdlsStaInitiator : Bool
  tdlsChswAllowed : Bool

def zeros (n : ℕ) : Buffer UInt8 := .fresh n fun _ => 0

def macHtCapability : Option HtCap → MacHtCapability
  | none => ⟨0, 0, zeros MAX_MCS_LEN, 0, 0, 0⟩
  | some c => ⟨c.capInfo, c.ampduParamsInfo, (zeros MAX_MCS_LEN).storeAt 0 c.mcs,
      c.extendedHtCapInfo, c.txBFCapInfo, c.antennaSelectionInfo⟩

def macHeCapability : Option HeCap → MacHeCapability
  | none => ⟨zeros MAC_HE_MAC_CAPA_LEN, zeros MAC_HE_PHY_CAPA_LEN, []⟩
  | some c => ⟨(zeros MAC_HE_MAC_CAPA_LEN).storeAt 0 c.macCapInfo,
      (zeros MAC_HE_PHY_CAPA_LEN).storeAt 0 c.phyCapInfo, c.mcsSupp⟩

/-- A flag of the station. -/
def flagBit (set : Bool) (bit : UInt32) : UInt32 := if set then bit else 0

/-- `WLAN_EXT_CAPA4_TDLS_CHAN_SWITCH`. -/
def TDLS_CHAN_SWITCH : UInt8 := 0x40

/-- `rwnx_send_me_sta_add`, for a mac address and the state of TDLS on the interface. -/
def meStaAddReq (params : StationParameters) (mac : ℕ → UInt8) (instNbr : UInt8)
    (tdlsChswProhibited tdlsSetupRspTx : Bool) : MeStaAddReq :=
  { macAddr := (zeros 6).storeAt 0 (cells mac 0 6)
    rateLength := params.supportedRates.length
    rateArray := (zeros MAC_RATESET_LEN).storeAt 0 params.supportedRates
    htCap := macHtCapability params.htCapa
    vhtCap := params.vhtCapa.getD ⟨0, 0, 0, 0, 0⟩
    heCap := macHeCapability params.heCapa
    flags := flagBit params.htCapa.isSome 2 ||| flagBit params.vhtCapa.isSome 4 |||
      flagBit params.heCapa.isSome 32 ||| flagBit params.staWme 1 |||
      flagBit params.staMfp 8 ||| flagBit (params.opmodeNotifUsed ≠ 0) 16
    aid := params.aid
    uapsdQueues := params.uapsdQueues
    maxSpLen := params.maxSp*2
    opmode := params.opmodeNotifUsed
    vifIdx := instNbr
    tdlsSta := params.staTdlsPeer
    tdlsStaInitiator := params.staTdlsPeer && tdlsSetupRspTx
    tdlsChswAllowed := params.staTdlsPeer && params.extCapab3 &&& TDLS_CHAN_SWITCH != 0 &&
      !tdlsChswProhibited }

structure MeStaAddReq.Inside (req : MeStaAddReq) : Prop where
  macAddr : req.macAddr.Inside
  rateArray : req.rateArray.Inside
  rateLength : req.rateLength ≤ req.rateArray.capacity
  mcsRate : req.htCap.mcsRate.Inside
  macCapInfo : req.heCap.macCapInfo.Inside
  phyCapInfo : req.heCap.phyCapInfo.Inside

theorem zeros_storeAt_inside {n : ℕ} {l : List UInt8} (h : l.length ≤ n) :
    ((zeros n).storeAt 0 l).Inside := Buffer.inside_fresh_storeAt.mpr h

/-- A station is added inside its message exactly if it has no more rates than fit. -/
theorem meStaAddReq_inside (params : StationParameters) (mac : ℕ → UInt8) (instNbr : UInt8)
    (prohibited rspTx : Bool) : (meStaAddReq params mac instNbr prohibited rspTx).Inside ↔
      params.supportedRates.length ≤ MAC_RATESET_LEN := by
  refine ⟨fun h => h.rateLength, fun h => ?_⟩
  have hht : (macHtCapability params.htCapa).mcsRate.Inside := by
    cases params.htCapa with
    | none => exact Buffer.inside_fresh
    | some c => exact zeros_storeAt_inside (Nat.le_of_eq c.mcs_length)
  have hhe : (macHeCapability params.heCapa).macCapInfo.Inside ∧
      (macHeCapability params.heCapa).phyCapInfo.Inside := by
    cases params.heCapa with
    | none => exact ⟨Buffer.inside_fresh, Buffer.inside_fresh⟩
    | some c =>
      exact ⟨zeros_storeAt_inside (Nat.le_of_eq c.mac_length),
        zeros_storeAt_inside (Nat.le_of_eq c.phy_length)⟩
  exact ⟨zeros_storeAt_inside (Nat.le_of_eq (cells_length ..)), zeros_storeAt_inside h, h, hht,
    hhe.1, hhe.2⟩

/-! ## The three builders -/

def SCANU_MAX_IE_LEN : ℕ := 200

/-- Up to the announced limit of a scan, and without an extension, every scan is inside. -/
theorem limited_scan_inside (env : Env) (radio : Radio) (param : ScanParam)
    (hext : env.extension = none) (hie : ∀ ie ∈ param.ie, ie.length ≤ SCANU_MAX_IE_LEN) :
    (sendScanuReq env radio param).Inside := by
  refine (sendScanuReq_inside env radio param).mpr fun ie h _ _ _ => ⟨?_, fun x hx => ?_⟩
  · exact Nat.le_trans (hie ie h) (by decide)
  · rw [hext] at hx
    cases hx

/-- The three builders stay inside what they write to, exactly where the channels, SSIDs, elements
and rates of the request fit. -/
theorem builders_inside_iff (sched : SchedEnv) (env : Env) (radio : Radio)
    (request : SchedScanRequest) (param : ScanParam) (params : StationParameters)
    (mac : ℕ → UInt8) (instNbr : UInt8) (prohibited rspTx : Bool) :
    ((schedScanStart sched radio request).Inside ↔ SchedFits sched radio request) ∧
    ((sendScanuReq env radio param).Inside ↔ ScanFits env radio param) ∧
    ((meStaAddReq params mac instNbr prohibited rspTx).Inside ↔
      params.supportedRates.length ≤ MAC_RATESET_LEN) :=
  ⟨schedScanStart_inside sched radio request, sendScanuReq_inside env radio param,
    meStaAddReq_inside params mac instNbr prohibited rspTx⟩

/-- A driver that does nothing else and whose allocations succeed. -/
def idle : SchedEnv :=
  { isSchedScan := false
    scanning := false
    alloc := true
    scanningLater := false
    testmode := false
    connecting := false
    scan := ⟨true, true, .failed, false, 0, none, fun _ => 0⟩ }

/-- A scheduled scan of one channel is written behind the request that was allocated. -/
theorem one_channel : ¬ ∀ (env : SchedEnv) (radio : Radio) (request : SchedScanRequest),
    request.channels.length ≤ SCAN_CHANNEL_MAX → request.nSsids ≤ SCAN_SSID_MAX →
      request.matchSets.length ≤ SCAN_SSID_MAX → (∀ ie ∈ request.ie, ie.length ≤ 2048) →
        (schedScanStart env radio request).Inside := by
  intro h
  have hin : Rewritten.Inside _ := h idle ⟨0, false, false, 0, false⟩
    ⟨[⟨0, 2412, 20⟩], 0, fun _ => ⟨fun _ => 0, 0, Nat.zero_le _⟩, [], none⟩
    (by decide) (by decide) (by decide) (fun _ h => absurd h (Option.not_mem_none _))
  exact absurd hin.nChannels (by decide)

end AIC.RequestBounds
