import Aic8800.Lib.CheckedBuffer
import Aic8800.VendorExtension
import Mathlib.Algebra.Group.Int.Defs
import Mathlib.Algebra.Group.Nat.Defs

/-!
# Scan requests

`rwnx_send_scanu_req` builds the messages of a scan, and `rwnx_cfg80211_sched_scan_start` a scan
request for it from a scheduled one.
-/

set_option autoImplicit false

namespace AIC.ScanRequest
open AIC.VendorExtension Lib.FlatMemory Lib.CheckedBuffer

def SCAN_SSID_MAX : ℕ := 3

/-- `MAC_DOMAINCHANNEL_24G_MAX + MAC_DOMAINCHANNEL_5G_MAX`. -/
def SCAN_CHANNEL_MAX : ℕ := 14+28

def MAC_SSID_LEN : ℕ := 32

/-- The size of `ie` in `struct scanu_vendor_ie_req`, and of `temp_ie`. -/
def VENDOR_IE_LEN : ℕ := 256

/-- `channels` is the flexible array at the end of `struct cfg80211_scan_request`, of which
`sizeof` counts no entry. -/
def SCAN_REQUEST_CHANNELS : ℕ := 0

/-- `struct cfg80211_ssid`, whose length cfg80211 has checked. -/
structure Ssid where
  bytes : ℕ → UInt8
  len : ℕ
  len_le : len ≤ 32

/-- What the builder reads of `struct ieee80211_channel`. -/
structure Channel where
  band : ℕ
  centerFreq : ℕ
  maxRegPower : ℤ

/-- `struct mac_chan_def`. -/
structure MacChanDef where
  freq : ℕ
  band : ℕ
  flags : UInt8
  txPower : ℤ

def chanToFwPwr (power : ℤ) : ℤ := if power > 127 then 127 else power

/-- Without `RADAR_OR_IR_DETECT` a channel has no flags. -/
def macChanDef (chan : Channel) : MacChanDef :=
  ⟨chan.centerFreq, chan.band, 0, chanToFwPwr chan.maxRegPower⟩

/-- `struct mac_ssid`. -/
structure MacSsid where
  length : ℕ
  array : Buffer UInt8

def MacSsid.zero : MacSsid := ⟨0, .fresh MAC_SSID_LEN fun _ => 0⟩

/-- An SSID is copied byte by byte. -/
def macSsid (ssid : Ssid) : MacSsid :=
  ⟨ssid.len, MacSsid.zero.array.storeAt 0 (cells ssid.bytes 0 ssid.len)⟩

/-- `"DIRECT-"`. -/
def P2P_WILDCARD_SSID : List UInt8 := [0x44, 0x49, 0x52, 0x45, 0x43, 0x54, 0x2D]

def IsP2pWildcard (ssid : Ssid) : Prop := cells ssid.bytes 0 7 = P2P_WILDCARD_SSID

instance (ssid : Ssid) : Decidable (IsP2pWildcard ssid) := inferInstanceAs (Decidable (_ = _))

/-- `struct scanu_start_req`. -/
structure ScanuStartReq where
  vifIdx : UInt8
  chanCnt : ℕ
  ssidCnt : ℕ
  noCck : Bool
  chan : Buffer MacChanDef
  ssid : Buffer MacSsid

/-- `struct scanu_vendor_ie_req`. -/
structure VendorIeReq where
  addIeLen : ℕ
  vifIdx : UInt8
  ie : Buffer UInt8

/-- What the driver keeps of the interface and of the P2P device. -/
structure Radio where
  vifIndex : UInt8
  isP2pDev : Bool
  up : Bool
  vifStarted : ℕ
  isP2pAlive : Bool

/-- The answer to `rwnx_send_add_if`: an error, a status other than 0 or the number of the
interface. -/
inductive AddIf where
  | failed
  | refused
  | started (instNbr : UInt8)

/-- The extension that the user has set, where the driver is built with it. Its length is a u8. -/
structure Extension where
  data : List UInt8
  data_u8 : data.length < 256

/-- What the builder meets: which allocations succeed, the answers of the firmware, and the
memory behind a message of elements. -/
structure Env where
  reqAlloc : Bool
  ieAlloc : Bool
  addIf : AddIf
  sendIeFails : Bool
  sendRet : ℤ
  extension : Option Extension
  beyond : ℕ → UInt8

/-- `struct cfg80211_scan_request`. -/
structure ScanParam where
  channels : List Channel
  ssids : List Ssid
  ie : Option (List UInt8)
  noCck : Bool

def ENOMEM : ℤ := 12
def EIO : ℤ := 5
def EBUSY : ℤ := 16

/-- A request with its counts, and none of its arrays written. -/
def startReq (radio : Radio) (param : ScanParam) : ScanuStartReq :=
  { vifIdx := radio.vifIndex
    chanCnt := min SCAN_CHANNEL_MAX param.channels.length
    ssidCnt := min SCAN_SSID_MAX param.ssids.length
    noCck := param.noCck
    chan := .fresh SCAN_CHANNEL_MAX fun _ => ⟨0, 0, 0, 0⟩
    ssid := .fresh SCAN_SSID_MAX fun _ => .zero }

/-- For the P2P wildcard the P2P device is brought up, unless the firmware refuses. -/
def p2pStart (env : Env) (radio : Radio) : Except ℤ Radio :=
  if radio.isP2pDev ∧ ¬ radio.up then
    match env.addIf with
    | .failed => .error (-ENOMEM)
    | .refused => .error (- EIO)
    | .started instNbr =>
      .ok
        { vifIndex := instNbr
          isP2pDev := radio.isP2pDev
          up := true
          vifStarted := radio.vifStarted+1
          isP2pAlive := true }
  else .ok { radio with isP2pAlive := true }

/-- The loop over the SSIDs from index `i` on, with an error if it leaves the function. -/
def ssidLoop (env : Env) : ℕ → List Ssid → ScanuStartReq → Radio →
    ScanuStartReq × Except ℤ Radio
  | _, [], req, radio => (req, .ok radio)
  | i, ssid::ssids, req, radio =>
    let req := { req with ssid := req.ssid.put i (macSsid ssid) }
    if IsP2pWildcard ssid then
      match p2pStart env radio with
      | .error e => (req, .error e)
      | .ok radio => ssidLoop env (i+1) ssids req radio
    else ssidLoop env (i+1) ssids req radio

/-- The size that `memcpy` gets for a difference of integers. -/
def memcpySize (a b : ℕ) : ℕ := if b ≤ a then a-b else 2^32-(b-a)

/-- The three copies of `rwnx_insert_vendor_extension_data` into `temp_ie`. -/
def tempIeBuffer (x : List UInt8) (req : VendorIeReq) (index : ℕ) : Buffer UInt8 :=
  (((Buffer.fresh VENDOR_IE_LEN fun _ => 0).copyAt 0 0 (index+1) req.ie.cell).storeAt (index+1)
    x).copyAt (index+1+x.length) (index+1) (memcpySize req.addIeLen index) req.ie.cell

/-- The request and `temp_ie` after `rwnx_insert_vendor_extension_data`. -/
def insertData (x : List UInt8) (req : VendorIeReq) : VendorIeReq × Option (Buffer UInt8) :=
  match search req.ie.cell req.addIeLen req.addIeLen 0 with
  | none => (req, none)
  | some (index, len) =>
    let temp := tempIeBuffer x req (index+len)
    let ie := req.ie.copyAt 0 0 (req.addIeLen+x.length) temp.cell
    ({ req with
      addIeLen := (req.addIeLen+x.length) % 2^16
      ie := ie.put 1 (ie.cell 1+UInt8.ofNat x.length) }, some temp)

/-- `ie` of the allocated request, with the elements copied into it. -/
def ieBuffer (env : Env) (ie : List UInt8) : Buffer UInt8 :=
  (Buffer.fresh VENDOR_IE_LEN fun i =>
    if i < VENDOR_IE_LEN then 0 else env.beyond (i-VENDOR_IE_LEN)).storeAt 0 ie

/-- The request with the elements that were given, whose length is a u16. -/
def vendorIeReq (env : Env) (radio : Radio) (ie : List UInt8) : VendorIeReq :=
  { addIeLen := ie.length % 2^16
    vifIdx := radio.vifIndex
    ie := ieBuffer env ie }

/-- What a call built, and what it returned. -/
structure Built where
  start : Option ScanuStartReq
  vendorIe : Option VendorIeReq
  tempIe : Option (Buffer UInt8)
  radio : Radio
  ret : ℤ

/-- The elements are sent in a message of their own, with the extension if there is one. -/
def vendorPart (env : Env) (radio : Radio) (ie : List UInt8) :
    VendorIeReq × Option (Buffer UInt8) :=
  match env.extension with
  | none => (vendorIeReq env radio ie, none)
  | some x => insertData x.data (vendorIeReq env radio ie)

/-- The channels, and the answer of the firmware. -/
def channelPart (param : ScanParam) (req : ScanuStartReq) : ScanuStartReq :=
  { req with chan := req.chan.storeAt 0 ((param.channels.take req.chanCnt).map macChanDef) }

/-- `rwnx_send_scanu_req`. -/
def sendScanuReq (env : Env) (radio : Radio) (param : ScanParam) : Built :=
  if env.reqAlloc then
    let req := startReq radio param
    match ssidLoop env 0 (param.ssids.take req.ssidCnt) req radio with
    | (req, .error e) => ⟨some req, none, none, radio, e⟩
    | (req, .ok radio) =>
      match param.ie with
      | none => ⟨some (channelPart param req), none, none, radio, env.sendRet⟩
      | some ie =>
        if env.ieAlloc then
          let (ieReq, temp) := vendorPart env radio ie
          if env.sendIeFails then ⟨some req, some ieReq, temp, radio, -ENOMEM⟩
          else ⟨some (channelPart param req), some ieReq, temp, radio, env.sendRet⟩
        else ⟨some req, none, none, radio, -ENOMEM⟩
  else ⟨none, none, none, radio, -ENOMEM⟩

/-! ## Messages that were built inside their bounds -/

def MacSsid.Inside (ssid : MacSsid) : Prop :=
  ssid.array.Inside ∧ ssid.length ≤ ssid.array.capacity

/-- The arrays of the request were written within their bounds, and their counts are in them. -/
structure ScanuStartReq.Inside (req : ScanuStartReq) : Prop where
  chan : req.chan.Inside
  chanCnt : req.chanCnt ≤ req.chan.capacity
  ssid : req.ssid.Inside
  ssidCnt : req.ssidCnt ≤ req.ssid.capacity
  ssids : ∀ i, (req.ssid.cell i).Inside

structure VendorIeReq.Inside (req : VendorIeReq) : Prop where
  ie : req.ie.Inside
  addIeLen : req.addIeLen ≤ req.ie.capacity

structure Built.Inside (b : Built) : Prop where
  start : ∀ req ∈ b.start, req.Inside
  vendorIe : ∀ req ∈ b.vendorIe, req.Inside
  tempIe : ∀ temp ∈ b.tempIe, temp.Inside

theorem macSsid_inside (ssid : Ssid) : (macSsid ssid).Inside := by
  refine ⟨?_, ssid.len_le⟩
  rw [macSsid, MacSsid.zero, Buffer.inside_fresh_storeAt, cells_length]
  exact ssid.len_le

theorem startReq_inside (radio : Radio) (param : ScanParam) : (startReq radio param).Inside where
  chan := Buffer.inside_fresh
  chanCnt := Nat.min_le_left ..
  ssid := Buffer.inside_fresh
  ssidCnt := Nat.min_le_left ..
  ssids _ := ⟨Buffer.inside_fresh, Nat.zero_le _⟩

/-- One more SSID is written. -/
theorem putSsid_inside {req : ScanuStartReq} (h : req.Inside) (i : ℕ) (hi : i < req.ssid.capacity)
    (ssid : Ssid) :
    ({ req with ssid := req.ssid.put i (macSsid ssid) } : ScanuStartReq).Inside where
  chan := h.chan
  chanCnt := h.chanCnt
  ssid := Buffer.inside_put.mpr ⟨h.ssid, hi⟩
  ssidCnt := h.ssidCnt
  ssids j := by
    change (fill i 1 (macSsid ssid) req.ssid.cell j).Inside
    unfold fill
    split
    · exact macSsid_inside ssid
    · exact h.ssids j

theorem ssidLoop_inside (env : Env) (ssids : List Ssid) (i : ℕ) (req : ScanuStartReq)
    (radio : Radio) (h : req.Inside) (hi : i+ssids.length ≤ req.ssid.capacity) :
    (ssidLoop env i ssids req radio).1.Inside ∧
      (ssidLoop env i ssids req radio).1.chanCnt = req.chanCnt := by
  induction ssids generalizing i req radio with
  | nil => exact ⟨h, rfl⟩
  | cons ssid ssids ih =>
    rw [List.length_cons] at hi
    have hput := putSsid_inside h i (by omega) ssid
    have hcap : i+1+ssids.length ≤ (req.ssid.put i (macSsid ssid)).capacity := by
      change _ ≤ req.ssid.capacity
      omega
    rw [ssidLoop]
    split
    · split
      · exact ⟨hput, rfl⟩
      · exact ih _ _ _ hput hcap
    · exact ih _ _ _ hput hcap

/-- The firmware does not start the P2P device for the wildcard of some SSID. -/
def Refused (env : Env) (ssids : List Ssid) (radio : Radio) : Prop :=
  (radio.isP2pDev ∧ ¬ radio.up) ∧ (∀ instNbr, env.addIf ≠ .started instNbr) ∧
    ∃ ssid ∈ ssids, IsP2pWildcard ssid

/-- What is started once is not started again. -/
theorem p2pStart_settled {env : Env} {radio radio' : Radio} (h : p2pStart env radio = .ok radio') :
    ¬ (radio'.isP2pDev ∧ ¬ radio'.up) := by
  unfold p2pStart at h
  split at h
  · split at h
    · cases h
    · cases h
    · cases h
      exact fun h => h.2 rfl
  · next hc =>
    cases h
    exact hc

theorem p2pStart_error_iff (env : Env) (radio : Radio) : (∃ e, p2pStart env radio = .error e) ↔
    (radio.isP2pDev ∧ ¬ radio.up) ∧ ∀ instNbr, env.addIf ≠ .started instNbr := by
  unfold p2pStart
  by_cases hc : radio.isP2pDev ∧ ¬ radio.up
  · rw [if_pos hc, and_iff_right hc]
    cases env.addIf with
    | failed => exact ⟨fun _ _ => nofun, fun _ => ⟨_, rfl⟩⟩
    | refused => exact ⟨fun _ _ => nofun, fun _ => ⟨_, rfl⟩⟩
    | started instNbr => exact ⟨fun ⟨_, h⟩ => (nomatch h), fun h => absurd rfl (h instNbr)⟩
  · rw [if_neg hc]
    exact ⟨fun ⟨_, h⟩ => (nomatch h), fun h => absurd h.1 hc⟩

/-- The loop leaves the function exactly where the firmware refuses. -/
theorem ssidLoop_error_iff (env : Env) (ssids : List Ssid) (i : ℕ) (req : ScanuStartReq)
    (radio : Radio) :
    (∃ e, (ssidLoop env i ssids req radio).2 = .error e) ↔ Refused env ssids radio := by
  induction ssids generalizing i req radio with
  | nil =>
    exact ⟨fun ⟨_, h⟩ => (nomatch h), fun ⟨_, _, _, hmem, _⟩ => absurd hmem List.not_mem_nil⟩
  | cons ssid ssids ih =>
    rw [ssidLoop]
    by_cases hw : IsP2pWildcard ssid
    · have hrefused : Refused env (ssid::ssids) radio ↔ ∃ e, p2pStart env radio = .error e := by
        rw [p2pStart_error_iff]
        exact ⟨fun h => ⟨h.1, h.2.1⟩, fun h => ⟨h.1, h.2, ssid, List.mem_cons_self, hw⟩⟩
      rw [if_pos hw, hrefused]
      cases hp : p2pStart env radio with
      | error e => exact ⟨fun _ => ⟨e, rfl⟩, fun _ => ⟨e, rfl⟩⟩
      | ok radio' =>
        simp only [ih]
        exact ⟨fun h => absurd h.1 (p2pStart_settled hp), fun ⟨_, h⟩ => (nomatch h)⟩
    · rw [if_neg hw, ih]
      refine and_congr_right fun _ => and_congr_right fun _ => ?_
      constructor
      · rintro ⟨s, hs, hsw⟩
        exact ⟨s, List.mem_cons_of_mem _ hs, hsw⟩
      · rintro ⟨s, hs, hsw⟩
        rcases List.mem_cons.mp hs with rfl | hs
        · exact absurd hsw hw
        · exact ⟨s, hs, hsw⟩

theorem channelPart_inside {req : ScanuStartReq} (h : req.Inside) (param : ScanParam) :
    (channelPart param req).Inside where
  chan := by
    refine Buffer.inside_storeAt.mpr ⟨h.chan, .inr ?_⟩
    rw [List.length_map, List.length_take, Nat.zero_add]
    exact Nat.le_trans (Nat.min_le_left ..) h.chanCnt
  chanCnt := h.chanCnt
  ssid := h.ssid
  ssidCnt := h.ssidCnt
  ssids := h.ssids

/-! ## When the elements fit -/

theorem ieBuffer_inside (env : Env) (ie : List UInt8) :
    (ieBuffer env ie).Inside ↔ ie.length ≤ VENDOR_IE_LEN := Buffer.inside_fresh_storeAt

theorem vendorIeReq_inside (env : Env) (radio : Radio) (ie : List UInt8) :
    (vendorIeReq env radio ie).Inside ↔ ie.length ≤ VENDOR_IE_LEN := by
  constructor
  · intro h
    exact (ieBuffer_inside env ie).mp h.ie
  · intro h
    exact ⟨(ieBuffer_inside env ie).mpr h, Nat.le_trans (Nat.mod_le ..) h⟩

/-- An extension of `m` bytes fits behind `n` bytes of elements: the search returns, or it stops
within the elements and both leave one byte of the buffers. -/
def ExtensionFits (ie : ℕ → UInt8) (n m : ℕ) : Prop :=
  ((∀ k, ¬ Found ie n k) ∧ run ie n % 2 = 1) ∨
    ((∀ k, First ie n k → k+3+(ie (k+3)).toNat ≤ n) ∧ n+m < VENDOR_IE_LEN)

/-- The search does not stop far behind the elements. -/
theorem search_bound {ie : ℕ → UInt8} {n i len : ℕ} (hs : search ie n n 0 = some (i, len)) :
    i+len ≤ n+257 := by
  rcases (search_whole ie n).result i len hs with ⟨k, -, hf, -, rfl, rfl⟩ | ⟨-, -, rfl, rfl⟩
  · have h1 := hf.1
    have h2 := (ie (k+3)).toNat_lt
    omega
  · omega

theorem tempIeBuffer_inside {x : List UInt8} {req : VendorIeReq} {index : ℕ}
    (hn : req.addIeLen ≤ VENDOR_IE_LEN) (hindex : index ≤ req.addIeLen+257) :
    (tempIeBuffer x req index).Inside ↔
      index ≤ req.addIeLen ∧ req.addIeLen+x.length < VENDOR_IE_LEN := by
  unfold tempIeBuffer
  rw [Buffer.inside_copyAt, Buffer.inside_storeAt, Buffer.inside_copyAt,
    and_iff_right Buffer.inside_fresh]
  change ((index+1 = 0 ∨ 0+(index+1) ≤ VENDOR_IE_LEN) ∧
    (x.length = 0 ∨ index+1+x.length ≤ VENDOR_IE_LEN)) ∧
    (memcpySize req.addIeLen index = 0 ∨
      index+1+x.length+memcpySize req.addIeLen index ≤ VENDOR_IE_LEN) ↔ _
  simp only [memcpySize, VENDOR_IE_LEN] at hn ⊢
  split <;> omega

/-- What an extension is inserted into stays inside exactly if the extension fits. -/
theorem insertData_inside {x : List UInt8} {req : VendorIeReq} (h : req.Inside)
    (hcap : req.ie.capacity = VENDOR_IE_LEN) :
    ((insertData x req).1.Inside ∧ ∀ temp ∈ (insertData x req).2, temp.Inside) ↔
      ExtensionFits req.ie.cell req.addIeLen x.length := by
  have hn : req.addIeLen ≤ VENDOR_IE_LEN := hcap ▸ h.addIeLen
  rw [ExtensionFits, ← search_none_iff, ← search_within, insertData]
  cases hs : search req.ie.cell req.addIeLen req.addIeLen 0 with
  | none =>
    exact ⟨fun _ => .inl rfl, fun _ => ⟨h, fun _ ht => absurd ht (Option.not_mem_none _)⟩⟩
  | some r =>
    obtain ⟨index, len⟩ := r
    have htemp := tempIeBuffer_inside (x := x) hn (search_bound hs)
    simp only [reduceCtorEq, false_or, Option.mem_def, Option.some.injEq, forall_eq']
    constructor
    · rintro ⟨-, ht⟩
      obtain ⟨hle, hlt⟩ := htemp.mp ht
      exact ⟨fun i l hil => by cases hil; exact hle, hlt⟩
    · rintro ⟨hle, hlt⟩
      refine ⟨⟨?_, ?_⟩, htemp.mpr ⟨hle index len rfl, hlt⟩⟩
      · refine Buffer.inside_put.mpr ⟨Buffer.inside_copyAt.mpr ⟨h.ie, .inr ?_⟩, ?_⟩
        · rw [hcap]
          omega
        · change 1 < req.ie.capacity
          rw [hcap]
          decide
      · change (req.addIeLen+x.length) % 2^16 ≤ req.ie.capacity
        rw [hcap]
        exact Nat.le_trans (Nat.mod_le ..) (Nat.le_of_lt hlt)

/-- An insertion writes at least what was written before it. -/
theorem insertData_before {x : List UInt8} {req : VendorIeReq}
    (h : (insertData x req).1.Inside) : req.ie.Inside := by
  have hie := h.ie
  rw [insertData] at hie
  split at hie
  · exact hie
  · exact (Buffer.inside_copyAt.mp (Buffer.inside_put.mp hie).1).1

/-- The elements fit into the message, and the extension behind them. -/
def ElementsFit (env : Env) (ie : List UInt8) : Prop :=
  ie.length ≤ VENDOR_IE_LEN ∧
    ∀ x, env.extension = some x → ExtensionFits (ieBuffer env ie).cell ie.length x.data.length

theorem vendorPart_inside (env : Env) (radio : Radio) (ie : List UInt8) :
    ((vendorPart env radio ie).1.Inside ∧ ∀ temp ∈ (vendorPart env radio ie).2, temp.Inside) ↔
      ElementsFit env ie := by
  unfold vendorPart ElementsFit
  cases env.extension with
  | none =>
    rw [vendorIeReq_inside]
    exact ⟨fun h => ⟨h.1, nofun⟩, fun h => ⟨h.1, fun _ ht => absurd ht (Option.not_mem_none _)⟩⟩
  | some x =>
    simp only [Option.some.injEq, forall_eq']
    by_cases hlen : ie.length ≤ VENDOR_IE_LEN
    · have hmod : (vendorIeReq env radio ie).addIeLen = ie.length :=
        Nat.mod_eq_of_lt (Nat.lt_of_le_of_lt hlen (by decide))
      rw [and_iff_right hlen, insertData_inside ((vendorIeReq_inside ..).mpr hlen) rfl, hmod]
      rfl
    · refine ⟨fun h => ?_, fun h => absurd h.1 hlen⟩
      exact absurd ((ieBuffer_inside env ie).mp (insertData_before h.1)) hlen

/-- The elements of the scan are reached, and fit. -/
def ScanFits (env : Env) (radio : Radio) (param : ScanParam) : Prop :=
  ∀ ie, param.ie = some ie → env.reqAlloc → env.ieAlloc →
    ¬ Refused env (param.ssids.take SCAN_SSID_MAX) radio → ElementsFit env ie

/-- A scan request is built inside its messages exactly if its elements fit. -/
theorem sendScanuReq_inside (env : Env) (radio : Radio) (param : ScanParam) :
    (sendScanuReq env radio param).Inside ↔ ScanFits env radio param := by
  have hstart := startReq_inside radio param
  have htake : param.ssids.take (startReq radio param).ssidCnt =
      param.ssids.take SCAN_SSID_MAX := List.take_eq_take_min.symm
  have hloop := ssidLoop_inside env (param.ssids.take SCAN_SSID_MAX) 0 (startReq radio param) radio
    hstart (by rw [List.length_take, Nat.zero_add]; exact Nat.min_le_left ..)
  have herror := ssidLoop_error_iff env (param.ssids.take SCAN_SSID_MAX) 0 (startReq radio param)
    radio
  unfold sendScanuReq ScanFits
  by_cases hreq : env.reqAlloc
  · simp only [hreq, if_true, forall_const, htake]
    generalize ssidLoop env 0 (param.ssids.take SCAN_SSID_MAX) (startReq radio param) radio = r
      at hloop herror
    obtain ⟨req, e | radio'⟩ := r
    · have hrefused := herror.mp ⟨e, rfl⟩
      exact ⟨fun _ _ _ _ hno => absurd hrefused hno, fun _ => ⟨by simp [hloop.1], by simp, by simp⟩⟩
    · have hno : ¬ Refused env (param.ssids.take SCAN_SSID_MAX) radio := by
        rw [← herror]
        exact fun ⟨_, h⟩ => (nomatch h)
      have hchan := channelPart_inside hloop.1 param
      cases hie : param.ie with
      | none => exact ⟨fun _ => nofun, fun _ => ⟨by simp [hchan], by simp, by simp⟩⟩
      | some ie =>
        by_cases halloc : env.ieAlloc
        · simp only [halloc, if_true, forall_const, Option.some.injEq, forall_eq', hno,
            not_false_eq_true]
          rw [← vendorPart_inside env radio' ie]
          by_cases hsend : env.sendIeFails
          · simp only [hsend, if_true]
            exact ⟨fun h => ⟨h.vendorIe _ rfl, h.tempIe⟩,
              fun h => ⟨by simp [hloop.1], by simp [h.1], h.2⟩⟩
          · simp only [hsend]
            exact ⟨fun h => ⟨h.vendorIe _ rfl, h.tempIe⟩,
              fun h => ⟨by simp [hchan], by simp [h.1], h.2⟩⟩
        · simp only [halloc]
          exact ⟨fun _ => nofun, fun _ => ⟨by simp [hloop.1], by simp, by simp⟩⟩
  · simp only [hreq]
    exact ⟨fun _ _ _ => nofun, fun _ => ⟨by simp, by simp, by simp⟩⟩

end AIC.ScanRequest
