import Aic8800.Lib.ByteText
import Aic8800.Lib.ResourceRun

/-!
# Vendor commands

The handlers of `aicwf_vendor_cmd`. What they touch, allocate and give back is a list of events.
-/

set_option autoImplicit false

namespace AIC.VendorCommand
open Lib.ByteText Lib.ResourceRun

/-! ## Attributes -/

structure Attr where
  type : ℕ
  payload : List UInt8

def Attr.len (a : Attr) : ℕ := a.payload.length

/-- The value of an attribute of `n` bytes. -/
def Attr.value (a : Attr) (n : ℕ) : ℕ :=
  (a.payload.take n).foldr (fun b v => b.toNat+256*v) 0

/-- `struct nla_policy`. `msecs` has the least length. -/
inductive Policy where
  | unspec | u8 | u16 | u32 | binary | string | msecs (len : ℕ)
  deriving DecidableEq

/-- The lengths that the validation of attributes lets through. -/
def Policy.allows : Policy → ℕ → Bool
  | .unspec, _ | .binary, _ => true
  | .u8, n => n = 1
  | .u16, n => n = 2
  | .u32, n => n = 4
  | .string, n => 1 ≤ n
  | .msecs len, n => (if len = 0 then 8 else len) ≤ n

def ETH_ALEN : ℕ := 6

inductive MkeepAliveAttribute where
  | id | ipPkt | ipPktLen | srcMacAddr | dstMacAddr | periodMsec
  deriving DecidableEq

def MkeepAliveAttribute.ofType : ℕ → Option MkeepAliveAttribute
  | 1 => some .id
  | 2 => some .ipPkt
  | 3 => some .ipPktLen
  | 4 => some .srcMacAddr
  | 5 => some .dstMacAddr
  | 6 => some .periodMsec
  | _ => none

def aicwfCfg80211MkeepAlivePolicy (type : ℕ) : Policy :=
  match MkeepAliveAttribute.ofType type with
  | some .id => .u8
  | some .ipPkt => .msecs 0
  | some .ipPktLen => .u16
  | some .srcMacAddr | some .dstMacAddr => .msecs ETH_ALEN
  | some .periodMsec => .u32
  | none => .unspec

inductive LoggerAttribute where
  | driverVer | fwVer | ringName | ringFlags | logLevel | logTimeIntval | logMinDataSize
  deriving DecidableEq

def LoggerAttribute.ofType : ℕ → Option LoggerAttribute
  | 1 => some .driverVer
  | 2 => some .fwVer
  | 4 => some .ringName
  | 5 => some .ringFlags
  | 6 => some .logLevel
  | 7 => some .logTimeIntval
  | 8 => some .logMinDataSize
  | _ => none

def LOGGER_ATTRIBUTE_RING_STATUS : ℕ := 12
def LOGGER_ATTRIBUTE_RING_NUM : ℕ := 13

def aicwfCfg80211LoggerPolicy (type : ℕ) : Policy :=
  match LoggerAttribute.ofType type with
  | some .driverVer | some .fwVer => .binary
  | some .ringName => .string
  | some _ => .u32
  | none => .unspec

def GSCAN_ATTRIBUTE_BAND : ℕ := 12
def GSCAN_ATTRIBUTE_NUM_CHANNELS : ℕ := 36
def GSCAN_ATTRIBUTE_CHANNEL_LIST : ℕ := 37

def aicwfCfg80211SubcmdPolicy (type : ℕ) : Policy :=
  if type = GSCAN_ATTRIBUTE_BAND then .u32 else .unspec

def ANDR_WIFI_ATTRIBUTE_NUM_FEATURE_SET : ℕ := 0
def ANDR_WIFI_ATTRIBUTE_COUNTRY : ℕ := 4

def aicwfCfg80211AndrWifiPolicy (type : ℕ) : Policy :=
  if type = ANDR_WIFI_ATTRIBUTE_COUNTRY then .string else .unspec

def WIFI_VENDOR_ATTR_DRIVER_MAC_ADDR : ℕ := 3

def aicwfCfg80211SubcmdSetMacPolicy (type : ℕ) : Policy :=
  if type = WIFI_VENDOR_ATTR_DRIVER_MAC_ADDR then .msecs ETH_ALEN else .unspec

def WAKE_STAT_ATTRIBUTE_TOTAL_CMD_EVENT : ℕ := 0

/-- Attributes that the validation lets through, in any order. -/
structure Received (policy : ℕ → Policy) where
  attrs : List Attr
  allowed : ∀ a ∈ attrs, (policy a.type).allows a.len = true

/-! ## Events -/

/-- What can be allocated. Packets and replies have numbers. -/
inductive Ptr where
  | ipPkt (n : ℕ) | data | channelList | reply (n : ℕ)
  deriving DecidableEq

inductive Payload where
  | word (v : ℕ) | list (vs : List ℕ) | bytes (bs : List UInt8)

/-- `read` and `write` have the end of what is touched and the size of its object, `use` whether the
variable has been set. `reply` hands a reply over. -/
inductive Event where
  | read (upTo size : ℕ)
  | write (upTo size : ℕ)
  | use (isSet : Bool)
  | alloc (p : Ptr)
  | free (p : Ptr)
  | put (type : ℕ) (v : Payload)
  | reply (n : ℕ)

def Event.change : Event → Change Ptr
  | .alloc p => .take p
  | .free p => .give p
  | .reply n => .give (.reply n)
  | _ => .keep

/-- The results of the calls: of each `kzalloc` by its number, of the allocation of a reply, of each
attribute that is put into it, and of handing it over. -/
structure Kernel where
  kzalloc : ℕ → Bool
  reply : ℕ → Bool
  put : ℕ → ℕ → Bool
  send : ℕ → ℤ

structure Band where
  table : List ℕ
  nChannels : ℕ
  holds : nChannels ≤ table.length

structure Device where
  fwVersion : List UInt8
  fwVersionSize : fwVersion.length = 32
  band2GHz : Band
  band5GHz : Band
  band5gSupport : Bool
  interfaceModes : BitVec 16
  iftype : ℕ

def EINVAL : ℤ := 22
def ENOMEM : ℤ := 12
def EMSGSIZE : ℤ := 90

def NL80211_IFTYPE_STATION : ℕ := 2
def NL80211_IFTYPE_AP : ℕ := 3
def NL80211_IFTYPE_P2P_CLIENT : ℕ := 8
def NL80211_IFTYPE_P2P_GO : ℕ := 9

/-- Up to and with the zero behind a string, or past the end without one. -/
def strEnd (bytes : List UInt8) : ℕ := (cString bytes).length+1

/-! ## Replies -/

inductive Sent where
  | noMemory | putFailed | sent (ret : ℤ)

def putAll (k : Kernel) (n : ℕ) : ℕ → List (ℕ × Payload) → List Event × Sent
  | _, [] => ([.reply n], .sent (k.send n))
  | j, (type, v)::rest =>
    if k.put n j then (.put type v::(putAll k n (j+1) rest).1, (putAll k n (j+1) rest).2)
    else ([], .putFailed)

/-- From `cfg80211_vendor_cmd_alloc_reply_skb` to `cfg80211_vendor_cmd_reply`. -/
def sendReply (k : Kernel) (n : ℕ) (attrs : List (ℕ × Payload)) : List Event × Sent :=
  if k.reply n then (.alloc (.reply n)::(putAll k n 0 attrs).1, (putAll k n 0 attrs).2)
  else ([], .noMemory)

/-- A handler that only replies. -/
def replyOnly (k : Kernel) (attrs : List (ℕ × Payload)) : List Event × ℤ :=
  match sendReply k 0 attrs with
  | (es, .noMemory) => (es, -ENOMEM)
  | (es, .putFailed) => (es++[.free (.reply 0)], -EMSGSIZE)
  | (es, .sent ret) => (es, ret)

/-! ## Keep alive packets -/

def MKEEP_ALIVE_IP_PKT_MAX : ℕ := 256

/-- `allocs` counts the calls of `kzalloc`, `ipPkt` has the number of the packet and its size. -/
structure KeepState where
  allocs : ℕ
  mkeepAliveId : ℕ
  ipPkt : Option (ℕ × ℕ)
  ipPktLen : ℕ
  srcMac : Option (List UInt8)
  dstMac : Option (List UInt8)
  periodMsec : ℕ

def KeepState.init : KeepState := ⟨0, 0, none, 0, none, none, 0⟩

/-- `exit:` -/
def KeepState.exit (s : KeepState) : List Event :=
  match s.ipPkt with
  | none => []
  | some (n, _) => [.free (.ipPkt n)]

/-- A packet that cannot be allocated has left `ip_pkt` NULL. -/
def keepStep (k : Kernel) (s : KeepState) (a : Attr) : List Event × (KeepState ⊕ ℤ) :=
  match MkeepAliveAttribute.ofType a.type with
  | some .id => ([.read 1 a.len], .inl { s with mkeepAliveId := a.value 1 })
  | some .ipPktLen =>
    if MKEEP_ALIVE_IP_PKT_MAX < a.value 2 then (.read 2 a.len::s.exit, .inr (-EINVAL))
    else ([.read 2 a.len], .inl { s with ipPktLen := a.value 2 })
  | some .ipPkt =>
    if s.ipPktLen = 0 then (s.exit, .inr (-EINVAL))
    else if k.kzalloc s.allocs then
      ([.alloc (.ipPkt s.allocs), .read s.ipPktLen a.len, .write s.ipPktLen s.ipPktLen],
        .inl { s with allocs := s.allocs+1, ipPkt := some (s.allocs, s.ipPktLen) })
    else ([], .inr (-ENOMEM))
  | some .srcMacAddr =>
    ([.read 6 a.len, .write 6 6], .inl { s with srcMac := some (a.payload.take 6) })
  | some .dstMacAddr =>
    ([.read 6 a.len, .write 6 6], .inl { s with dstMac := some (a.payload.take 6) })
  | some .periodMsec => ([.read 4 a.len], .inl { s with periodMsec := a.value 4 })
  | none => (s.exit, .inr (-EINVAL))

/-- `size` is that of the object behind `ip_pkt`. -/
def aicDevStartMkeepAlive (k : Kernel) (s : KeepState) (size : ℕ) : List Event × ℤ :=
  if k.kzalloc s.allocs then
    let whole := s.ipPktLen+14
    ([.alloc .data, .use s.dstMac.isSome, .write 6 whole, .use s.srcMac.isSome, .write 12 whole,
      .write 14 whole, .read s.ipPktLen size, .write (14+s.ipPktLen) whole, .free .data], 0)
  else ([], -ENOMEM)

def keepAfter (k : Kernel) (s : KeepState) : List Event × ℤ :=
  match s.ipPkt with
  | none => ([], -EINVAL)
  | some (_, size) =>
    ((aicDevStartMkeepAlive k s size).1++s.exit, (aicDevStartMkeepAlive k s size).2)

def aicwfVendorStartMkeepAlive (k : Kernel) (attrs : List Attr) : List Event × ℤ :=
  loop (keepStep k) (keepAfter k) .init attrs

/-- An unknown attribute does not end this loop. -/
def stopStep (mkeepAliveId : ℕ) (a : Attr) : List Event × (ℕ ⊕ ℤ) :=
  match MkeepAliveAttribute.ofType a.type with
  | some .id => ([.read 1 a.len], .inl (a.value 1))
  | _ => ([], .inl mkeepAliveId)

def aicwfVendorStopMkeepAlive (d : Device) (attrs : List Attr) : List Event × ℤ :=
  loop stopStep (fun _ => ([], if d.iftype ≠ NL80211_IFTYPE_STATION then -1 else 0)) 0 attrs

/-! ## Versions -/

/-- With the zero at its end. -/
def RWNX_VERS_BANNER : List UInt8 := ascii "rwnx v6.4.3.0 - - 241c091M (master)"++[0]

/-- `version` are the bytes of the array that have been set, from its first on. -/
structure VerState where
  version : List UInt8
  payload : ℕ
  attr : Option ℕ

/-- `memcpy` into `version` and `strlen` of it. -/
def VerState.copy (s : VerState) (src : List UInt8) (attr : ℕ) : List Event × (VerState ⊕ ℤ) :=
  let version := src++s.version.drop src.length
  ([.read src.length src.length, .write src.length 128, .use (decide (0 ∈ version))],
    .inl ⟨version, (cString version).length, some attr⟩)

def verStep (d : Device) (s : VerState) (a : Attr) : List Event × (VerState ⊕ ℤ) :=
  match LoggerAttribute.ofType a.type with
  | some .driverVer => s.copy RWNX_VERS_BANNER a.type
  | some .fwVer => s.copy d.fwVersion a.type
  | _ => ([], .inr (-EINVAL))

def verAfter (k : Kernel) (s : VerState) : List Event × ℤ :=
  match s.attr with
  | none => ([], -EINVAL)
  | some attr => replyOnly k [(attr, .bytes (s.version.take s.payload))]

def aicwfVendorGetVer (d : Device) (k : Kernel) (attrs : List Attr) : List Event × ℤ :=
  loop (verStep d) (verAfter k) ⟨[], 0, none⟩ attrs

/-! ## The list of channels -/

def Device.numChannels (d : Device) : ℕ :=
  d.band2GHz.nChannels+if d.band5gSupport then d.band5GHz.nChannels else 0

/-- The loop over `channels[i]` of a band, from `i = start` on. -/
def fillEvents (b : Band) (num start count : ℕ) : List Event :=
  (List.range' start count).flatMap fun i => [.read (i+1) b.table.length, .write (i+1) num]

def fillValues (b : Band) (start count : ℕ) : List ℕ :=
  (List.range' start count).map fun i => b.table.getD i 0

/-- The second loop goes on with the `i` of the first. -/
def Device.fill (d : Device) : List Event :=
  fillEvents d.band2GHz d.numChannels 0 d.band2GHz.nChannels++
    if d.band5gSupport then
      fillEvents d.band5GHz d.numChannels d.band2GHz.nChannels d.band5GHz.nChannels
    else []

def Device.channelList (d : Device) : List ℕ :=
  fillValues d.band2GHz 0 d.band2GHz.nChannels++
    if d.band5gSupport then fillValues d.band5GHz d.band2GHz.nChannels d.band5GHz.nChannels else []

/-- The state has the number of the next reply and `ret`. -/
def listStep (d : Device) (k : Kernel) (s : ℕ × ℤ) (a : Attr) : List Event × (ℕ × ℤ ⊕ ℤ) :=
  if a.type = GSCAN_ATTRIBUTE_BAND then
    match sendReply k s.1 [(GSCAN_ATTRIBUTE_NUM_CHANNELS, .word d.numChannels),
        (GSCAN_ATTRIBUTE_CHANNEL_LIST, .list d.channelList)] with
    | (es, .noMemory) => (es, .inr (-ENOMEM))
    | (es, .putFailed) => (es++[.free .channelList, .free (.reply s.1)], .inr (-EMSGSIZE))
    | (es, .sent ret) => (es, .inl (s.1+1, ret))
  else ([], .inr (-EINVAL))

def listAfter (s : ℕ × ℤ) : List Event × ℤ := ([.free .channelList], s.2)

def aicwfVendorSubcmdGetChannelList (d : Device) (k : Kernel) (attrs : List Attr) :
    List Event × ℤ :=
  if k.kzalloc 0 then
    let run := loop (listStep d k) listAfter (0, 0) attrs
    (.alloc .channelList::d.fill++run.1, run.2)
  else ([], -ENOMEM)

/-! ## The other commands -/

/-- `printk("%s")` of the payload. -/
def countryStep (_ : Unit) (a : Attr) : List Event × (Unit ⊕ ℤ) :=
  if a.type = ANDR_WIFI_ATTRIBUTE_COUNTRY then ([.read (strEnd a.payload) a.len], .inl ())
  else ([], .inr (-EINVAL))

def aicwfVendorSubcmdSetCountryCode (attrs : List Attr) : List Event × ℤ :=
  loop countryStep (fun _ => ([], 0)) () attrs

def WIFI_FEATURE_INFRA : ℕ := 0x0001
def WIFI_FEATURE_INFRA_5G : ℕ := 0x0002
def WIFI_FEATURE_HOTSPOT : ℕ := 0x0004
def WIFI_FEATURE_P2P : ℕ := 0x0008
def WIFI_FEATURE_SOFT_AP : ℕ := 0x0010
def WIFI_FEATURE_LOGGER : ℕ := 0x20000
def WIFI_FEATURE_MKEEP_ALIVE : ℕ := 0x100000

def Device.mode (d : Device) (iftype : ℕ) : Bool := d.interfaceModes.getLsbD iftype

def Device.feature (d : Device) : ℕ :=
  (if d.mode NL80211_IFTYPE_STATION then WIFI_FEATURE_INFRA else 0) |||
  (if d.band5gSupport then WIFI_FEATURE_INFRA_5G else 0) ||| WIFI_FEATURE_HOTSPOT |||
  (if d.mode NL80211_IFTYPE_P2P_CLIENT && d.mode NL80211_IFTYPE_P2P_GO then WIFI_FEATURE_P2P
    else 0) |||
  (if d.mode NL80211_IFTYPE_AP then WIFI_FEATURE_SOFT_AP else 0) ||| WIFI_FEATURE_LOGGER |||
  WIFI_FEATURE_MKEEP_ALIVE

def aicwfVendorSubcmdGetFeatureSet (d : Device) (k : Kernel) : List Event × ℤ :=
  replyOnly k [(ANDR_WIFI_ATTRIBUTE_NUM_FEATURE_SET, .word d.feature)]

def WIFI_LOGGER_MEMORY_DUMP_SUPPORTED : ℕ := 1
def WIFI_LOGGER_CONNECT_EVENT_SUPPORTED : ℕ := 4
def WIFI_LOGGER_WAKE_LOCK_SUPPORTED : ℕ := 16

def aicwfVendorLoggerGetFeature (k : Kernel) : List Event × ℤ :=
  replyOnly k [(ANDR_WIFI_ATTRIBUTE_NUM_FEATURE_SET, .word (WIFI_LOGGER_MEMORY_DUMP_SUPPORTED |||
    WIFI_LOGGER_CONNECT_EVENT_SUPPORTED ||| WIFI_LOGGER_WAKE_LOCK_SUPPORTED))]

/-- `ring_buffer[0].name`, up to its zero. -/
def ringBufferName : List UInt8 := ascii "aicwf_ring_buffer0"

/-- The name in its 32 bytes, and seven words that are zero. -/
def ringBuffer : List UInt8 :=
  ringBufferName++List.replicate (32-ringBufferName.length) 0++List.replicate 28 0

def aicwfVendorLoggerGetRingStatus (k : Kernel) : List Event × ℤ :=
  replyOnly k [(LOGGER_ATTRIBUTE_RING_NUM, .word 1),
    (LOGGER_ATTRIBUTE_RING_STATUS, .bytes ringBuffer)]

/-- `wake_reason_cnt.total_cmd_event_wake` -/
def totalCmdEventWake : ℕ := 10

def aicwfVendorLoggerGetWakeReasonStats (k : Kernel) : List Event × ℤ :=
  replyOnly k [(WAKE_STAT_ATTRIBUTE_TOTAL_CMD_EVENT, .word totalCmdEventWake)]

/-- The loops of the two ring commands. `words` are the attributes with a word, and the state is the
name, if it has been set. -/
def ringStep (words : List LoggerAttribute) (s : Option (List UInt8)) (a : Attr) :
    List Event × (Option (List UInt8) ⊕ ℤ) :=
  match LoggerAttribute.ofType a.type with
  | none => ([], .inr (-EINVAL))
  | some t =>
    if t = .ringName then
      ([.read (strEnd a.payload) a.len, .write (strEnd a.payload) 32],
        .inl (some (cString a.payload)))
    else if t ∈ words then ([.read 4 a.len], .inl s)
    else ([], .inr (-EINVAL))

/-- `strcmp(rb.name, ring_buffer[i].name)` -/
def ringAfter (s : Option (List UInt8)) : List Event × ℤ :=
  ([.use s.isSome], if s = some ringBufferName then 0 else -EINVAL)

def aicwfVendorLoggerStartLogging (attrs : List Attr) : List Event × ℤ :=
  loop (ringStep [.logLevel, .ringFlags, .logTimeIntval, .logMinDataSize]) ringAfter none attrs

def aicwfVendorLoggerGetRingData (attrs : List Attr) : List Event × ℤ :=
  loop (ringStep []) ringAfter none attrs

/-- The address is printed where it is read. -/
def macStep (_ : Unit) (a : Attr) : List Event × (Unit ⊕ ℤ) :=
  if a.type = WIFI_VENDOR_ATTR_DRIVER_MAC_ADDR then
    ([.read ETH_ALEN a.len, .write ETH_ALEN ETH_ALEN, .read ETH_ALEN ETH_ALEN], .inl ())
  else ([], .inr (-EINVAL))

def aicwfVendorSubCmdSetMac (attrs : List Attr) : List Event × ℤ :=
  loop macStep (fun _ => ([], 0)) () attrs

/-! ## `aicwf_vendor_cmd` -/

inductive Command where
  | startMkeepAlive | stopMkeepAlive | getVer | getChannelList | setCountryCode
  | triggerMemoryDump | getFeatureSet | loggerGetFeature | getRingStatus | startLogging
  | getRingData | getWakeReasonStats | apfGetCapabilities | setMac
  deriving DecidableEq

/-- Data that is raw is not looked at. -/
def Command.policy : Command → ℕ → Policy
  | .startMkeepAlive | .stopMkeepAlive => aicwfCfg80211MkeepAlivePolicy
  | .getVer | .startLogging | .getRingData => aicwfCfg80211LoggerPolicy
  | .getChannelList => aicwfCfg80211SubcmdPolicy
  | .setCountryCode => aicwfCfg80211AndrWifiPolicy
  | .setMac => aicwfCfg80211SubcmdSetMacPolicy
  | _ => fun _ => .unspec

def Command.doit (d : Device) (k : Kernel) : Command → List Attr → List Event × ℤ
  | .startMkeepAlive, attrs => aicwfVendorStartMkeepAlive k attrs
  | .stopMkeepAlive, attrs => aicwfVendorStopMkeepAlive d attrs
  | .getVer, attrs => aicwfVendorGetVer d k attrs
  | .getChannelList, attrs => aicwfVendorSubcmdGetChannelList d k attrs
  | .setCountryCode, attrs => aicwfVendorSubcmdSetCountryCode attrs
  | .triggerMemoryDump, _ => ([], 0)
  | .getFeatureSet, _ => aicwfVendorSubcmdGetFeatureSet d k
  | .loggerGetFeature, _ => aicwfVendorLoggerGetFeature k
  | .getRingStatus, _ => aicwfVendorLoggerGetRingStatus k
  | .startLogging, attrs => aicwfVendorLoggerStartLogging attrs
  | .getRingData, attrs => aicwfVendorLoggerGetRingData attrs
  | .getWakeReasonStats, _ => aicwfVendorLoggerGetWakeReasonStats k
  | .apfGetCapabilities, _ => ([], 0)
  | .setMac, attrs => aicwfVendorSubCmdSetMac attrs

/-! ## What is right -/

/-- The channels of the 2.4 GHz band and, where it is supported, of the 5 GHz band. -/
def Device.frequencies (d : Device) : List ℕ :=
  d.band2GHz.table.take d.band2GHz.nChannels++
    if d.band5gSupport then d.band5GHz.table.take d.band5GHz.nChannels else []

def Allowed (d : Device) : Event → Prop
  | .read upTo size | .write upTo size => upTo ≤ size
  | .use isSet => isSet = true
  | .put _ (.list vs) => vs = d.frequencies
  | _ => True

/-- It touches only what is there, uses only what is set, replies with the right channels, and ends
with nothing held. -/
def Safe (d : Device) (es : List Event) : Prop := Clean (Allowed d) Event.change [] [] es

/-! ## When it is -/

/-- `n` is the number of the next `kzalloc`, `len` the length that is announced, `size` that of the
packet that is there, `src` and `dst` say which addresses are. -/
def KeepFine (k : Kernel) (n len : ℕ) (size : Option ℕ) (src dst : Bool) : List Attr → Prop
  | [] => ∀ m, size = some m → k.kzalloc n = true → len ≤ m ∧ src = true ∧ dst = true
  | a::as =>
    match MkeepAliveAttribute.ofType a.type with
    | some .id | some .periodMsec => KeepFine k n len size src dst as
    | some .ipPktLen =>
      a.value 2 ≤ MKEEP_ALIVE_IP_PKT_MAX → KeepFine k n (a.value 2) size src dst as
    | some .ipPkt => len ≠ 0 → size = none ∧
        (k.kzalloc n = true → len ≤ a.len ∧ KeepFine k (n+1) len (some len) src dst as)
    | some .srcMacAddr => KeepFine k n len size true dst as
    | some .dstMacAddr => KeepFine k n len size src true as
    | none => True

/-- The text of the firmware ends, or the first attribute does not ask for it. -/
def VerFine (d : Device) (attrs : List Attr) : Prop :=
  0 ∈ d.fwVersion ∨ ∀ a as, attrs = a::as → LoggerAttribute.ofType a.type ≠ some .fwVer

/-- Every attribute that is reached asks for the list and gets its reply. -/
def Served (d : Device) (k : Kernel) : ℕ → List Attr → Prop
  | _, [] => True
  | n, a::as => a.type = GSCAN_ATTRIBUTE_BAND ∧ k.reply n = true ∧
      (k.put n 0 = true → k.put n 1 = true → d.channelList = d.frequencies ∧ Served d k (n+1) as)

/-- The 5 GHz channels are read behind as many others as the 2.4 GHz band has. -/
def ListFine (d : Device) (k : Kernel) (attrs : List Attr) : Prop :=
  k.kzalloc 0 = true →
    (d.band5gSupport = true → d.band5GHz.nChannels ≠ 0 →
      d.band2GHz.nChannels+d.band5GHz.nChannels ≤ d.band5GHz.table.length) ∧ Served d k 0 attrs

def CountryFine : List Attr → Prop
  | [] => True
  | a::as => a.type = ANDR_WIFI_ATTRIBUTE_COUNTRY → 0 ∈ a.payload ∧ CountryFine as

/-- Every name fits with its zero, and there is one if no attribute is unknown. -/
def RingFine (words : List LoggerAttribute) : Bool → List Attr → Prop
  | named, [] => named = true
  | named, a::as => ∀ t, LoggerAttribute.ofType a.type = some t →
      if t = .ringName then 0 ∈ a.payload.take 32 ∧ RingFine words true as
      else t ∈ words → RingFine words named as

def Command.Fine (d : Device) (k : Kernel) : Command → List Attr → Prop
  | .startMkeepAlive, attrs => KeepFine k 0 0 none false false attrs
  | .getVer, attrs => VerFine d attrs
  | .getChannelList, attrs => ListFine d k attrs
  | .setCountryCode, attrs => CountryFine attrs
  | .startLogging, attrs =>
    RingFine [.logLevel, .ringFlags, .logTimeIntval, .logMinDataSize] false attrs
  | .getRingData, attrs => RingFine [] false attrs
  | _, _ => True

end AIC.VendorCommand
