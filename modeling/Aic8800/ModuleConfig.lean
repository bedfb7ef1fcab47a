import Aic8800.KeyValue

/-!
# The configuration of a module

`rwnx_plat_userconfig_parsing` cuts a copy of a file into lines and stores the number that a line
assigns into the field of `nvram_info` with the name of its key.
-/

set_option autoImplicit false

namespace AIC.ModuleConfig
open AIC.PowerTableParser AIC.KeyValue Lib.CheckedBuffer Lib.StringBuffer Lib.ByteText
open Lib.FlatMemory

/-! ## The tables -/

/-- The offsets of the parts of `nvram_info_t`, whose fields are bytes. -/
def TXPWR_IDX : ℕ := 0
def TXPWR_OFST : ℕ := 10
def XTAL_CAP : ℕ := 18
def NVRAM_SIZE : ℕ := 21

structure MatchNode where
  offset : ℕ
  keyname : List UInt8

def node (offset : ℕ) (keyname : String) : MatchNode := ⟨offset, ascii keyname⟩

def parseMatchTab : List MatchNode :=
  [node TXPWR_IDX "enable",
   node (TXPWR_IDX+1) "dsss",
   node (TXPWR_IDX+2) "ofdmlowrate_2g4",
   node (TXPWR_IDX+3) "ofdm64qam_2g4",
   node (TXPWR_IDX+4) "ofdm256qam_2g4",
   node (TXPWR_IDX+5) "ofdm1024qam_2g4",
   node (TXPWR_IDX+6) "ofdmlowrate_5g",
   node (TXPWR_IDX+7) "ofdm64qam_5g",
   node (TXPWR_IDX+8) "ofdm256qam_5g",
   node (TXPWR_IDX+9) "ofdm1024qam_5g",
   node TXPWR_OFST "ofst_enable",
   node (TXPWR_OFST+1) "ofst_chan_1_4",
   node (TXPWR_OFST+2) "ofst_chan_5_9",
   node (TXPWR_OFST+3) "ofst_chan_10_13",
   node (TXPWR_OFST+4) "ofst_chan_36_64",
   node (TXPWR_OFST+5) "ofst_chan_100_120",
   node (TXPWR_OFST+6) "ofst_chan_122_140",
   node (TXPWR_OFST+7) "ofst_chan_142_165",
   node XTAL_CAP "xtal_enable",
   node (XTAL_CAP+1) "xtal_cap",
   node (XTAL_CAP+2) "xtal_cap_fine"]

/-- The entries of `parse_key_prefix` that are not set are null, which `sprintf` writes out. -/
def parseKeyPrefix (vendorInfo : UInt8) : List UInt8 :=
  if vendorInfo = 0x01 then ascii "module0_"
  else if vendorInfo = 0x21 then ascii "module1_"
  else ascii "(null)"

/-- Module 0 stands for the vendors that are not supported. -/
def usedVendor (vendorInfo : UInt8) : UInt8 :=
  if vendorInfo = 0x00 ∨ 0x21 < vendorInfo then 0x01 else vendorInfo

def CONF_SIZE : ℕ := 100
def KEYNAME_SIZE : ℕ := 64

/-! ## One line -/

/-- What was done for a line with a key: where the value was found, what of it was read, and
`nvram_info` before and after. -/
structure Stored where
  line : List UInt8
  key : List UInt8
  offset : ℕ
  dst : ℕ
  last : ℕ
  conf : List UInt8
  before : ℕ → UInt8
  after : ℕ → UInt8

/-- The variables of the loop, `nvram_info`, and the lines with a key that were met. -/
structure Config where
  conf : Buffer UInt8
  keyname : Buffer UInt8
  val : UInt32
  nvram : Buffer UInt8
  stored : List Stored

/-- An `unsigned long` of the 32-bit processor in memory. -/
def longBytes (val : UInt32) : List UInt8 :=
  [val.toUInt8, (val >>> 8).toUInt8, (val >>> 16).toUInt8, (val >>> 24).toUInt8]

variable (kstrtol : List UInt8 → Option UInt32)

/-- The number is written over the field, or the one before where `kstrtol` gives an error. -/
def storeVal (line key : List UInt8) (r : MatchNode) (v : Value) (s : Config) : Config :=
  let conf := str v.val
  let val := (kstrtol conf).getD s.val
  let nvram := s.nvram.storeAt r.offset (longBytes val)
  { s with
    conf := v.val
    val := val
    nvram := nvram
    stored := s.stored++
      [⟨line, key, r.offset, v.dst, v.last, conf, s.nvram.cell, nvram.cell⟩] }

/-- The loop over the keys, where `mem` is the memory from the line on. -/
def matchKeys (keyPrefix mem : List UInt8) : List MatchNode → Config → Option Config
  | [], s => some s
  | r::rs, s => do
    let s := { s with keyname := s.keyname.storeAt 0 (keyPrefix++r.keyname++[0]) }
    match ← parseKeyVal mem (str s.keyname) s.conf with
    | none => matchKeys keyPrefix mem rs s
    | some v => return storeVal kstrtol (cString mem) (str s.keyname) r v s

/-! ## The lines -/

/-- `while (*buffer != '\r' && *buffer != '\n' && *buffer != 0 && len++ < size) buffer++`, where
`len` may still be counted up `k` times. -/
def findEnd (data : List UInt8) : ℕ → ℕ → ℕ → Option (ℕ × ℕ)
  | 0, buffer, len => do
    let c ← data[buffer]?
    return (buffer, if isEnd c || c == 0 then len else len+1)
  | k+1, buffer, len => do
    let c ← data[buffer]?
    if isEnd c || c == 0 then return (buffer, len) else findEnd data k (buffer+1) (len+1)

/-- `while ((*buffer == '\r' || *buffer == '\n') && len++ < size) *buffer++ = 0`. -/
def clearEnds : List UInt8 → ℕ → ℕ → ℕ → Option (List UInt8 × ℕ × ℕ)
  | data, 0, buffer, len => do
    let c ← data[buffer]?
    return (data, buffer, if isEnd c then len+1 else len)
  | data, k+1, buffer, len => do
    let c ← data[buffer]?
    if isEnd c then clearEnds (data.set buffer 0) k (buffer+1) (len+1)
    else return (data, buffer, len)

/-- The variables of the loop over the lines. -/
structure Parsing where
  data : List UInt8
  buffer : ℕ
  len : ℕ
  config : Config

/-- The line at `buffer` is given its end. -/
def cutLine (size : ℕ) (data : List UInt8) (buffer len : ℕ) : Option (List UInt8 × ℕ × ℕ) := do
  let (buffer, len) ← findEnd data (size-len) buffer len
  let (data, buffer, len) ← clearEnds data (size-len) buffer len
  if size ≤ len then
    if buffer < data.length then some (data.set buffer 0, buffer, len) else none
  else some (data, buffer, len)

/-- One turn. -/
def turn (keyPrefix : List UInt8) (size : ℕ) (s : Parsing) : Option Parsing := do
  let (data, buffer, len) ← cutLine size s.data s.buffer s.len
  let config ← matchKeys kstrtol keyPrefix (data.drop s.buffer) parseMatchTab s.config
  return ⟨data, buffer, len, config⟩

def parseLines (keyPrefix : List UInt8) (size : ℕ) : ℕ → Parsing → Option Parsing
  | 0, _ => none
  | fuel+1, s => do
    if (← s.data[s.buffer]?) = 0 then
      return s
    parseLines keyPrefix size fuel (← turn kstrtol keyPrefix size s)

/-- What is left behind `rwnx_plat_userconfig_parsing`. -/
structure Outcome where
  vendorInfo : UInt8
  config : Config

/-- `spare` is the byte that `vmalloc` gives behind the copy of the file, if it gives any. There
is no outcome where memory outside the copy is looked at or written, or where the loop does not
end with the file. -/
def userconfigParsing (vendorInfo : UInt8) (file : List UInt8) (spare : Option UInt8)
    (config : Config) : Option Outcome :=
  if file = [] then some ⟨vendorInfo, config⟩
  else
    match spare with
    | none => some ⟨usedVendor vendorInfo, config⟩
    | some g => do
      let s ← parseLines kstrtol (parseKeyPrefix (usedVendor vendorInfo)) file.length
        (file.length+1) ⟨file++[g], 0, 0, config⟩
      return ⟨usedVendor vendorInfo, s.config⟩

end AIC.ModuleConfig
