import Aic8800.CommandLine
import Aic8800.Lib.IndexedReads
import Mathlib.Data.Int.Notation
import Mathlib.Data.List.TakeWhile

/-!
# Private commands

`handle_private_cmd` of the SDIO build with the RF tests: the command named by the first argument
reads its parameters from `argv`, sends requests to the firmware and copies the confirmation.
-/

set_option autoImplicit false

namespace AIC.PrivateCommand
open AIC.CommandLine Lib.IndexedReads

inductive ChipId where
  | aic8801 | aic8800dc | aic8800dw | aic8800d80
  deriving DecidableEq

/-- What the driver knows: `gpioWakeup` is `CONFIG_GPIO_WAKEUP`, `rftestResult` the words of the
confirmation. -/
structure Platform where
  chipid : ChipId
  testmode : ℤ
  gpioWakeup : Bool
  rftestResult : ℕ → UInt32

def Platform.isDcDw (p : Platform) : Bool := p.chipid = .aic8800dc || p.chipid = .aic8800dw

/-- The requests of the RF tests. -/
inductive Rftest where
  | setTx | setTxstop | setTxtone | setRx | getRxResult | setRxstop | setRxmeter | setPower
  | setXtalCap | setXtalCapFine | getEfuse | setFreqCal | setFreqCalFine | getFreqCal
  | setMacAddr | getMacAddr | setVendorInfo | getVendorInfo | rdwrPwrmm | rdwrPwridx
  | rdwrPwrofst | rdwrDrvibit | rdwrEfusePwrofst | rdwrEfuseDrvibit | setPapr | setCobCal
  | getCobCalRes | setNotch | rdwrPwrofstfine | rdwrEfusePwrofstfine | rdwrEfuseSdiocfg
  deriving DecidableEq

/-- `RDWR_PWRLVL = RDWR_PWRIDX`. -/
def Rftest.rdwrPwrlvl : Rftest := .rdwrPwridx

inductive Request where
  | rftest (id : Rftest) (payload : List UInt8)
  | setLpLevel (level : UInt8)
  | wakeupReg (value : UInt8)

/-- The bytes of the confirmation that are copied into the command, and `bytes_written`. -/
structure Reply where
  copied : ℕ
  bytesWritten : ℤ
  deriving DecidableEq

def EINVAL : ℤ := 22

/-! ## Numbers -/

def isdigit (c : UInt8) : Bool := 0x30 ≤ c && c ≤ 0x39
def islower (c : UInt8) : Bool := 0x61 ≤ c && c ≤ 0x7a
def isupper (c : UInt8) : Bool := 0x41 ≤ c && c ≤ 0x5a
def isxdigit (c : UInt8) : Bool := isdigit c || 0x61 ≤ c && c ≤ 0x66 || 0x41 ≤ c && c ≤ 0x46

def digitValue (c : UInt8) : UInt32 :=
  if isdigit c then c.toUInt32-0x30
  else (if islower c then c-0x20 else c).toUInt32-0x41+10

def readDigits (base : UInt32) : List UInt8 → UInt32 → UInt32
  | [], result => result
  | c :: cp, result =>
    if isxdigit c && digitValue c < base then readDigits base cp (result*base+digitValue c)
    else result

/-- A leading `0` chooses the base, with `x` the base 16. -/
def chooseBase (cp : List UInt8) (base : UInt32) : List UInt8 × UInt32 :=
  match cp with
  | 0x30 :: cp =>
    if byteAt cp 0 = 0x78 ∧ isxdigit (byteAt cp 1) then (cp.drop 1, 16)
    else (cp, if base = 0 then 8 else base)
  | cp => (cp, if base = 0 then 10 else base)

def commandStrtoul (cp : List UInt8) (base : UInt32) : UInt32 :=
  match chooseBase cp base with
  | (0x2d :: cp, base) => 0-readDigits base cp 0
  | (cp, base) => readDigits base cp 0

/-! ## The commands -/

def ascii (text : String) : List UInt8 := text.toList.map fun c => UInt8.ofNat c.toNat

def tolower (c : UInt8) : UInt8 := if isupper c then c+0x20 else c

/-- `strcasecmp (a, b) == 0`. -/
def strcaseeq (a b : List UInt8) : Bool := a.map tolower == b.map tolower

inductive Command where
  | getRxResult | setTx | setTxstop | setTxtone | setRx | setRxstop | setRxMeter | setFreqCal
  | setFreqCalFine | getEfuse | setPower | setXtalCap | setXtalCapFine | setMacAddr | getMacAddr
  | setVendorInfo | getVendorInfo | getFreqCal | rdwrPwrmm | rdwrPwridx | rdwrPwrlvl
  | rdwrPwrofst | rdwrPwrofstfine | rdwrDrvibit | rdwrEfusePwrofst | rdwrEfuseDrvibit
  | rdwrEfusePwrofstfine | setPapr | setNotch | setCobCal | getCobCalRes | doCobTest
  | rdwrEfuseSdiocfg | setsuspendmode
  deriving DecidableEq

namespace Command

/-- In the order in which the names are compared. -/
def all : List Command :=
  [getRxResult, setTx, setTxstop, setTxtone, setRx, setRxstop, setRxMeter, setFreqCal,
   setFreqCalFine, getEfuse, setPower, setXtalCap, setXtalCapFine, setMacAddr, getMacAddr,
   setVendorInfo, getVendorInfo, getFreqCal, rdwrPwrmm, rdwrPwridx, rdwrPwrlvl, rdwrPwrofst,
   rdwrPwrofstfine, rdwrDrvibit, rdwrEfusePwrofst, rdwrEfuseDrvibit, rdwrEfusePwrofstfine,
   setPapr, setNotch, setCobCal, getCobCalRes, doCobTest, rdwrEfuseSdiocfg, setsuspendmode]

def text : Command → String
  | getRxResult => "GET_RX_RESULT"
  | setTx => "SET_TX"
  | setTxstop => "SET_TXSTOP"
  | setTxtone => "SET_TXTONE"
  | setRx => "SET_RX"
  | setRxstop => "SET_RXSTOP"
  | setRxMeter => "SET_RX_METER"
  | setFreqCal => "SET_FREQ_CAL"
  | setFreqCalFine => "SET_FREQ_CAL_FINE"
  | getEfuse => "GET_EFUSE"
  | setPower => "SET_POWER"
  | setXtalCap => "SET_XTAL_CAP"
  | setXtalCapFine => "SET_XTAL_CAP_FINE"
  | setMacAddr => "SET_MAC_ADDR"
  | getMacAddr => "GET_MAC_ADDR"
  | setVendorInfo => "SET_VENDOR_INFO"
  | getVendorInfo => "GET_VENDOR_INFO"
  | getFreqCal => "GET_FREQ_CAL"
  | rdwrPwrmm => "RDWR_PWRMM"
  | rdwrPwridx => "RDWR_PWRIDX"
  | rdwrPwrlvl => "RDWR_PWRLVL"
  | rdwrPwrofst => "RDWR_PWROFST"
  | rdwrPwrofstfine => "RDWR_PWROFSTFINE"
  | rdwrDrvibit => "RDWR_DRVIBIT"
  | rdwrEfusePwrofst => "RDWR_EFUSE_PWROFST"
  | rdwrEfuseDrvibit => "RDWR_EFUSE_DRVIBIT"
  | rdwrEfusePwrofstfine => "RDWR_EFUSE_PWROFSTFINE"
  | setPapr => "SET_PAPR"
  | setNotch => "SET_NOTCH"
  | setCobCal => "SET_COB_CAL"
  | getCobCalRes => "GET_COB_CAL_RES"
  | doCobTest => "DO_COB_TEST"
  | rdwrEfuseSdiocfg => "RDWR_EFUSE_SDIOCFG"
  | setsuspendmode => "SETSUSPENDMODE"

/-- The name chooses the command, which for the suspend mode needs `testmode == 0`. -/
def named (p : Platform) (name : List UInt8) (c : Command) : Bool :=
  strcaseeq name (ascii c.text) && (c != setsuspendmode || p.testmode == 0)

def lookup (p : Platform) (name : List UInt8) : Option Command := all.find? (named p name)

end Command

/-! ## The branches -/

/-- A branch reads arguments, sends requests and replies. -/
abbrev Branch := Reading Request Reply

/-- `bytes_written = n`, after as many bytes were copied. -/
def answer (n : ℕ) : Branch := pure ⟨n, n⟩

def finished : Branch := pure ⟨0, 0⟩
def einval : Branch := pure ⟨0, -EINVAL⟩

def request (id : Rftest) (payload : List UInt8) : Reading Request Unit :=
  send (.rftest id payload)

/-- A request without parameters, and the bytes of the confirmation that it copies. -/
def inquire (id : Rftest) (n : ℕ) : Branch := do
  request id []
  answer n

variable (p : Platform) (argc : ℕ) (argv : ℕ → Option (List UInt8))

def wordArg (i : ℕ) (base : UInt32) : Reading Request UInt32 := do
  let a ← fetch argv i
  pure (commandStrtoul a base)

def byteArg (i : ℕ) (base : UInt32) : Reading Request UInt8 := do
  let a ← fetch argv i
  pure (commandStrtoul a base).toUInt8

def u16Bytes (v : UInt32) : List UInt8 := [v.toUInt8, (v >>> 8).toUInt8]

def u32Bytes (v : UInt32) : List UInt8 := u16Bytes v++u16Bytes (v >>> 16)

def getRxResult : Branch := inquire .getRxResult 8

def txIntvUs : Reading Request UInt32 := if argc > 6 then wordArg argv 6 10 else pure 0

def setTx : Branch :=
  if argc < 6 then einval
  else do
    let chan ← byteArg argv 1 10
    let bw ← byteArg argv 2 10
    let mode ← byteArg argv 3 10
    let rate ← byteArg argv 4 10
    let length ← wordArg argv 5 10
    let txIntvUs ← txIntvUs argc argv
    request .setTx ([chan, bw, mode, rate]++u16Bytes length++u16Bytes txIntvUs)
    finished

def setTxstop : Branch := do
  request .setTxstop []
  finished

def toneFreq : Reading Request UInt8 := if argc = 3 then byteArg argv 2 10 else pure 0

def setTxtone : Branch :=
  if argc = 2 ∨ argc = 3 then do
    let func ← byteArg argv 1 16
    let freq ← toneFreq argc argv
    request .setTxtone ([func, freq].take (argc-1))
    finished
  else einval

def setRx : Branch :=
  if argc < 3 then einval
  else do
    let chan ← byteArg argv 1 10
    let bw ← byteArg argv 2 10
    request .setRx [chan, bw]
    finished

def setRxstop : Branch := do
  request .setRxstop []
  finished

def setRxMeter : Branch := do
  let freq ← wordArg argv 1 10
  request .setRxmeter (u32Bytes freq)
  finished

/-- One parameter, with the check that it is there. -/
def setByte (id : Rftest) (base : UInt32) : Branch :=
  if argc < 2 then einval
  else do
    let val ← byteArg argv 1 base
    request id [val]
    answer 4

def setFreqCal : Branch := setByte argc argv .setFreqCal 16
def setFreqCalFine : Branch := setByte argc argv .setFreqCalFine 16
def getEfuse : Branch := setByte argc argv .getEfuse 10
def setXtalCap : Branch := setByte argc argv .setXtalCap 10
def setXtalCapFine : Branch := setByte argc argv .setXtalCapFine 10

def setPower : Branch :=
  if p.chipid = .aic8801 then do
    let anaPwr ← byteArg argv 1 16
    let digPwr ← byteArg argv 2 16
    if anaPwr > 0xf ∨ digPwr > 0xf then einval
    else do
      request .setPower [anaPwr <<< 4 ||| digPwr]
      finished
  else do
    let anaPwr ← byteArg argv 1 10
    if anaPwr > 0x1e then einval
    else do
      request .setPower [anaPwr]
      finished

def setMacAddr : Branch :=
  if argc < 7 then einval
  else do
    let a5 ← byteArg argv 1 16
    let a4 ← byteArg argv 2 16
    let a3 ← byteArg argv 3 16
    let a2 ← byteArg argv 4 16
    let a1 ← byteArg argv 5 16
    let a0 ← byteArg argv 6 16
    request .setMacAddr [a0, a1, a2, a3, a4, a5]
    finished

def getMacAddr : Branch := inquire .getMacAddr 8

/-- The bytes of the vendor info. -/
def vendorInfoLen : ℕ := if p.isDcDw then 2 else 1

def setVendorInfo : Branch := do
  let vendorInfo ← byteArg argv 1 16
  request .setVendorInfo [vendorInfo]
  answer (vendorInfoLen p)

def getVendorInfo : Branch := inquire .getVendorInfo (vendorInfoLen p)
def getFreqCal : Branch := inquire .getFreqCal 4

def rdwrPwrmm : Branch :=
  if argc ≤ 1 then inquire .rdwrPwrmm 4
  else do
    let pwrmm ← byteArg argv 1 16
    request .rdwrPwrmm [if pwrmm ≠ 0 then 1 else 0]
    answer 4

def func : Reading Request UInt8 := if argc > 1 then byteArg argv 1 16 else pure 0

/-- Reads the values if `func` is 0 and otherwise writes some, if `write` finds its arguments. -/
def rdwr (id : Rftest) (maxFunc : UInt8) (write : UInt8 → Reading Request (Option (List UInt8)))
    (n : ℕ) : Branch := do
  let f ← func argc argv
  if f = 0 then inquire id n
  else if f ≤ maxFunc then do
    match ← write f with
    | some buf => do
      request id buf
      answer n
    | none => einval
  else einval

/-- A group and a value, if there are so many arguments. -/
def writePair (f : UInt8) : Reading Request (Option (List UInt8)) :=
  if argc > 3 then do
    let a ← byteArg argv 2 16
    let b ← byteArg argv 3 10
    pure (some [f, a, b])
  else pure none

def rdwrPwridx : Branch :=
  if p.chipid ≠ .aic8801 then einval
  else rdwr argc argv .rdwrPwridx 2 (writePair argc argv) 9

/-- All the levels of a group, from `argv[3 + idx]` on. -/
def levels : ℕ → ℕ → Reading Request (List UInt8)
  | _, 0 => pure []
  | idx, k+1 => do
    let pwrlvl ← byteArg argv (3+idx) 10
    let rest ← levels (idx+1) k
    pure (pwrlvl :: rest)

def writeLevel (f : UInt8) : Reading Request (Option (List UInt8)) :=
  if argc > 4 then do
    let grp ← byteArg argv 2 16
    if argc > 12 then do
      let all ← levels argv 0 (if grp = 1 then 10 else 12)
      pure (some (f :: grp :: all))
    else do
      let idx ← byteArg argv 3 10
      let pwrlvl ← byteArg argv 4 10
      pure (some [f, grp, idx, pwrlvl])
  else pure none

def rdwrPwrlvl : Branch :=
  if p.chipid = .aic8801 then einval
  else rdwr argc argv .rdwrPwrlvl 2 (writeLevel argc argv)
    (if p.chipid = .aic8800d80 then 6*12 else 3*12)

/-- An offset of a channel group, on the D80 with a rate type. -/
def writeOffset (f : UInt8) : Reading Request (Option (List UInt8)) :=
  if argc > 4 ∧ p.chipid = .aic8800d80 then do
    let type ← byteArg argv 2 16
    let chgrp ← byteArg argv 3 16
    let pwrofst ← byteArg argv 4 10
    pure (some [f, type, chgrp, pwrofst])
  else if p.chipid ≠ .aic8800d80 then writePair argc argv f
  else pure none

/-- The bytes of the offsets, `dcdw` of them on the chips with one band. -/
def offsetsLen (dcdw : ℕ) : ℕ :=
  if p.isDcDw then dcdw else if p.chipid = .aic8800d80 then 3*3+3*6 else 3+4

def rdwrPwrofst : Branch :=
  rdwr argc argv .rdwrPwrofst 2 (writeOffset p argc argv) (offsetsLen p 3)

def rdwrPwrofstfine : Branch := rdwr argc argv .rdwrPwrofstfine 2 (writePair argc argv) 7

/-- One value, if there are so many arguments. -/
def writeOne (f : UInt8) : Reading Request (Option (List UInt8)) :=
  if argc > 2 then do
    let ibit ← byteArg argv 2 16
    pure (some [f, ibit])
  else pure none

def rdwrDrvibit : Branch := rdwr argc argv .rdwrDrvibit 1 (writeOne argc argv) 16

def rdwrEfusePwrofst : Branch :=
  rdwr argc argv .rdwrEfusePwrofst 2 (writeOffset p argc argv) (offsetsLen p (3*2))

def rdwrEfuseDrvibit : Branch := rdwr argc argv .rdwrEfuseDrvibit 1 (writeOne argc argv) 4

def rdwrEfusePwrofstfine : Branch :=
  rdwr argc argv .rdwrEfusePwrofstfine 2 (writePair argc argv) (if p.isDcDw then 6 else 7)

/-- A switch, which replies nothing. -/
def setSwitch (id : Rftest) : Branch :=
  if argc > 1 then do
    let func ← byteArg argv 1 10
    request id [func]
    finished
  else einval

def setPapr : Branch := setSwitch argc argv .setPapr
def setNotch : Branch := setSwitch argc argv .setNotch

def setCobCal : Branch :=
  if argc < 3 then einval
  else do
    let dutid ← byteArg argv 1 10
    let chipNum ← byteArg argv 2 10
    let disXtal ← byteArg argv 3 10
    request .setCobCal [dutid, chipNum, disXtal]
    finished

def getCobCalRes : Branch := inquire .getCobCalRes 4

def disXtal : Reading Request UInt8 := if argc > 1 then byteArg argv 1 10 else pure 0

def doCobTest : Branch := do
  let dis ← disXtal argc argv
  request .setCobCal [1, 1, dis]
  request .getCobCalRes []
  if (p.rftestResult 0 >>> 16).toUInt8 = 0 then answer 16 else einval

def rdwrEfuseSdiocfg : Branch := rdwr argc argv .rdwrEfuseSdiocfg 1 (writeOne argc argv) 4

def setsuspendmode : Branch :=
  if p.gpioWakeup then do
    let setsuspMode ← byteArg argv 1 10
    send (.setLpLevel setsuspMode)
    if setsuspMode = 1 then do
      send (.wakeupReg 2)
      finished
    else finished
  else finished

def Command.run : Command → Branch
  | .getRxResult => PrivateCommand.getRxResult
  | .setTx => PrivateCommand.setTx argc argv
  | .setTxstop => PrivateCommand.setTxstop
  | .setTxtone => PrivateCommand.setTxtone argc argv
  | .setRx => PrivateCommand.setRx argc argv
  | .setRxstop => PrivateCommand.setRxstop
  | .setRxMeter => PrivateCommand.setRxMeter argv
  | .setFreqCal => PrivateCommand.setFreqCal argc argv
  | .setFreqCalFine => PrivateCommand.setFreqCalFine argc argv
  | .getEfuse => PrivateCommand.getEfuse argc argv
  | .setPower => PrivateCommand.setPower p argv
  | .setXtalCap => PrivateCommand.setXtalCap argc argv
  | .setXtalCapFine => PrivateCommand.setXtalCapFine argc argv
  | .setMacAddr => PrivateCommand.setMacAddr argc argv
  | .getMacAddr => PrivateCommand.getMacAddr
  | .setVendorInfo => PrivateCommand.setVendorInfo p argv
  | .getVendorInfo => PrivateCommand.getVendorInfo p
  | .getFreqCal => PrivateCommand.getFreqCal
  | .rdwrPwrmm => PrivateCommand.rdwrPwrmm argc argv
  | .rdwrPwridx => PrivateCommand.rdwrPwridx p argc argv
  | .rdwrPwrlvl => PrivateCommand.rdwrPwrlvl p argc argv
  | .rdwrPwrofst => PrivateCommand.rdwrPwrofst p argc argv
  | .rdwrPwrofstfine => PrivateCommand.rdwrPwrofstfine argc argv
  | .rdwrDrvibit => PrivateCommand.rdwrDrvibit argc argv
  | .rdwrEfusePwrofst => PrivateCommand.rdwrEfusePwrofst p argc argv
  | .rdwrEfuseDrvibit => PrivateCommand.rdwrEfuseDrvibit argc argv
  | .rdwrEfusePwrofstfine => PrivateCommand.rdwrEfusePwrofstfine p argc argv
  | .setPapr => PrivateCommand.setPapr argc argv
  | .setNotch => PrivateCommand.setNotch argc argv
  | .setCobCal => PrivateCommand.setCobCal argc argv
  | .getCobCalRes => PrivateCommand.getCobCalRes
  | .doCobTest => PrivateCommand.doCobTest p argc argv
  | .rdwrEfuseSdiocfg => PrivateCommand.rdwrEfuseSdiocfg argc argv
  | .setsuspendmode => PrivateCommand.setsuspendmode p argv

/-- The string that `argv[i]` points at, unless it is null. -/
def argument (r : Parsing) (i : ℕ) : Option (List UInt8) := (r.argv i).map (stringAt r.line)

/-- `handle_private_cmd`, after the command was cut. -/
def handleArgs (r : Parsing) : Branch :=
  if r.argc = 0 then pure ⟨0, -1⟩
  else do
    let name ← fetch (argument r) 0
    match Command.lookup p name with
    | some c => c.run p r.argc (argument r)
    | none => einval

def handlePrivateCmd (junk : ℕ → Option ℕ) (command : List UInt8) : Branch :=
  handleArgs p (parseLine junk command)

/-! ## Which arguments are read -/

section
variable {argc argv} {α : Type}

theorem within_byteArg (n i : ℕ) (base : UInt32) : Within n (byteArg argv i base) ↔ i < n := by
  rw [byteArg, within_fetch_bind]
  simp

theorem within_wordArg (n i : ℕ) (base : UInt32) : Within n (wordArg argv i base) ↔ i < n := by
  rw [wordArg, within_fetch_bind]
  simp

theorem within_byte {n i : ℕ} {base : UInt32} {f : UInt8 → Reading Request α} (hi : i < n)
    (hf : ∀ v, Within n (f v)) : Within n (byteArg argv i base >>= f) :=
  (within_bind ..).mpr ⟨(within_byteArg ..).mpr hi, fun v _ => hf v⟩

theorem within_word {n i : ℕ} {base : UInt32} {f : UInt32 → Reading Request α} (hi : i < n)
    (hf : ∀ v, Within n (f v)) : Within n (wordArg argv i base >>= f) :=
  (within_bind ..).mpr ⟨(within_wordArg ..).mpr hi, fun v _ => hf v⟩

theorem within_andThen {n : ℕ} {β : Type} {x : Reading Request α} {f : α → Reading Request β}
    (hx : Within n x) (hf : ∀ v, Within n (f v)) : Within n (x >>= f) :=
  (within_bind ..).mpr ⟨hx, fun v _ => hf v⟩

/-- A request reads no argument. -/
theorem within_request {n : ℕ} {id : Rftest} {payload : List UInt8} {f : Unit → Reading Request α}
    (hf : Within n (f ())) : Within n (request id payload >>= f) :=
  (within_send_bind ..).mpr hf

/-- A read where there is no argument is one too many. -/
theorem not_within_byteArg {n i : ℕ} {base : UInt32} {f : UInt8 → Reading Request α} (hi : n ≤ i) :
    ¬ Within n (byteArg argv i base >>= f) :=
  fun h => absurd ((within_byteArg ..).mp ((within_bind ..).mp h).1) (Nat.not_lt.mpr hi)

/-- An argument that is there is passed on. -/
theorem within_after {n i : ℕ} {base : UInt32} {f : UInt8 → Reading Request α} {a : List UInt8}
    (ha : argv i = some a) (h : Within n (byteArg argv i base >>= f)) :
    Within n (f (commandStrtoul a base).toUInt8) := by
  refine ((within_bind ..).mp h).2 _ ?_
  unfold byteArg fetch
  rw [ha]
  rfl

end

theorem within_answer (n m : ℕ) : Within n (answer m) := within_pure _ _

theorem within_inquire (n : ℕ) (id : Rftest) (m : ℕ) : Within n (inquire id m) :=
  within_request (within_answer n m)

theorem within_setByte (id : Rftest) (base : UInt32) : Within argc (setByte argc argv id base) := by
  unfold setByte
  split
  · exact within_pure _ _
  · exact within_byte (by omega) fun _ => within_request (within_answer _ _)

theorem within_setSwitch (id : Rftest) : Within argc (setSwitch argc argv id) := by
  unfold setSwitch
  split
  · exact within_byte (by omega) fun _ => within_request (within_pure _ _)
  · exact within_pure _ _

/-- Where `argc > 1` decides whether `argv[1]` is read. -/
theorem within_optional (base : UInt32) :
    Within argc (if argc > 1 then byteArg argv 1 base else pure 0) := by
  split
  · exact (within_byteArg ..).mpr (by omega)
  · exact within_pure _ _

/-- Reading or writing values is as safe as the arguments of the writing. -/
theorem within_rdwr (id : Rftest) (maxFunc : UInt8)
    (write : UInt8 → Reading Request (Option (List UInt8))) (m : ℕ)
    (hw : ∀ f, Within argc (write f)) : Within argc (rdwr argc argv id maxFunc write m) := by
  refine within_andThen (within_optional argc argv 16) fun f => ?_
  split
  · exact within_inquire _ _ _
  · split
    · refine within_andThen (hw f) fun buf => ?_
      cases buf with
      | none => exact within_pure _ _
      | some buf => exact within_request (within_answer _ _)
    · exact within_pure _ _

theorem within_writePair (f : UInt8) : Within argc (writePair argc argv f) := by
  unfold writePair
  split
  · exact within_byte (by omega) fun _ => within_byte (by omega) fun _ => within_pure _ _
  · exact within_pure _ _

theorem within_writeOne (f : UInt8) : Within argc (writeOne argc argv f) := by
  unfold writeOne
  split
  · exact within_byte (by omega) fun _ => within_pure _ _
  · exact within_pure _ _

theorem within_writeOffset (f : UInt8) : Within argc (writeOffset p argc argv f) := by
  unfold writeOffset
  split
  · exact within_byte (by omega) fun _ => within_byte (by omega) fun _ =>
      within_byte (by omega) fun _ => within_pure _ _
  · split
    · exact within_writePair _ _ _
    · exact within_pure _ _

theorem within_setTx : Within argc (setTx argc argv) := by
  have hintv : Within argc (txIntvUs argc argv) := by
    unfold txIntvUs
    split
    · exact (within_wordArg ..).mpr (by omega)
    · exact within_pure _ _
  unfold setTx
  split
  · exact within_pure _ _
  · refine within_byte (by omega) fun _ => within_byte (by omega) fun _ => ?_
    refine within_byte (by omega) fun _ => within_byte (by omega) fun _ => ?_
    refine within_word (by omega) fun _ => within_andThen hintv fun _ => ?_
    exact within_request (within_pure _ _)

theorem within_setTxtone : Within argc (setTxtone argc argv) := by
  have hfreq : Within argc (toneFreq argc argv) := by
    unfold toneFreq
    split
    · exact (within_byteArg ..).mpr (by omega)
    · exact within_pure _ _
  unfold setTxtone
  split
  · exact within_byte (by omega) fun _ => within_andThen hfreq fun _ =>
      within_request (within_pure _ _)
  · exact within_pure _ _

theorem within_setRx : Within argc (setRx argc argv) := by
  unfold setRx
  split
  · exact within_pure _ _
  · exact within_byte (by omega) fun _ => within_byte (by omega) fun _ =>
      within_request (within_pure _ _)

theorem within_setMacAddr : Within argc (setMacAddr argc argv) := by
  unfold setMacAddr
  split
  · exact within_pure _ _
  · refine within_byte (by omega) fun _ => within_byte (by omega) fun _ => ?_
    refine within_byte (by omega) fun _ => within_byte (by omega) fun _ => ?_
    refine within_byte (by omega) fun _ => within_byte (by omega) fun _ => ?_
    exact within_request (within_pure _ _)

theorem within_rdwrPwrmm : Within argc (rdwrPwrmm argc argv) := by
  unfold rdwrPwrmm
  split
  · exact within_inquire _ _ _
  · exact within_byte (by omega) fun _ => within_request (within_answer _ _)

theorem within_doCobTest : Within argc (doCobTest p argc argv) := by
  refine within_andThen (within_optional argc argv 10) fun _ => within_request (within_request ?_)
  split
  · exact within_answer _ _
  · exact within_pure _ _

theorem within_writeLevel (h : argc ≤ CMD_MAXARGS) (f : UInt8) :
    Within argc (writeLevel argc argv f) := by
  have h12 : ¬ argc > 12 := by simp only [CMD_MAXARGS] at h; omega
  by_cases h4 : argc > 4
  · rw [writeLevel, if_pos h4]
    refine within_byte (by omega) fun _ => ?_
    rw [if_neg h12]
    exact within_byte (by omega) fun _ => within_byte (by omega) fun _ => within_pure _ _
  · rw [writeLevel, if_neg h4]
    exact within_pure _ _

theorem within_rdwrPwridx : Within argc (rdwrPwridx p argc argv) := by
  unfold rdwrPwridx
  split
  · exact within_pure _ _
  · exact within_rdwr _ _ _ _ _ _ (within_writePair argc argv)

theorem within_rdwrPwrlvl (h : argc ≤ CMD_MAXARGS) : Within argc (rdwrPwrlvl p argc argv) := by
  unfold rdwrPwrlvl
  split
  · exact within_pure _ _
  · exact within_rdwr _ _ _ _ _ _ (within_writeLevel argc argv h)

/-! ## The branches without a check -/

/-- The command reads an argument that is not there. -/
def Unchecked : Command → Prop
  | .setRxMeter | .setVendorInfo => argc < 2
  | .setPower => argc < 2 ∨ p.chipid = .aic8801 ∧ argc = 2
  | .setCobCal => argc = 3
  | .setsuspendmode => p.gpioWakeup = true ∧ argc < 2
  | _ => False

theorem within_setPower (h : ¬ Unchecked p argc .setPower) :
    Within argc (setPower p argv) := by
  simp only [Unchecked, not_or, not_and] at h
  unfold setPower
  split
  · next hc =>
    have := h.2 hc
    refine within_byte (by omega) fun _ => within_byte (by omega) fun _ => ?_
    split
    · exact within_pure _ _
    · exact within_request (within_pure _ _)
  · refine within_byte (by omega) fun _ => ?_
    split
    · exact within_pure _ _
    · exact within_request (within_pure _ _)

theorem within_setCobCal (h : ¬ Unchecked p argc .setCobCal) :
    Within argc (setCobCal argc argv) := by
  simp only [Unchecked] at h
  unfold setCobCal
  split
  · exact within_pure _ _
  · exact within_byte (by omega) fun _ => within_byte (by omega) fun _ =>
      within_byte (by omega) fun _ => within_request (within_pure _ _)

theorem within_setsuspendmode (h : ¬ Unchecked p argc .setsuspendmode) :
    Within argc (setsuspendmode p argv) := by
  simp only [Unchecked, not_and] at h
  unfold setsuspendmode
  split
  · next hg =>
    have := h hg
    refine within_byte (by omega) fun _ => (within_send_bind ..).mpr ?_
    split
    · exact (within_send_bind ..).mpr (within_pure _ _)
    · exact within_pure _ _
  · exact within_pure _ _

theorem Command.within_run (hargc : argc ≤ CMD_MAXARGS) (c : Command)
    (h : ¬ Unchecked p argc c) : Within argc (c.run p argc argv) := by
  cases c with
  | setTx => exact within_setTx _ _
  | setTxtone => exact within_setTxtone _ _
  | setRx => exact within_setRx _ _
  | setTxstop | setRxstop => exact within_request (within_pure _ _)
  | setRxMeter =>
    exact within_word (Nat.not_lt.mp h) fun _ => within_request (within_pure _ _)
  | setFreqCal | setFreqCalFine | getEfuse | setXtalCap | setXtalCapFine =>
    exact within_setByte _ _ _ _
  | setPower => exact within_setPower _ _ _ h
  | setMacAddr => exact within_setMacAddr _ _
  | setVendorInfo =>
    exact within_byte (Nat.not_lt.mp h) fun _ => within_request (within_answer _ _)
  | getRxResult | getMacAddr | getVendorInfo | getFreqCal | getCobCalRes =>
    exact within_inquire _ _ _
  | rdwrPwrmm => exact within_rdwrPwrmm _ _
  | rdwrPwridx => exact within_rdwrPwridx _ _ _
  | rdwrPwrlvl => exact within_rdwrPwrlvl _ _ _ hargc
  | rdwrPwrofst | rdwrEfusePwrofst =>
    exact within_rdwr _ _ _ _ _ _ (within_writeOffset p argc argv)
  | rdwrPwrofstfine | rdwrEfusePwrofstfine =>
    exact within_rdwr _ _ _ _ _ _ (within_writePair argc argv)
  | rdwrDrvibit | rdwrEfuseDrvibit | rdwrEfuseSdiocfg =>
    exact within_rdwr _ _ _ _ _ _ (within_writeOne argc argv)
  | setPapr | setNotch => exact within_setSwitch _ _ _
  | setCobCal => exact within_setCobCal _ _ _ h
  | doCobTest => exact within_doCobTest _ _ _
  | setsuspendmode => exact within_setsuspendmode _ _ _ h

theorem Command.not_within_run (hfull : ∀ i < argc, ∃ a, argv i = some a) (c : Command)
    (h : Unchecked p argc c) : ¬ Within argc (c.run p argc argv) := by
  cases c with
  | setRxMeter =>
    intro hw
    have := (within_wordArg ..).mp ((within_bind ..).mp hw).1
    simp only [Unchecked] at h
    omega
  | setVendorInfo => exact not_within_byteArg (Nat.le_of_lt_succ h)
  | setPower =>
    intro hw
    simp only [Command.run, PrivateCommand.setPower] at hw
    rcases h with h | ⟨hc, h⟩
    · split at hw <;> exact not_within_byteArg (Nat.le_of_lt_succ h) hw
    · obtain ⟨a, ha⟩ := hfull 1 (by omega)
      rw [if_pos hc] at hw
      exact not_within_byteArg (by omega) (within_after ha hw)
  | setCobCal =>
    intro hw
    simp only [Unchecked] at h
    obtain ⟨a, ha⟩ := hfull 1 (by omega)
    obtain ⟨b, hb⟩ := hfull 2 (by omega)
    simp only [Command.run, PrivateCommand.setCobCal] at hw
    rw [if_neg (by omega)] at hw
    exact not_within_byteArg (by omega) (within_after hb (within_after ha hw))
  | setsuspendmode =>
    intro hw
    simp only [Command.run, PrivateCommand.setsuspendmode] at hw
    rw [if_pos h.1] at hw
    exact not_within_byteArg (Nat.le_of_lt_succ h.2) hw
  | _ => exact h.elim

/-- Some argument that the command of the text reads is missing. -/
def Missing (args : List (List UInt8)) : Prop :=
  args ≠ [] ∧ ∃ c, Command.lookup p (args.headD []) = some c ∧ Unchecked p args.length c

/-- An argument below `argc` is read as it stands in the text. -/
theorem argument_eq {c : CString} {r : Parsing} (hr : ParseOk c r) (i : ℕ) (hi : i < r.argc)
    (a : List UInt8) (ha : (arguments c.text)[i]? = some a) : argument r i = some a := by
  obtain ⟨p, hp, -, hsub, hend⟩ := hr.substring i a hi ha
  have h0 : 0 ∉ a := fun m =>
    c.text_ne_zero (List.mem_of_mem_drop (List.mem_of_mem_take (hsub ▸ m)))
  have hd : r.line.drop p = a++0 :: (r.line.drop p).drop (a.length+1) := by
    conv_lhs => rw [← List.take_append_drop (a.length+1) (r.line.drop p), hend]
    simp
  have hs : stringAt r.line p = a := by
    have hall : ∀ x ∈ a, (x != 0) = true := fun x hx => by
      simpa using fun e : x = 0 => h0 (e ▸ hx)
    rw [stringAt, hd, takeWhile_text _ rfl]
    exact List.takeWhile_eq_self_iff.mpr hall
  rw [argument, hp, Option.map_some, hs]

theorem argument_some {c : CString} {r : Parsing} (hr : ParseOk c r) (i : ℕ) (hi : i < r.argc) :
    ∃ a, argument r i = some a := by
  have hlt : i < (arguments c.text).length := by have := hr.argc_eq; omega
  exact ⟨_, argument_eq hr i hi _ (List.getElem?_eq_getElem hlt)⟩

/-- The limit of arguments does not matter for what is missing. -/
theorem unchecked_min (n : ℕ) (c : Command) :
    Unchecked p (min CMD_MAXARGS n) c ↔ Unchecked p n c := by
  have h2 : min CMD_MAXARGS n < 2 ↔ n < 2 := by simp only [CMD_MAXARGS]; omega
  have he2 : min CMD_MAXARGS n = 2 ↔ n = 2 := by simp only [CMD_MAXARGS]; omega
  have he3 : min CMD_MAXARGS n = 3 ↔ n = 3 := by simp only [CMD_MAXARGS]; omega
  cases c <;> simp only [Unchecked, h2, he2, he3]

/-- A command is cut as promised, and its branch reads only arguments that are there, exactly if
it is none of the commands without a check that lacks an argument. -/
theorem arguments_read_iff (junk : ℕ → Option ℕ) (c : CString) :
    (ParseOk c (parseLine junk c.memory) ∧
      Within (parseLine junk c.memory).argc (handlePrivateCmd p junk c.memory)) ↔
      ¬ Missing p (arguments c.text) := by
  have hr := parseLine_ok junk c
  rw [and_iff_right hr, handlePrivateCmd]
  obtain ⟨r, hreq⟩ : ∃ r, r = parseLine junk c.memory := ⟨_, rfl⟩
  rw [← hreq] at hr ⊢
  have hargc := hr.argc_eq
  cases hargs : arguments c.text with
  | nil =>
    have h0 : r.argc = 0 := by rw [hargc, hargs]; rfl
    rw [handleArgs, if_pos h0]
    exact ⟨fun _ h => h.1 rfl, fun _ => within_pure _ _⟩
  | cons a args =>
    have hpos : 0 < r.argc := by
      rw [hargc, hargs]
      exact Nat.lt_min.mpr ⟨by decide, by simp⟩
    have hname : argument r 0 = some a := argument_eq hr 0 hpos a (by rw [hargs]; rfl)
    have hlen : Unchecked p r.argc = Unchecked p (a :: args).length := by
      funext cmd
      rw [hargc, hargs]
      exact propext (unchecked_min p _ cmd)
    rw [handleArgs, if_neg (Nat.ne_of_gt hpos), within_fetch_some _ _ _ _ a hname,
      and_iff_right hpos]
    simp only [Missing, List.headD_cons, ← hlen]
    cases hc : Command.lookup p a with
    | none => simp [einval]
    | some cmd =>
      have hsafe := Command.within_run p r.argc (argument r) hr.argc_le cmd
      have hbad := Command.not_within_run p r.argc (argument r) (argument_some hr) cmd
      simp only [ne_eq, reduceCtorEq, not_false_eq_true, Option.some.injEq, exists_eq_left',
        true_and]
      exact ⟨fun hw hu => hbad hu hw, hsafe⟩

/-- `SET_RX_METER` without its frequency reads the null pointer behind the arguments. -/
theorem meter_without_frequency :
    ¬ ∀ (p : Platform) (junk : ℕ → Option ℕ) (c : CString),
      ParseOk c (parseLine junk c.memory) ∧
        Within (parseLine junk c.memory).argc (handlePrivateCmd p junk c.memory) := by
  intro h
  have hw := (h ⟨.aic8800dc, 0, false, fun _ => 0⟩ (fun _ => none)
    ⟨ascii "SET_RX_METER", [], by decide⟩).2
  exact absurd (hw 1 (by decide +kernel)) (by decide +kernel)

end AIC.PrivateCommand
