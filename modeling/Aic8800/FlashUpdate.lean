import Aic8800.FirmwareUpload
import Aic8800.Lib.ByteText

/-!
# Updates of the flash

`rwnx_plat_m2d_flash_ota_android` writes an update file to the flash of the chip, and
`rwnx_plat_m2d_flash_ota_check` does so where the version in the flash differs from that of the
file. There is no result where memory outside the file or a version string is read.
-/

set_option autoImplicit false

namespace AIC.FlashUpdate
open AIC.BtPatchTable (Bytes Word)
open AIC.FirmwareUpload (blockWrite word)
open Lib.ByteText

def AIC_M2D_OTA_INFO_ADDR : Word := 0x88000020
def AIC_M2D_OTA_DATA_ADDR : Word := 0x88000040

/-- `mem_addr`, the word with the bond id. -/
def MEM_ADDR : Word := 0x40500000

def FW_NORMAL_MODE : ℕ := 0

/-! ## A build

`lzma` is `CONFIG_M2D_OTA_LZMA_SUPPORT`. -/

def AIC_M2D_OTA_FLASH_ADDR (lzma : Bool) : Word := if lzma then 0x08005000 else 0x08004000

def AIC_M2D_OTA_CODE_START_ADDR (lzma : Bool) : Word :=
  AIC_M2D_OTA_FLASH_ADDR lzma+if lzma then 0x1188 else 0x0188

def AIC_M2D_OTA_VER_ADDR (lzma : Bool) : Word :=
  AIC_M2D_OTA_FLASH_ADDR lzma+if lzma then 0x0010 else 0x018C

def driverCodeStartIdx (lzma : Bool) : ℕ :=
  ((AIC_M2D_OTA_CODE_START_ADDR lzma-AIC_M2D_OTA_FLASH_ADDR lzma)/4).toNat

def driverSdkVerIdx (lzma : Bool) : ℕ :=
  ((AIC_M2D_OTA_VER_ADDR lzma-AIC_M2D_OTA_FLASH_ADDR lzma)/4).toNat

/-! ## The chip and the file -/

inductive Request where
  | read (addr : Word)
  | write (r : FirmwareUpload.Request)
  deriving DecidableEq

def Request.write? : Request → Option FirmwareUpload.Request
  | .read _ => none
  | .write r => some r

/-- `ret` has the result of each request by its number, `flash` what a read of a word finds.
`loads` says whether the file can be opened and read into a buffer. -/
structure Device where
  flash : Word → Word
  ret : ℕ → ℤ
  file : Bytes
  loads : Bool

structure Globals where
  testmode : ℕ
  cpmode : ℕ
  savedSdkVer : Bytes

/-- `freed` counts the calls of `vfree` for the buffer of the file. -/
structure Outcome where
  err : ℤ
  sent : List Request
  loaded : Bool
  freed : ℕ
  globals : Globals

/-- The size of the file is cut to an `int`. -/
def rwnxLoadFirmware (d : Device) : Option Bytes :=
  let size := (BitVec.ofNat 32 d.file.length).toInt
  if d.loads = true ∧ 0 < size then some (d.file.take size.toNat) else none

def bytesOf (w : Word) : Bytes :=
  (List.range 4).map fun k => UInt8.ofBitVec (w.extractLsb' (8*k) 8)

/-- `bond_id & (1<<1)` -/
def Device.flashInvalid (d : Device) : Bool :=
  (d.flash MEM_ADDR >>> 24).setWidth 8 &&& 2#8 ≠ 0

/-! ## The upload -/

/-- The loop over the blocks of 1024 bytes, from offset `i` and request `k` on. The error in front
of it is lost where the loop is entered. -/
def otaBlocks (dst : Bytes) (ret : ℕ → ℤ) :
    ℕ → ℕ → ℕ → ℤ → Option (ℤ × ℕ × List Request)
  | 0, _, _, _ => none
  | fuel+1, i, k, err =>
    if i < dst.length-1024 then
      (blockWrite dst AIC_M2D_OTA_DATA_ADDR i 1024).bind fun b =>
        if ret k ≠ 0 then some (ret k, i, [.write b])
        else (otaBlocks dst ret fuel (i+1024) (k+1) (ret k)).map fun (err, i, sent) =>
          (err, i, .write b::sent)
    else some (err, i, [])

/-- The last block, unless there is an error. -/
def otaTail (dst : Bytes) (ret : ℕ → ℤ) (k : ℕ) :
    ℤ × ℕ × List Request → Option (ℤ × List Request)
  | (err, i, sent) =>
    if err = 0 ∧ i < dst.length then
      (blockWrite dst AIC_M2D_OTA_DATA_ADDR i (dst.length-i)).map fun b =>
        (ret (k+sent.length), sent++[.write b])
    else some (err, sent)

def otaInfo (size : ℕ) : FirmwareUpload.Request :=
  .block AIC_M2D_OTA_INFO_ADDR (bytesOf (BitVec.ofNat 32 size))

/-- From `send info first` on. `i` is what the variable holds there: it goes back to 0 only for a
file of more than 1024 bytes. -/
def otaUpload (dst : Bytes) (ret : ℕ → ℤ) (i k : ℕ) : Option (ℤ × List Request) :=
  ((if 1024 < dst.length then otaBlocks dst ret dst.length 0 (k+1) (ret k)
    else some (ret k, i, [])).bind (otaTail dst ret (k+1))).map fun (err, sent) =>
      (err, .write (otaInfo dst.length)::sent)

/-! ## The two functions -/

def rwnxPlatM2dFlashOtaAndroid (d : Device) (g : Globals) : Option Outcome :=
  let reads := [.read MEM_ADDR]
  if d.ret 0 ≠ 0 then some ⟨d.ret 0, reads, false, 0, g⟩
  else if d.flashInvalid then some ⟨-1, reads, false, 0, g⟩
  else match rwnxLoadFirmware d with
    | none => some ⟨-1, reads, false, 0, g⟩
    | some dst => (otaUpload dst d.ret 0 1).map fun (err, sent) =>
        ⟨err, reads++sent, true, 1, { g with testmode := FW_NORMAL_MODE, cpmode := FW_NORMAL_MODE }⟩

/-- The reads of the check in front of the file. -/
def headReads (lzma : Bool) : List Request :=
  [.read MEM_ADDR, .read (AIC_M2D_OTA_CODE_START_ADDR lzma)]++
    if lzma then [] else [.read (AIC_M2D_OTA_VER_ADDR lzma)]

def Device.sdkVerAddr (lzma : Bool) (d : Device) : Word :=
  if lzma then AIC_M2D_OTA_VER_ADDR lzma else d.flash (AIC_M2D_OTA_VER_ADDR lzma)

def Device.oldFormat (lzma : Bool) (d : Device) : Bool :=
  d.flash (AIC_M2D_OTA_CODE_START_ADDR lzma) = 0xffffffff ∧ d.sdkVerAddr lzma = 0xffffffff

/-- The loop over the words of the version in the flash. -/
def readFlash (d : Device) (addr : Word) : ℕ → ℕ → ℕ → ℤ × List Request × List Word
  | 0, _, _ => (0, [], [])
  | n+1, i, k =>
    let here := addr+BitVec.ofNat 32 (i*4)
    if d.ret k ≠ 0 then (d.ret k, [.read here], [])
    else
      let (err, sent, words) := readFlash d addr n (i+1) (k+1)
      (err, .read here::sent, d.flash here::words)

/-- `dst[i]` and the words behind it. -/
def readWords (dst : Bytes) : ℕ → ℕ → Option (List Word)
  | _, 0 => some []
  | i, n+1 => (word dst i).bind fun w => (readWords dst (i+1) n).map (w::·)

/-- `driver_sdk_ver_addr_idx` -/
def driverSdkVerAddrIdx (lzma : Bool) (drvCodeStartAddr drvSdkVerAddr : Word) : ℕ :=
  if lzma then driverSdkVerIdx lzma else ((drvSdkVerAddr-drvCodeStartAddr)/4).toNat

/-- The end of the check, behind the upload. -/
def finish (reads : List Request) (g : Globals) : ℤ × List Request → Outcome
  | (err, sent) => ⟨err, reads++sent, true, 1, { g with testmode := FW_NORMAL_MODE }⟩

/-- The branch for a flash of the old version. -/
def checkOld (lzma : Bool) (d : Device) (g : Globals) (dst : Bytes) : Option Outcome :=
  let reads := headReads lzma
  (word dst (driverCodeStartIdx lzma)).bind fun _ =>
    (word dst (driverSdkVerIdx lzma)).bind fun drvSdkVerAddr =>
      if drvSdkVerAddr = 0xffffffff then some ⟨-1, reads, true, 0, g⟩
      else (otaUpload dst d.ret 0 reads.length).map (finish reads g)

/-- The comparison of the versions. Both are printed as strings. -/
def checkVersion (lzma : Bool) (d : Device) (g : Globals) (dst : Bytes) (reads : List Request)
    (flashVer : List Word) : Option Outcome :=
  if 0 ∉ flashVer.flatMap bytesOf then none
  else (word dst (driverCodeStartIdx lzma)).bind fun drvCodeStartAddr =>
    (word dst (driverSdkVerIdx lzma)).bind fun drvSdkVerAddr =>
      let idx := driverSdkVerAddrIdx lzma drvCodeStartAddr drvSdkVerAddr
      if drvSdkVerAddr = 0xffffffff then some ⟨-1, reads, true, 0, g⟩
      else if idx = 0 then some ⟨-1, reads, true, 0, g⟩
      else (readWords dst idx 16).bind fun otaVer =>
        if 0 ∉ otaVer.flatMap bytesOf then none
        else if cString (otaVer.flatMap bytesOf) = cString (flashVer.flatMap bytesOf) then
          some ⟨-1, reads, true, 0, g⟩
        else (otaUpload dst d.ret 16 reads.length).map (finish reads g)

/-- The other branch. `i` is 16 behind its loop. -/
def checkNew (lzma : Bool) (d : Device) (g : Globals) (dst : Bytes) : Option Outcome :=
  match readFlash d (d.sdkVerAddr lzma) 16 0 (headReads lzma).length with
  | (err, sent, flashVer) =>
    let reads := headReads lzma++sent
    if err ≠ 0 then some ⟨err, reads, true, 0, g⟩
    else checkVersion lzma d { g with savedSdkVer := flashVer.flatMap bytesOf } dst reads flashVer

def rwnxPlatM2dFlashOtaCheck (lzma : Bool) (d : Device) (g : Globals) : Option Outcome :=
  if d.ret 0 ≠ 0 then some ⟨d.ret 0, [.read MEM_ADDR], false, 0, g⟩
  else if d.flashInvalid then some ⟨-1, [.read MEM_ADDR], false, 0, g⟩
  else if d.ret 1 ≠ 0 then
    some ⟨d.ret 1, [.read MEM_ADDR, .read (AIC_M2D_OTA_CODE_START_ADDR lzma)], false, 0, g⟩
  else if lzma = false ∧ d.ret 2 ≠ 0 then some ⟨d.ret 2, headReads lzma, false, 0, g⟩
  else match rwnxLoadFirmware d with
    | none => some ⟨-1, headReads lzma, false, 0, g⟩
    | some dst => if d.oldFormat lzma then checkOld lzma d g dst else checkNew lzma d g dst

/-! ## What is right -/

/-- All bytes of the file behind its size, in blocks. -/
def Uploaded (file : Bytes) (sent : List Request) : Prop :=
  ∃ blocks : List Bytes, (∀ b ∈ blocks, b.length ≤ 1024) ∧ blocks.flatten = file ∧
    sent.filterMap Request.write? =
      otaInfo file.length::blocks.map (.block AIC_M2D_OTA_DATA_ADDR)

/-- The buffer is released once, no request follows one that has failed, and success is an upload
of the whole file. -/
structure Handled (d : Device) (o : Outcome) : Prop where
  released : o.freed = if o.loaded then 1 else 0
  stops : ∀ j < o.sent.length, d.ret j ≠ 0 → j+1 = o.sent.length ∧ o.err = d.ret j
  whole : o.err = 0 → Uploaded d.file o.sent

def Outcome.uploads (o : Outcome) : Prop := ∃ r ∈ o.sent, r.write?.isSome = true

/-- The words of the version in the file. -/
def otaVersion (lzma : Bool) (dst : Bytes) : Option (List Word) :=
  (word dst (driverCodeStartIdx lzma)).bind fun drvCodeStartAddr =>
    (word dst (driverSdkVerIdx lzma)).bind fun drvSdkVerAddr =>
      readWords dst (driverSdkVerAddrIdx lzma drvCodeStartAddr drvSdkVerAddr) 16

def Device.flashVersion (lzma : Bool) (d : Device) : List Word :=
  (List.range 16).map fun i => d.flash (d.sdkVerAddr lzma+BitVec.ofNat 32 (i*4))

def CarriesVersion (lzma : Bool) (dst : Bytes) : Prop :=
  ∃ w, word dst (driverSdkVerIdx lzma) = some w ∧ w ≠ 0xffffffff

def Differs (a b : List Word) : Prop :=
  cString (a.flatMap bytesOf) ≠ cString (b.flatMap bytesOf)

def UploadDue (lzma : Bool) (d : Device) : Prop :=
  d.flashInvalid = false ∧ ∃ dst, rwnxLoadFirmware d = some dst ∧ CarriesVersion lzma dst ∧
    (d.oldFormat lzma = true ∨
      ∃ ws, otaVersion lzma dst = some ws ∧ Differs ws (d.flashVersion lzma))

/-- It uploads where it should, or a request for a version has failed. -/
def Decided (lzma : Bool) (d : Device) (o : Outcome) : Prop :=
  (o.uploads → UploadDue lzma d) ∧
    (UploadDue lzma d → o.uploads ∨ ∃ j, j+1 = o.sent.length ∧ d.ret j ≠ 0)

def AndroidRight (d : Device) (g : Globals) : Prop :=
  ∃ o, rwnxPlatM2dFlashOtaAndroid d g = some o ∧ Handled d o

def CheckRight (lzma : Bool) (d : Device) (g : Globals) : Prop :=
  ∃ o, rwnxPlatM2dFlashOtaCheck lzma d g = some o ∧ Handled d o ∧ Decided lzma d o

/-! ## When it is -/

/-- The request for the size may fail only if the file is one block. A file that is not sent from
its first byte to its last needs a request that fails. -/
def UploadFine (d : Device) (dst : Bytes) (i k : ℕ) : Prop :=
  (1024 < dst.length → d.ret k = 0) ∧
    (d.file.length < 2^31 ∧ (1024 < dst.length ∨ i = 0) ∨
      ∃ j ≤ (dst.length+1023)/1024, d.ret (k+j) ≠ 0)

def AndroidFine (d : Device) : Prop :=
  d.ret 0 ≠ 0 ∨ d.flashInvalid = true ∨ rwnxLoadFirmware d = none ∨
    ∃ dst, rwnxLoadFirmware d = some dst ∧ UploadFine d dst 0 1

def OldFine (lzma : Bool) (d : Device) (dst : Bytes) : Prop :=
  (∃ w, word dst (driverCodeStartIdx lzma) = some w) ∧ CarriesVersion lzma dst ∧
    UploadFine d dst 0 (headReads lzma).length

/-- The version of the flash can be read, and that of the file is another one behind its start. -/
def NewFine (lzma : Bool) (d : Device) (dst : Bytes) : Prop :=
  (∀ j < 16, d.ret ((headReads lzma).length+j) = 0) ∧
    0 ∈ (d.flashVersion lzma).flatMap bytesOf ∧
    (∃ start ver ws, word dst (driverCodeStartIdx lzma) = some start ∧
      word dst (driverSdkVerIdx lzma) = some ver ∧ ver ≠ 0xffffffff ∧
      driverSdkVerAddrIdx lzma start ver ≠ 0 ∧
      readWords dst (driverSdkVerAddrIdx lzma start ver) 16 = some ws ∧
      0 ∈ ws.flatMap bytesOf ∧ Differs ws (d.flashVersion lzma)) ∧
    UploadFine d dst 16 ((headReads lzma).length+16)

def CheckFine (lzma : Bool) (d : Device) : Prop :=
  d.ret 0 ≠ 0 ∨ d.flashInvalid = true ∨ d.ret 1 ≠ 0 ∨ (lzma = false ∧ d.ret 2 ≠ 0) ∨
    rwnxLoadFirmware d = none ∨
    ∃ dst, rwnxLoadFirmware d = some dst ∧
      if d.oldFormat lzma then OldFine lzma d dst else NewFine lzma d dst

end AIC.FlashUpdate
