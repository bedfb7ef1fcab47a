import Mathlib.Tactic

/-!
# The Bluetooth patch table

A file of records, which is read into a list, and what is done with the list: the
first record may hold addresses for the upload of the patches, and the words of
the others are written to the chip in pairs. There is no result where memory
outside the file, a record or a structure is touched.
-/

set_option autoImplicit false

namespace AIC.BtPatchTable

abbrev Bytes := List UInt8
abbrev Word := BitVec 32

inductive Chip where
  | aic8801 | aic8800DC | aic8800DW | aic8800D80
  deriving DecidableEq

def AICBT_PT_INF : Word := 0
def AICBT_PT_BTMODE : Word := 3
def AICBT_PT_VER : Word := 6

/-- `AICBT_PT_TAG` with the zero behind it. -/
def AICBT_PT_TAG : Bytes := [65, 73, 67, 66, 84, 95, 80, 84, 95, 84, 65, 71, 0]

/-- What `rwnx_load_firmware` has loaded. Its size is an `int`, and nothing is loaded of a file that
cannot be read. -/
structure Firmware where
  bytes : Bytes
  int : bytes.length < 2^31

/-- `data` is empty where the pointer is NULL. -/
structure PatchTable where
  name : Bytes
  type : Word
  len : Word
  data : Bytes

def le32 (b0 b1 b2 b3 : UInt8) : Word := b3.toBitVec++b2.toBitVec++b1.toBitVec++b0.toBitVec

/-! ## Reading the file -/

/-- One record, and what is behind it. The size of its data is a number of 32 bits. -/
def takeRecord (bs : Bytes) : Option (PatchTable × Bytes) :=
  match bs.drop 16 with
  | t0::t1::t2::t3::l0::l1::l2::l3::rest =>
    let type := le32 t0 t1 t2 t3
    let len := le32 l0 l1 l2 l3
    if 1000#32 ≤ type then some (⟨bs.take 16, type, 0, []⟩, rest)
    else if len = 0 then some (⟨bs.take 16, type, len, []⟩, rest)
    else
      let size := (len*8#32).toNat
      if rest.length < size then none
      else some (⟨bs.take 16, type, len, rest.take size⟩, rest.drop size)
  | _ => none

def readRecords : ℕ → Bytes → Option (List PatchTable)
  | _, [] => some []
  | 0, _ => none
  | fuel+1, bs => (takeRecord bs).bind fun (p, rest) => (readRecords fuel rest).map (p::·)

/-- The blocks of memory that a record holds. -/
def PatchTable.blocks (p : PatchTable) : ℕ := if p.data = [] then 2 else 3

/-- `held` is the number of blocks allocated and not freed. -/
structure Alloc where
  head : List PatchTable
  held : ℕ

def aicbtPatchTableFree (a : Alloc) : Alloc :=
  ⟨[], a.held-(a.head.map PatchTable.blocks).sum⟩

def aicbtPatchTableAlloc (file : Firmware) : Option Alloc :=
  if file.bytes = [] then some (aicbtPatchTableFree ⟨[], 0⟩)
  else if file.bytes.length < AICBT_PT_TAG.length then none
  else
    let rawdata := 1
    if file.bytes.take AICBT_PT_TAG.length ≠ AICBT_PT_TAG then
      some ⟨[], (aicbtPatchTableFree ⟨[], rawdata⟩).held-1⟩
    else
      (readRecords file.bytes.length (file.bytes.drop 16)).map fun ps =>
        ⟨ps, rawdata+(ps.map PatchTable.blocks).sum-1⟩

/-! ## Using the list -/

/-- `aicbt_patch_info_t`, of which all behind `info_len` is `body`. -/
structure PatchInfo where
  infoLen : Word
  body : Bytes

def PatchInfo.bodySize : ℕ := 32

def aicbtPatchInfoUnpack (info : PatchInfo) (p : PatchTable) : Option PatchInfo :=
  if p.type = AICBT_PT_INF then
    if p.len = 0 then some { info with infoLen := p.len }
    else
      let size := p.len.toNat*8
      if p.data.length < size ∨ PatchInfo.bodySize < size then none
      else some ⟨p.len, p.data.take size++info.body.drop size⟩
  else some info

structure BtInfo where
  btmode : Word
  btport : Word
  uartBaud : Word
  uartFlowctrl : Word
  lpmEnable : Word
  txpwrLvl : Word

structure Config where
  hwinfo : ℤ
  cpmode : Word
  aicbtInfo : BtInfo
  aicbtInfo8800dc : BtInfo

def AICBT_TXPWR_LVL_8800d80 : Word := 0x00006f2f

/-- The values of a BTMODE record, in their order. -/
def btmodeValues (cfg : Config) (chip : Chip) : List Word :=
  let hwinfo := BitVec.ofInt 32 cfg.hwinfo
  let unset : Word := if cfg.hwinfo < 0 then 1 else 0
  match chip with
  | .aic8800DC =>
    let bt := cfg.aicbtInfo8800dc
    [unset, hwinfo, cfg.cpmode, bt.btmode, bt.btport, bt.uartBaud, bt.uartFlowctrl, bt.lpmEnable,
      bt.txpwrLvl]
  | .aic8800D80 =>
    let bt := cfg.aicbtInfo
    [unset, hwinfo, 0, bt.btmode, bt.btport, bt.uartBaud, bt.uartFlowctrl, bt.lpmEnable,
      AICBT_TXPWR_LVL_8800d80]
  | _ =>
    let bt := cfg.aicbtInfo
    [unset, hwinfo, 0, bt.btmode, bt.btport, bt.uartBaud, bt.uartFlowctrl, bt.lpmEnable,
      bt.txpwrLvl]

/-- The words of a record's data, in pairs of an address and a value. -/
def words : Bytes → List (Word × Word)
  | a0::a1::a2::a3::v0::v1::v2::v3::bs => (le32 a0 a1 a2 a3, le32 v0 v1 v2 v3)::words bs
  | _ => []

/-- The second words of the first pairs, one after the other. -/
def storeValues : List Word → List (Word × Word) → Option (List (Word × Word))
  | [], data => some data
  | _::_, [] => none
  | v::vs, (a, _)::data => (storeValues vs data).map ((a, v)::·)

/-- The loop over the pairs. `ret` are the results of the requests, `k` counts them. -/
def writePairs (ret : ℕ → ℤ) : ℕ → List (Word × Word) → ℕ → Option (ℤ × List (Word × Word))
  | 0, _, _ => some (0, [])
  | _+1, [], _ => none
  | n+1, p::data, k =>
    if ret k ≠ 0 then some (ret k, [p])
    else (writePairs ret n data (k+1)).map fun (r, sent) => (r, p::sent)

def loadRecord (cfg : Config) (chip : Chip) (ret : ℕ → ℤ) (p : PatchTable) (k : ℕ) :
    Option (ℤ × List (Word × Word)) :=
  (if p.type = AICBT_PT_BTMODE then storeValues (btmodeValues cfg chip) (words p.data)
    else some (words p.data)).bind fun data =>
    if chip = .aic8800DC ∧ p.type = AICBT_PT_INF then some (0, [])
    else if p.type = AICBT_PT_VER then
      -- the data is printed as a string, up to a zero
      if p.data = [] ∨ 0 ∈ p.data then some (0, []) else none
    else writePairs ret p.len.toNat data k

def loadRecords (cfg : Config) (chip : Chip) (ret : ℕ → ℤ) :
    List PatchTable → ℕ → Option (ℤ × List (Word × Word))
  | [], _ => some (0, [])
  | p::ps, k =>
    (loadRecord cfg chip ret p k).bind fun (r, sent) =>
      if r ≠ 0 then some (r, sent)
      else (loadRecords cfg chip ret ps (k+sent.length)).map fun (r', sent') => (r', sent++sent')

/-- With the result the pairs that were sent. -/
def aicbtPatchTableLoad (cfg : Config) (chip : Chip) (ret : ℕ → ℤ) (head : List PatchTable) :
    Option (ℤ × List (Word × Word)) :=
  if head = [] then some (-1, [])
  else
    match chip with
    | .aic8800DW => some (0, [])
    | _ => loadRecords cfg chip ret head 0

end AIC.BtPatchTable
