import Mathlib
import Aic8800.TxAggregate
import Aic8800.CmdBufferMachine
import Aic8800.Lib.CrcRegister

/-!
# The check byte of the SDIO headers

`crc8_ponl_107` with both of its loops, up to a size of 16 bits. The bit of the
message comes in behind the shift, so that the register never holds more than
the remainder by x^8 + x^2 + x + 1.
-/

set_option autoImplicit false

namespace AIC.HeaderCheck
open Polynomial Lib.CrcRegister AIC.TxAggregate

/-- `for (i = 0x80; i > 0; i /= 2)` -/
def bitLoop (byte crc i : UInt8) : UInt8 :=
  if 0 < i then bitLoop byte (crcBit byte crc i) (i/2) else crc
termination_by i.toNat
decreasing_by
  rename_i hi
  have hpos : 0 < i.toNat := UInt8.lt_iff_toNat_lt.mp hi
  rw [UInt8.toNat_div]
  exact Nat.div_lt_self hpos (by decide)

/-- `while (cal_size--)`. There is no result where a byte behind the buffer is needed. -/
def byteLoop (pBuffer : List UInt8) (calSize : UInt16) (crc : UInt8) : Option UInt8 :=
  if calSize = 0 then some crc
  else match pBuffer with
    | [] => none
    | byte::rest => byteLoop rest (calSize-1) (bitLoop byte crc 0x80)

def crc8Ponl107 (pBuffer : List UInt8) (calSize : UInt16) : Option UInt8 :=
  if calSize = 0 then some 0 else byteLoop pBuffer calSize 0

def messageBits (bytes : List UInt8) : List Bool := bytes.flatMap fun b => bits b.toBitVec

@[simp] theorem messageBits_cons (byte : UInt8) (bytes : List UInt8) :
    messageBits (byte::bytes) = bits byte.toBitVec++messageBits bytes := rfl

/-! ## The loops -/

theorem bitLoop_next {byte crc i : UInt8} (hi : 0 < i) :
    bitLoop byte crc i = bitLoop byte (crcBit byte crc i) (i/2) := by
  rw [bitLoop, if_pos hi]

theorem bitLoop_eq (byte crc : UInt8) : bitLoop byte crc 0x80 = crcByte crc byte := by
  rw [bitLoop_next (by decide), bitLoop_next (by decide), bitLoop_next (by decide),
    bitLoop_next (by decide), bitLoop_next (by decide), bitLoop_next (by decide),
    bitLoop_next (by decide), bitLoop_next (by decide), bitLoop, if_neg (by decide)]
  rfl

theorem byteLoop_eq {pBuffer : List UInt8} {calSize : UInt16} (crc : UInt8)
    (h : calSize.toNat ≤ pBuffer.length) :
    byteLoop pBuffer calSize crc = some ((pBuffer.take calSize.toNat).foldl crcByte crc) := by
  induction pBuffer generalizing calSize crc with
  | nil =>
    have hzero : calSize = 0 := UInt16.toNat_inj.mp (Nat.le_zero.mp h)
    rw [byteLoop, if_pos hzero]
    simp
  | cons byte rest ih =>
    rw [byteLoop]
    by_cases hzero : calSize = 0
    · simp [hzero]
    · have hpos : calSize.toNat ≠ 0 := fun hn => hzero (UInt16.toNat_inj.mp hn)
      have hone : (1 : UInt16) ≤ calSize :=
        UInt16.le_iff_toNat_le.mpr (Nat.one_le_iff_ne_zero.mpr hpos)
      have hless : (calSize-1).toNat = calSize.toNat-1 := UInt16.toNat_sub_of_le _ _ hone
      have hrest : (calSize-1).toNat ≤ rest.length := by
        rw [List.length_cons] at h
        omega
      obtain ⟨n, hn⟩ := Nat.exists_eq_succ_of_ne_zero hpos
      rw [if_neg hzero, ih _ hrest, hless, bitLoop_eq, hn, List.take_succ_cons]
      rfl

/-- No byte behind `calSize` plays a part. -/
theorem crc8_eq {pBuffer : List UInt8} {calSize : UInt16} (h : calSize.toNat ≤ pBuffer.length) :
    crc8Ponl107 pBuffer calSize =
      some (TxAggregate.crc8Ponl107 (pBuffer.take calSize.toNat)) := by
  rw [crc8Ponl107]
  split
  · rename_i hzero
    simp [hzero, TxAggregate.crc8Ponl107]
  · exact byteLoop_eq 0 h

/-! ## The register -/

theorem and_mask (v mask : UInt8) {k : ℕ} (hmask : mask.toBitVec = BitVec.twoPow 8 k)
    (hk : k < 8) : v &&& mask ≠ 0 ↔ v.toBitVec.getLsbD k = true := by
  have hone : BitVec.twoPow 8 k ≠ 0#8 := by
    intro hz
    have hbit := congrArg (fun x : BitVec 8 => x.getLsbD k) hz
    simp [hk] at hbit
  rw [Ne, ← UInt8.toBitVec_inj, UInt8.toBitVec_and, hmask, BitVec.and_twoPow]
  split
  · rename_i hb
    exact ⟨fun _ => hb, fun _ => hone⟩
  · rename_i hb
    exact ⟨fun hne => absurd rfl hne, fun hb' => absurd hb' hb⟩

theorem double_toBitVec (crc : UInt8) : (crc*2).toBitVec = crc.toBitVec <<< 1 := by
  rw [UInt8.toBitVec_mul, BitVec.shiftLeft_eq_mul_twoPow]
  rfl

/-- One turn of the inner loop is one bit of the message. -/
theorem crcBit_step (byte crc mask : UInt8) {k : ℕ} (hk : k < 8)
    (hmask : mask.toBitVec = BitVec.twoPow 8 k) :
    (crcBit byte crc mask).toBitVec = step 0x07#8 crc.toBitVec (byte.toBitVec.getLsbD k) := by
  have htop : crc &&& 0x80 ≠ 0 ↔ crc.toBitVec.msb = true := by
    rw [and_mask crc 0x80 (k := 7) rfl (by decide), BitVec.msb_eq_getLsbD_last]
  have hlow := and_mask byte mask hmask hk
  have htwo : crc.toBitVec*2#8 = crc.toBitVec <<< 1 := double_toBitVec crc
  simp only [crcBit, step, htop, hlow]
  cases crc.toBitVec.msb <;> cases byte.toBitVec.getLsbD k <;>
    simp [htwo]

/-- The mask of bit `k`. -/
def mask (k : Fin 8) : UInt8 := UInt8.ofNat (2^k.val)

theorem masks_bits (byte : UInt8) (ks : List (Fin 8)) (crc : UInt8) :
    ((ks.map mask).foldl (crcBit byte) crc).toBitVec =
      (ks.map fun k : Fin 8 => byte.toBitVec.getLsbD k).foldl (step 0x07#8) crc.toBitVec := by
  have hmask : ∀ k, (mask k).toBitVec = BitVec.twoPow 8 k := by decide
  induction ks generalizing crc with
  | nil => rfl
  | cons k ks ih =>
    rw [List.map_cons, List.map_cons, List.foldl_cons, List.foldl_cons, ih,
      crcBit_step byte crc (mask k) k.isLt (hmask k)]

theorem crcByte_bits (crc byte : UInt8) :
    (crcByte crc byte).toBitVec = (bits byte.toBitVec).foldl (step 0x07#8) crc.toBitVec :=
  masks_bits byte [7, 6, 5, 4, 3, 2, 1, 0] crc

theorem crc8_register (bytes : List UInt8) :
    (TxAggregate.crc8Ponl107 bytes).toBitVec = register 0x07#8 (messageBits bytes) := by
  have hrun : ∀ (bytes : List UInt8) (crc : UInt8), (bytes.foldl crcByte crc).toBitVec =
      (messageBits bytes).foldl (step 0x07#8) crc.toBitVec := by
    intro bytes
    induction bytes with
    | nil => exact fun crc => rfl
    | cons byte bytes ih =>
      intro crc
      rw [List.foldl_cons, ih, crcByte_bits, messageBits_cons, List.foldl_append]
  exact hrun bytes 0

/-! ## Messages -/

theorem divisor_eq : divisor 0x07#8 = X^8+X^2+X+1 := by
  have hseven : poly 0x07#8 = (X^2+X+1 : (ZMod 2)[X]) := by
    rw [poly]
    simp [Finset.sum_range_succ, ofBit]
    ring
  rw [divisor, hseven]
  ring

theorem messageBits_length (bytes : List UInt8) :
    (messageBits bytes).length = 8*bytes.length := by
  induction bytes with
  | nil => rfl
  | cons byte bytes ih =>
    rw [messageBits_cons, List.length_append, bits_length, ih, List.length_cons]
    ring

theorem bits_xor (a b : BitVec 8) : bits (a ^^^ b) = List.zipWith xor (bits a) (bits b) := by
  rw [bits, bits, bits, List.zipWith_map, List.zipWith_self]
  exact List.map_congr_left fun i _ => BitVec.getMsbD_xor

theorem messageBits_xor {a b : List UInt8} (h : a.length = b.length) :
    messageBits (List.zipWith (· ^^^ ·) a b) =
      List.zipWith xor (messageBits a) (messageBits b) := by
  induction a generalizing b with
  | nil =>
    have hb : b = [] := List.length_eq_zero_iff.mp h.symm
    simp [hb, messageBits]
  | cons x a ih =>
    cases b with
    | nil => exact absurd h (Nat.succ_ne_zero _)
    | cons y b =>
      have hbits : (bits x.toBitVec).length = (bits y.toBitVec).length := by
        rw [bits_length, bits_length]
      rw [List.zipWith_cons_cons, messageBits_cons, messageBits_cons, messageBits_cons,
        ih (Nat.succ.inj h), UInt8.toBitVec_xor, bits_xor, List.zipWith_append hbits]

/-! ## The check -/

theorem crc8_poly (bytes : List UInt8) : poly (TxAggregate.crc8Ponl107 bytes).toBitVec =
    (message (messageBits bytes) * X^8) %ₘ (X^8+X^2+X+1) := by
  rw [crc8_register, register_remainder, divisor_eq]

theorem crc8_xor {a b : List UInt8} (h : a.length = b.length) :
    TxAggregate.crc8Ponl107 (List.zipWith (· ^^^ ·) a b) =
      TxAggregate.crc8Ponl107 a ^^^ TxAggregate.crc8Ponl107 b := by
  have hbits : (messageBits a).length = (messageBits b).length := by
    rw [messageBits_length, messageBits_length, h]
  rw [← UInt8.toBitVec_inj, UInt8.toBitVec_xor, crc8_register, crc8_register, crc8_register,
    messageBits_xor h, register_xor _ hbits]

theorem crc8_checked (bytes : List UInt8) :
    TxAggregate.crc8Ponl107 (bytes++[TxAggregate.crc8Ponl107 bytes]) = 0 := by
  have hbits : messageBits (bytes++[TxAggregate.crc8Ponl107 bytes]) =
      messageBits bytes++bits (register 0x07#8 (messageBits bytes)) := by
    rw [messageBits, List.flatMap_append, List.flatMap_singleton, crc8_register]
    rfl
  rw [← UInt8.toBitVec_inj, crc8_register, hbits, register_checked]
  rfl

/-- The receiver of a header that carries a check byte finds none left. -/
theorem sdioHeader_checked (n : ℕ) :
    TxAggregate.crc8Ponl107 (sdioHeader .aic8800D80 n) = 0 :=
  crc8_checked [lengthLow n, lengthHigh n, 0x01]

theorem command_checked (m : AIC.CmdBufferMachine.LmacMsg) :
    TxAggregate.crc8Ponl107 ((m.encoding .aic8800D80).take 4) = 0 :=
  crc8_checked [lengthLow (m.len+4), lengthHigh (m.len+4), 0x11]

/-- From 65535 bytes the size goes round to 0, and nothing is left either. -/
theorem crc8_followed {pBuffer : List UInt8} {calSize : UInt16} {crc : UInt8} (rest : List UInt8)
    (h : calSize.toNat ≤ pBuffer.length) (hcrc : crc8Ponl107 pBuffer calSize = some crc) :
    crc8Ponl107 (pBuffer.take calSize.toNat++crc::rest) (calSize+1) = some 0 := by
  rw [crc8_eq h, Option.some.injEq] at hcrc
  have hlen : (pBuffer.take calSize.toNat).length = calSize.toNat := List.length_take_of_le h
  have hsum : (calSize+1).toNat = (calSize.toNat+1) % 2^16 := UInt16.toNat_add calSize 1
  by_cases hlast : calSize.toNat+1 < 2^16
  · rw [Nat.mod_eq_of_lt hlast] at hsum
    have htake : (pBuffer.take calSize.toNat++crc::rest).take (calSize+1).toNat =
        pBuffer.take calSize.toNat++[crc] := by
      rw [hsum, List.take_append, hlen, Nat.add_sub_cancel_left,
        List.take_of_length_le (by omega)]
      rfl
    rw [crc8_eq (by rw [List.length_append, hlen, List.length_cons, hsum]; omega), htake, ← hcrc,
      crc8_checked]
  · have hmax : calSize.toNat+1 = 2^16 := by
      have := calSize.toNat_lt
      omega
    have hzero : calSize+1 = 0 := by
      rw [← UInt16.toNat_inj, hsum, hmax]
      rfl
    rw [crc8Ponl107, if_pos hzero]

/-- **The check byte is the remainder of the message by x^8 + x^2 + x + 1.** -/
theorem crc8_is_remainder (pBuffer : List UInt8) (calSize : UInt16)
    (h : calSize.toNat ≤ pBuffer.length) :
    (∃ crc, crc8Ponl107 pBuffer calSize = some crc ∧
      poly crc.toBitVec = (message (messageBits (pBuffer.take calSize.toNat)) * X^8) %ₘ
        (X^8+X^2+X+1)) ∧
    (∀ other : List UInt8, calSize.toNat ≤ other.length → ∃ a b,
      crc8Ponl107 pBuffer calSize = some a ∧ crc8Ponl107 other calSize = some b ∧
      crc8Ponl107 (List.zipWith (· ^^^ ·) pBuffer other) calSize = some (a ^^^ b)) ∧
    ∀ crc rest, crc8Ponl107 pBuffer calSize = some crc →
      crc8Ponl107 (pBuffer.take calSize.toNat++crc::rest) (calSize+1) = some 0 := by
  refine ⟨⟨_, crc8_eq h, crc8_poly _⟩, fun other hother => ⟨_, _, crc8_eq h, crc8_eq hother, ?_⟩,
    fun crc rest hcrc => crc8_followed rest h hcrc⟩
  have hlen : calSize.toNat ≤ (List.zipWith (· ^^^ ·) pBuffer other).length := by
    rw [List.length_zipWith]
    exact le_min h hother
  rw [crc8_eq hlen, List.take_zipWith, crc8_xor]
  rw [List.length_take_of_le h, List.length_take_of_le hother]

/-- The header of a data record of 100 bytes. -/
theorem dataHeader_remainder : ∃ crc, crc8Ponl107 [0x64, 0x00, 0x01, 0xff] 3 = some crc ∧
    poly crc.toBitVec = (message (messageBits [0x64, 0x00, 0x01]) * X^8) %ₘ (X^8+X^2+X+1) :=
  (crc8_is_remainder [0x64, 0x00, 0x01, 0xff] 3 (by decide)).1

end AIC.HeaderCheck
