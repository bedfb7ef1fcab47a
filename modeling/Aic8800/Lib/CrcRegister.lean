import Mathlib

/-!
# Cyclic redundancy checks

A register of `w` bits takes a message bit by bit, the highest first: it is
shifted up, and the taps are added once for the bit that leaves and once for
the bit that comes in. What it holds in the end is a remainder over GF(2).
-/

set_option autoImplicit false

namespace Lib.CrcRegister
open Polynomial

variable {w : ℕ}

/-! ## Words as polynomials -/

noncomputable def ofBit (b : Bool) : (ZMod 2)[X] := if b then 1 else 0

noncomputable def poly (v : BitVec w) : (ZMod 2)[X] :=
  ∑ i ∈ Finset.range w, ofBit (v.getLsbD i) * X^i

/-- The bits of a word, the highest first. -/
def bits (v : BitVec w) : List Bool := (List.range w).map v.getMsbD

/-- The first bit is the highest coefficient. -/
noncomputable def message : List Bool → (ZMod 2)[X]
  | [] => 0
  | b::bs => ofBit b * X^bs.length+message bs

@[simp] theorem ofBit_xor (a b : Bool) : ofBit (a ^^ b) = ofBit a+ofBit b := by
  cases a <;> cases b <;> simp [ofBit, CharTwo.add_self_eq_zero]

theorem coeff_poly (v : BitVec w) (k : ℕ) :
    (poly v).coeff k = if v.getLsbD k then 1 else 0 := by
  have hterm : ∀ i, (ofBit (v.getLsbD i) * X^i).coeff k =
      if k = i then (if v.getLsbD k then (1 : ZMod 2) else 0) else 0 := by
    intro i
    by_cases hk : k = i
    · subst hk
      cases v.getLsbD k <;> simp [ofBit]
    · cases v.getLsbD i <;> simp [ofBit, hk, coeff_X_pow]
  rw [poly, finsetSum_coeff, Finset.sum_congr rfl fun i _ => hterm i, Finset.sum_ite_eq]
  by_cases hk : k < w
  · rw [if_pos (Finset.mem_range.mpr hk)]
  · rw [if_neg (fun h => hk (Finset.mem_range.mp h)), BitVec.getLsbD_of_ge v k (by omega)]
    rfl

theorem degree_poly_lt (v : BitVec w) : (poly v).degree < w := by
  rw [degree_lt_iff_coeff_zero]
  intro k hk
  rw [coeff_poly, BitVec.getLsbD_of_ge v k hk]
  rfl

theorem poly_injective : Function.Injective (poly (w := w)) := by
  intro a b h
  refine BitVec.eq_of_getLsbD_eq fun k _ => ?_
  have hk := congrArg (fun p => p.coeff k) h
  simp only [coeff_poly] at hk
  revert hk
  cases a.getLsbD k <;> cases b.getLsbD k <;> simp

@[simp] theorem poly_zero : poly (0#w) = 0 := by
  ext k
  simp [coeff_poly]

@[simp] theorem poly_xor (a b : BitVec w) : poly (a ^^^ b) = poly a+poly b := by
  ext k
  rw [coeff_add, coeff_poly, coeff_poly, coeff_poly, BitVec.getLsbD_xor]
  cases a.getLsbD k <;> cases b.getLsbD k <;> simp [CharTwo.add_self_eq_zero]

theorem poly_if (b : Bool) (v : BitVec w) :
    poly (if b then v else 0#w) = ofBit b * poly v := by
  cases b <;> simp [ofBit]

/-- The bit that leaves the word is the coefficient of `X^w`. -/
theorem X_mul_poly (v : BitVec w) : X * poly v = poly (v <<< 1)+ofBit v.msb * X^w := by
  ext k
  have hmsb : (ofBit v.msb * X^w).coeff k =
      if k = w then (if v.msb then (1 : ZMod 2) else 0) else 0 := by
    by_cases hk : k = w
    · subst hk
      cases v.msb <;> simp [ofBit]
    · cases v.msb <;> simp [ofBit, hk, coeff_X_pow]
  rw [coeff_add, coeff_poly, hmsb]
  cases k with
  | zero =>
    cases w with
    | zero => simp [BitVec.eq_nil v]
    | succ w => simp
  | succ k =>
    rw [coeff_X_mul, coeff_poly, BitVec.getLsbD_shiftLeft, BitVec.msb_eq_getLsbD_last]
    by_cases hk : k+1 = w
    · subst hk
      simp
    · by_cases hlt : k+1 < w
      · simp [hk, hlt]
      · have hge : w ≤ k := by omega
        simp [hk, hlt, BitVec.getLsbD_of_ge v k hge]

/-! ## Messages -/

theorem message_append (a b : List Bool) :
    message (a++b) = message a * X^b.length+message b := by
  induction a with
  | nil => simp [message]
  | cons x a ih =>
    rw [List.cons_append, message, ih, message, List.length_append, pow_add]
    ring

theorem message_xor {a b : List Bool} (h : a.length = b.length) :
    message (List.zipWith xor a b) = message a+message b := by
  induction a generalizing b with
  | nil =>
    have hb : b = [] := List.length_eq_zero_iff.mp h.symm
    simp [hb, message]
  | cons x a ih =>
    cases b with
    | nil => exact absurd h (Nat.succ_ne_zero _)
    | cons y b =>
      have hlen : a.length = b.length := Nat.succ.inj h
      rw [List.zipWith_cons_cons, message, message, message, ih hlen, ofBit_xor,
        List.length_zipWith, ← hlen, Nat.min_self]
      ring

theorem message_map_range (f : ℕ → Bool) (n : ℕ) :
    message ((List.range n).map f) = ∑ i ∈ Finset.range n, ofBit (f (n-1-i)) * X^i := by
  induction n with
  | zero => rfl
  | succ n ih =>
    rw [List.range_succ, List.map_append, message_append, ih, Finset.sum_range_succ',
      Finset.sum_mul]
    have hlast : message ([n].map f) = ofBit (f (n+1-1-0)) * X^0 := by simp [message]
    rw [hlast]
    refine congrArg (· + ofBit (f (n+1-1-0)) * X^0) (Finset.sum_congr rfl fun i hi => ?_)
    have hi : i < n := Finset.mem_range.mp hi
    rw [show n+1-1-(i+1) = n-1-i by omega, List.length_map, List.length_singleton, pow_one,
      mul_assoc, ← pow_succ]

@[simp] theorem message_bits (v : BitVec w) : message (bits v) = poly v := by
  rw [bits, message_map_range, poly]
  refine Finset.sum_congr rfl fun i hi => ?_
  have hi : i < w := Finset.mem_range.mp hi
  have hbit : v.getMsbD (w-1-i) = v.getLsbD i := by
    rw [BitVec.getMsbD_eq_getLsbD, show w-1-(w-1-i) = i by omega]
    simp [show w-1-i < w by omega]
  rw [hbit]

@[simp] theorem bits_length (v : BitVec w) : (bits v).length = w := by simp [bits]

/-! ## The register -/

noncomputable def divisor (taps : BitVec w) : (ZMod 2)[X] := X^w+poly taps

def step (taps r : BitVec w) (b : Bool) : BitVec w :=
  (r <<< 1) ^^^ (if r.msb then taps else 0#w) ^^^ (if b then taps else 0#w)

def register (taps : BitVec w) (bs : List Bool) : BitVec w := bs.foldl (step taps) 0#w

theorem divisor_monic (taps : BitVec w) : (divisor taps).Monic :=
  monic_X_pow_add (degree_poly_lt taps)

theorem degree_divisor (taps : BitVec w) : (divisor taps).degree = w := by
  rw [divisor, degree_add_eq_left_of_degree_lt, degree_X_pow]
  rw [degree_X_pow]
  exact degree_poly_lt taps

theorem poly_remainder (taps v : BitVec w) : poly v %ₘ divisor taps = poly v := by
  rw [modByMonic_eq_self_iff (divisor_monic taps), degree_divisor]
  exact degree_poly_lt v

/-- Bits that are shifted out or come in are taken off as multiples of the divisor. -/
theorem poly_step (taps r : BitVec w) (b : Bool) :
    poly (step taps r b) = X * poly r+ofBit b * X^w+(ofBit r.msb+ofBit b) * divisor taps := by
  have htwice : ∀ p : (ZMod 2)[X], p+p = 0 := CharTwo.add_self_eq_zero
  have hm := htwice (ofBit r.msb * X^w)
  have hb := htwice (ofBit b * X^w)
  rw [step, poly_xor, poly_xor, poly_if, poly_if, X_mul_poly, divisor]
  linear_combination -hm-hb

theorem run_remainder (taps r : BitVec w) (bs : List Bool) :
    poly (bs.foldl (step taps) r) =
      (poly r * X^bs.length+message bs * X^w) %ₘ divisor taps := by
  induction bs generalizing r with
  | nil => simp [message, poly_remainder]
  | cons b bs ih =>
    rw [List.foldl_cons, ih]
    refine modByMonic_eq_of_dvd_sub (divisor_monic taps) ⟨(ofBit r.msb+ofBit b) * X^bs.length, ?_⟩
    rw [poly_step, message, List.length_cons, pow_succ]
    ring

/-- The register holds the remainder of the message, shifted up by its width. -/
theorem register_remainder (taps : BitVec w) (bs : List Bool) :
    poly (register taps bs) = (message bs * X^w) %ₘ divisor taps := by
  rw [register, run_remainder, poly_zero, zero_mul, zero_add]

theorem register_xor (taps : BitVec w) {a b : List Bool} (h : a.length = b.length) :
    register taps (List.zipWith xor a b) = register taps a ^^^ register taps b := by
  apply poly_injective
  rw [poly_xor, register_remainder, register_remainder, register_remainder, message_xor h,
    add_mul, add_modByMonic]

/-- A message with its own check behind it leaves nothing. -/
theorem register_checked (taps : BitVec w) (bs : List Bool) :
    register taps (bs++bits (register taps bs)) = 0#w := by
  apply poly_injective
  have hsplit := modByMonic_add_div (message bs * X^w) (divisor taps)
  have htwice := CharTwo.add_self_eq_zero ((message bs * X^w) %ₘ divisor taps)
  rw [register_remainder, poly_zero, modByMonic_eq_zero_iff_dvd (divisor_monic taps),
    message_append, message_bits, bits_length, register_remainder]
  refine ⟨((message bs * X^w) /ₘ divisor taps) * X^w, ?_⟩
  linear_combination (-hsplit+htwice) * X^w

end Lib.CrcRegister
