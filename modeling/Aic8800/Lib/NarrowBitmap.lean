import Mathlib.Data.BitVec

/-!
# A bitmap in a narrow word

Its bits are tested, set and cleared with masks of a wider word, to which it is widened first and
from which it is cut off again. Bits of the mask beyond the narrow word are lost.
-/

set_option autoImplicit false

namespace Lib.NarrowBitmap

variable {w n : ℕ} (x : BitVec w) (mask : BitVec n)

def test : Bool := x.setWidth n &&& mask != 0

def set : BitVec w := (x.setWidth n ||| mask).setWidth w

def clear : BitVec w := (x.setWidth n &&& ~~~mask).setWidth w

variable {x}

theorem test_bit {i : ℕ} (hi : i < n) : test x (BitVec.twoPow n i) = x.getLsbD i := by
  rw [test, BitVec.and_twoPow, BitVec.getLsbD_setWidth, decide_eq_true hi, Bool.true_and]
  have hne : BitVec.twoPow n i ≠ 0#n := by
    intro h
    have hbit := congrArg (fun y => y.getLsbD i) h
    simp [hi] at hbit
  cases x.getLsbD i with
  | false => simp
  | true => simpa using hne

theorem getLsbD_set {j : ℕ} (hj : j < w) (hn : w ≤ n) :
    (set x mask).getLsbD j = (x.getLsbD j || mask.getLsbD j) := by
  have hjn : j < n := Nat.lt_of_lt_of_le hj hn
  simp [set, hj, hjn]

theorem getLsbD_clear {j : ℕ} (hj : j < w) (hn : w ≤ n) :
    (clear x mask).getLsbD j = (x.getLsbD j && !mask.getLsbD j) := by
  have hjn : j < n := Nat.lt_of_lt_of_le hj hn
  simp [clear, hj, hjn]

/-- Setting bits one after the other. -/
theorem getLsbD_sets (bit : ℕ → BitVec n) (is : List ℕ) {j : ℕ} (hj : j < w) (hn : w ≤ n) :
    (is.foldl (fun x i => set x (bit i)) x).getLsbD j =
      (x.getLsbD j || is.any fun i => (bit i).getLsbD j) := by
  induction is generalizing x with
  | nil => simp
  | cons i is ih =>
    rw [List.foldl_cons, ih, getLsbD_set (bit i) hj hn, List.any_cons, Bool.or_assoc]

end Lib.NarrowBitmap
