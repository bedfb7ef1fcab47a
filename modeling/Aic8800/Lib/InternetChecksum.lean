import Mathlib.Algebra.BigOperators.Group.Finset.Basic
import Mathlib.Data.Nat.Notation
import Mathlib.Tactic.Common

/-!
# The checksum of the Internet

Words of 16 bits are added with the carry brought back to the right. A datagram is
as it was sent when its words with the checksum add up to all ones. One word of it
can be replaced when the checksum is changed by the difference.
-/

set_option autoImplicit false

namespace Lib.InternetChecksum

/-- The sum folds to `0xffff`. -/
def Verifies (total : ℕ) : Prop := 0 < total ∧ total % 65535 = 0

instance (total : ℕ) : Decidable (Verifies total) :=
  inferInstanceAs (Decidable (0 < total ∧ total % 65535 = 0))

/-- The sum of `n` words, of which the word `k` is what `word` says. -/
def total (word : ℕ → ℕ) (n : ℕ) : ℕ := ∑ k ∈ Finset.range n, word k

variable {word word' : ℕ → ℕ} {n i j : ℕ}

/-- Two words are replaced in a sum. -/
theorem total_replaced (hi : i < n) (hj : j < n) (hij : i ≠ j)
    (h : ∀ k, k ≠ i → k ≠ j → word' k = word k) :
    ∃ rest, total word n = rest+word i+word j ∧ total word' n = rest+word' i+word' j := by
  have hmi : i ∈ Finset.range n := Finset.mem_range.mpr hi
  have hmj : j ∈ (Finset.range n).erase i :=
    Finset.mem_erase.mpr ⟨Ne.symm hij, Finset.mem_range.mpr hj⟩
  have hsplit : ∀ w : ℕ → ℕ, total w n =
      w i+(w j+∑ k ∈ ((Finset.range n).erase i).erase j, w k) := by
    intro w
    rw [Finset.add_sum_erase _ w hmj, Finset.add_sum_erase _ w hmi]
    rfl
  have hrest : ∑ k ∈ ((Finset.range n).erase i).erase j, word' k =
      ∑ k ∈ ((Finset.range n).erase i).erase j, word k := by
    refine Finset.sum_congr rfl fun k hk => ?_
    rw [Finset.mem_erase, Finset.mem_erase] at hk
    exact h k hk.2.1 hk.1
  refine ⟨∑ k ∈ ((Finset.range n).erase i).erase j, word k, ?_, ?_⟩
  · rw [hsplit word]
    omega
  · rw [hsplit word', hrest]
    omega

/-- From the checksum `c` the whole new word was taken, not its difference to the old one. -/
theorem verifies_replaced {rest c c' f' : ℕ} (hf' : 0 < f')
    (hc' : c' % 65535 = (c+65535*f'-f') % 65535) :
    Verifies (rest+c'+f') ↔ (rest+c) % 65535 = 0 := by
  unfold Verifies
  have hle : f' ≤ 65535*f' := Nat.le_mul_of_pos_left f' (by decide)
  constructor
  · rintro ⟨-, hnew⟩
    omega
  · intro hrest
    exact ⟨by omega, by omega⟩

end Lib.InternetChecksum
