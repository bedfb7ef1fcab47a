import Mathlib.Data.List.Basic

/-!
# Accesses to tables

A run of code reduced to the list of its accesses, each a table and an index.
`InRange` says that no index reaches the size of its table; the lemmas follow
the ways in which such a list is put together.
-/

set_option autoImplicit false

namespace Lib.TableAccess

variable {τ : Type*} {size : τ → ℕ}

def InRange (size : τ → ℕ) (l : List (τ × ℕ)) : Prop := ∀ a ∈ l, a.2 < size a.1

instance (size : τ → ℕ) (l : List (τ × ℕ)) : Decidable (InRange size l) :=
  inferInstanceAs (Decidable (∀ a ∈ l, a.2 < size a.1))

@[simp] theorem inRange_nil : InRange size [] := by simp [InRange]

@[simp] theorem inRange_cons {t : τ} {i : ℕ} {l : List (τ × ℕ)} :
    InRange size ((t, i)::l) ↔ i < size t ∧ InRange size l := by
  simp [InRange]

@[simp] theorem inRange_append {l m : List (τ × ℕ)} :
    InRange size (l++m) ↔ InRange size l ∧ InRange size m := by
  simp only [InRange, List.mem_append, or_imp, forall_and]

/-- The accesses of a branch without an alternative. -/
@[simp] theorem inRange_ite {p : Prop} [Decidable p] {l : List (τ × ℕ)} :
    InRange size (if p then l else []) ↔ (p → InRange size l) := by
  by_cases h : p <;> simp [h]

@[simp] theorem inRange_else {p : Prop} [Decidable p] {l : List (τ × ℕ)} :
    InRange size (if p then [] else l) ↔ (¬ p → InRange size l) := by
  by_cases h : p <;> simp [h]

/-- `n` entries from `off` on. -/
def block (t : τ) (off n : ℕ) : List (τ × ℕ) := (List.range' off n).map fun i => (t, i)

@[simp] theorem inRange_block {t : τ} {off n : ℕ} :
    InRange size (block t off n) ↔ n = 0 ∨ off+n ≤ size t := by
  simp only [InRange, block, List.forall_mem_map, List.mem_range'_1, and_imp]
  constructor
  · intro h
    rcases Nat.eq_zero_or_pos n with hn | hn
    · exact .inl hn
    · have hlast := h (off+n-1) (by omega) (by omega)
      exact .inr (by omega)
  · intro h i hlow hhigh
    omega

end Lib.TableAccess
