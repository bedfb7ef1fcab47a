import Mathlib.Algebra.BigOperators.Group.List.Basic
import Mathlib.Algebra.Order.BigOperators.Group.List
import Mathlib.Algebra.Order.Ring.Int

/-!
# Histograms

A table of counts, with how many are not zero.
-/

set_option autoImplicit false

namespace Lib.Histogram

/-- The number of entries that are not zero. -/
def used (table : List ℤ) : ℤ := table.countP fun n => n ≠ 0

def blank (size : ℕ) : List ℤ := List.replicate size 0

@[simp] theorem blank_sum (size : ℕ) : (blank size).sum = 0 := by simp [blank]

@[simp] theorem blank_used (size : ℕ) : used (blank size) = 0 := by simp [used, blank]

@[simp] theorem blank_length (size : ℕ) : (blank size).length = size := List.length_replicate

section Entries
variable {table : List ℤ} {i : ℕ}

theorem used_cons (n : ℤ) (table : List ℤ) :
    used (n::table) = used table+if n = 0 then 0 else 1 := by
  unfold used
  rw [List.countP_cons]
  split <;> simp_all

theorem used_le_sum (h : ∀ n ∈ table, 0 ≤ n) : used table ≤ table.sum := by
  induction table with
  | nil => simp [used]
  | cons n table ih =>
    have hn : 0 ≤ n := h n List.mem_cons_self
    have hrest : used table ≤ table.sum := ih fun m hm => h m (List.mem_cons_of_mem n hm)
    rw [used_cons, List.sum_cons]
    split <;> omega

theorem entry_le_sum (h : ∀ n ∈ table, 0 ≤ n) (hi : i < table.length) : table[i] ≤ table.sum :=
  List.single_le_sum h table[i] (List.getElem_mem hi)

/-- One more in an entry is one more in all. -/
theorem sum_set_succ (hi : i < table.length) :
    (table.set i (table[i]+1)).sum = table.sum+1 := by
  induction table generalizing i with
  | nil => exact absurd hi (Nat.not_lt_zero i)
  | cons n table ih =>
    cases i with
    | zero =>
      simp only [List.set_cons_zero, List.getElem_cons_zero, List.sum_cons]
      omega
    | succ i =>
      have hrest := ih (Nat.lt_of_succ_lt_succ hi)
      simp only [List.set_cons_succ, List.getElem_cons_succ, List.sum_cons, hrest]
      omega

/-- The first one in an entry makes it count. -/
theorem used_set_succ (h : ∀ n ∈ table, 0 ≤ n) (hi : i < table.length) :
    used (table.set i (table[i]+1)) = used table+if table[i] = 0 then 1 else 0 := by
  induction table generalizing i with
  | nil => exact absurd hi (Nat.not_lt_zero i)
  | cons n table ih =>
    have hn : 0 ≤ n := h n List.mem_cons_self
    cases i with
    | zero =>
      simp only [List.set_cons_zero, List.getElem_cons_zero, used_cons]
      split <;> split <;> omega
    | succ i =>
      have hrest := ih (fun m hm => h m (List.mem_cons_of_mem n hm)) (Nat.lt_of_succ_lt_succ hi)
      simp only [List.set_cons_succ, List.getElem_cons_succ, used_cons, hrest]
      omega

theorem set_nonneg (h : ∀ n ∈ table, 0 ≤ n) (hi : i < table.length) :
    ∀ n ∈ table.set i (table[i]+1), 0 ≤ n := by
  intro n hn
  rcases List.mem_or_eq_of_mem_set hn with hmem | rfl
  · exact h n hmem
  · have hentry : 0 ≤ table[i] := h table[i] (List.getElem_mem hi)
    omega

end Entries

end Lib.Histogram
