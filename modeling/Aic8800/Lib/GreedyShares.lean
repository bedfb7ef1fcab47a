import Mathlib.Algebra.BigOperators.Group.List.Basic
import Mathlib.Algebra.Order.Ring.Nat
import Mathlib.Data.Nat.Basic

/-!
# A request shared out in order

Claims are served one after the other, each as far as the request goes. Together
they get the request or all they ask for, and a claim gets something only when those
before it got all.
-/

set_option autoImplicit false

namespace Lib.GreedyShares

def shares : ℕ → List ℕ → List ℕ
  | _, [] => []
  | req, a::as => min req a::shares (req-a) as

@[simp] theorem shares_zero (as : List ℕ) : shares 0 as = as.map fun _ => 0 := by
  induction as with
  | nil => rfl
  | cons a as ih => rw [shares, Nat.zero_min, Nat.zero_sub, ih, List.map_cons]

theorem sum_shares (req : ℕ) (as : List ℕ) : (shares req as).sum = min req as.sum := by
  induction as generalizing req with
  | nil => exact (Nat.min_zero req).symm
  | cons a as ih =>
    rw [shares, List.sum_cons, List.sum_cons, ih]
    omega

/-- What is left of the request behind a claim that gets something is what those before it did not
ask for. -/
theorem served_before {req : ℕ} {as : List ℕ} {i j : ℕ} (hij : i < j)
    (h : (shares req as)[j]? ≠ some 0) (hj : j < as.length) : (shares req as)[i]? = as[i]? := by
  induction as generalizing req i j with
  | nil => exact absurd hj (Nat.not_lt_zero j)
  | cons a as ih =>
    obtain ⟨j, rfl⟩ : ∃ m, j = m+1 := ⟨j-1, by omega⟩
    rw [shares, List.getElem?_cons_succ] at h
    have hj' : j < as.length := Nat.lt_of_succ_lt_succ hj
    cases i with
    | zero =>
      -- nothing is left for the others when the first is not served fully
      have hfull : a ≤ req := by
        by_contra hlt
        have hzero : req-a = 0 := by omega
        rw [hzero, shares_zero, List.getElem?_map, List.getElem?_eq_getElem hj'] at h
        exact h rfl
      rw [shares, List.getElem?_cons_zero, List.getElem?_cons_zero, Nat.min_eq_right hfull]
    | succ i => exact ih (Nat.lt_of_succ_lt_succ hij) h hj'

end Lib.GreedyShares
