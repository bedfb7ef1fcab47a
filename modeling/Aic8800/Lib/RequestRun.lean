import Mathlib.Tactic.Linarith

/-!
# Requests one after the other

A plan of requests is sent until one of them fails. Results are given by number, and zero is
success.
-/

set_option autoImplicit false

namespace Lib.RequestRun

variable {α : Type*} (ret : ℕ → ℤ)

/-- The result of the last request, and those that were sent, from number `k` on. -/
def run : ℕ → List α → ℤ × List α
  | _, [] => (0, [])
  | k, x::xs =>
    if ret k ≠ 0 then (ret k, [x])
    else ((run (k+1) xs).1, x::(run (k+1) xs).2)

/-- No request follows one that failed, and the result is that of the last. Without any request it
is not success. -/
structure Reported (r : ℤ) (sent : List α) : Prop where
  stops : ∀ j, j+1 < sent.length → ret j = 0
  last : sent ≠ [] → r = ret (sent.length-1)
  none : sent = [] → r ≠ 0

variable {ret}

theorem run_cons_fail {k : ℕ} {x : α} {xs : List α} (h : ret k ≠ 0) :
    run ret k (x::xs) = (ret k, [x]) := if_pos h

theorem run_cons_ok {k : ℕ} {x : α} {xs : List α} (h : ret k = 0) :
    run ret k (x::xs) = ((run ret (k+1) xs).1, x::(run ret (k+1) xs).2) := if_neg (not_not.mpr h)

theorem run_sent_ne_nil {k : ℕ} {xs : List α} (h : xs ≠ []) : (run ret k xs).2 ≠ [] := by
  cases xs with
  | nil => exact absurd rfl h
  | cons x xs =>
    by_cases hk : ret k = 0
    · rw [run_cons_ok hk]
      exact List.cons_ne_nil _ _
    · rw [run_cons_fail hk]
      exact List.cons_ne_nil _ _

theorem mem_run_head (k : ℕ) (x : α) (xs : List α) : x ∈ (run ret k (x::xs)).2 := by
  by_cases hk : ret k = 0
  · rw [run_cons_ok hk]
    exact List.mem_cons_self
  · rw [run_cons_fail hk]
    exact List.mem_cons_self

variable (ret) in
theorem run_stops (k : ℕ) (xs : List α) : ∀ j, j+1 < (run ret k xs).2.length → ret (k+j) = 0 := by
  induction xs generalizing k with
  | nil => exact fun j hj => absurd hj (Nat.not_lt_zero _)
  | cons x xs ih =>
    intro j hj
    by_cases hk : ret k = 0
    · rw [run_cons_ok hk] at hj
      cases j with
      | zero => exact hk
      | succ j =>
        have hrest := ih (k+1) j (by simpa using hj)
        rwa [Nat.add_right_comm] at hrest
    · rw [run_cons_fail hk] at hj
      exact absurd hj (by simp)

theorem run_last (k : ℕ) {xs : List α} (h : xs ≠ []) :
    (run ret k xs).1 = ret (k+((run ret k xs).2.length-1)) := by
  induction xs generalizing k with
  | nil => exact absurd rfl h
  | cons x xs ih =>
    by_cases hk : ret k = 0
    · rw [run_cons_ok hk]
      by_cases hxs : xs = []
      · subst hxs
        exact hk.symm
      · have hsent : (run ret (k+1) xs).2 ≠ [] := run_sent_ne_nil hxs
        have hpos := List.length_pos_iff.mpr hsent
        have hrest := ih (k+1) hxs
        have hindex : k+((run ret (k+1) xs).2.length+1-1) =
            k+1+((run ret (k+1) xs).2.length-1) := by omega
        rw [List.length_cons, hindex]
        exact hrest
    · rw [run_cons_fail hk]
      rfl

theorem run_reported {xs : List α} (h : xs ≠ []) :
    Reported ret (run ret 0 xs).1 (run ret 0 xs).2 where
  stops j hj := by
    have hzero := run_stops ret 0 xs j hj
    rwa [Nat.zero_add] at hzero
  last _ := by
    have hlast : (run ret 0 xs).1 = _ := run_last 0 h
    rwa [Nat.zero_add] at hlast
  none hno := absurd hno (run_sent_ne_nil h)

/-- Only a run that comes to the end of the plan is a success. -/
theorem run_complete (k : ℕ) (xs : List α) (h : (run ret k xs).1 = 0) : (run ret k xs).2 = xs := by
  induction xs generalizing k with
  | nil => rfl
  | cons x xs ih =>
    by_cases hk : ret k = 0
    · rw [run_cons_ok hk] at h ⊢
      exact congrArg (x::·) (ih (k+1) h)
    · rw [run_cons_fail hk] at h
      exact absurd h hk

theorem run_success_iff (k : ℕ) (xs : List α) :
    (run ret k xs).1 = 0 ↔ ∀ j < xs.length, ret (k+j) = 0 := by
  induction xs generalizing k with
  | nil => exact iff_of_true rfl fun j hj => absurd hj (Nat.not_lt_zero j)
  | cons x xs ih =>
    by_cases hk : ret k = 0
    · rw [run_cons_ok hk, ih]
      constructor
      · intro h j hj
        cases j with
        | zero => exact hk
        | succ j =>
          have hnext := h j (Nat.lt_of_succ_lt_succ hj)
          rwa [Nat.add_assoc, Nat.add_comm 1 j] at hnext
      · intro h j hj
        have hnext := h (j+1) (Nat.succ_lt_succ hj)
        rwa [Nat.add_assoc, Nat.add_comm 1 j]
    · rw [run_cons_fail hk]
      exact iff_of_false hk fun h => hk (h 0 (Nat.succ_pos _))

/-- Behind `k` requests that have succeeded, one that fails is the last and its error the result. -/
theorem run_fails_last {k : ℕ} {xs : List α} (hk : ∀ j < k, ret j = 0) (h : xs ≠ []) {j : ℕ}
    (hj : j < k+(run ret k xs).2.length) (hfail : ret j ≠ 0) :
    j+1 = k+(run ret k xs).2.length ∧ (run ret k xs).1 = ret j := by
  have hge : k ≤ j := Nat.not_lt.mp fun hlt => hfail (hk j hlt)
  obtain ⟨i, rfl⟩ := Nat.exists_eq_add_of_le hge
  have hlast : ¬ i+1 < (run ret k xs).2.length := fun hlt => hfail (run_stops ret k xs i hlt)
  have hi : i = (run ret k xs).2.length-1 := by omega
  exact ⟨by omega, by rw [run_last k h, ← hi]⟩

end Lib.RequestRun
