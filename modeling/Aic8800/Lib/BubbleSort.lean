import Mathlib.Data.List.Basic
import Mathlib.Logic.Function.Iterate
import Mathlib.Order.Lattice

/-!
# Bubble sort

Passes over a list, each of which exchanges neighbours that stand in the wrong order, until one
exchanges nothing.
-/

set_option autoImplicit false

namespace Lib.BubbleSort

variable {α β : Type*} [LinearOrder β] (key : α → β)

/-- A pass with its first entry taken out, and whether it exchanged any. -/
def bubble : α → List α → List α × Bool
  | x, [] => ([x], false)
  | x, y::ys =>
    if key x < key y then (y::(bubble x ys).1, true)
    else (x::(bubble y ys).1, (bubble y ys).2)

def pass : List α → List α × Bool
  | [] => ([], false)
  | x::xs => bubble key x xs

/-- No result when the fuel is used up. -/
def sort : ℕ → List α → Option (List α)
  | 0, _ => none
  | fuel+1, l => if (pass key l).2 then sort fuel (pass key l).1 else some (pass key l).1

/-- The keys do not rise. -/
def Falling (l : List α) : Prop := l.Pairwise fun x y => key y ≤ key x

variable {key} {x : α} {xs a b l : List α}

variable (key) in
/-- The last entry behind a pass has the least key. -/
theorem bubble_split (x : α) (xs : List α) : ∃ front last,
    (bubble key x xs).1 = front++[last] ∧ front.length = xs.length ∧
      (∀ z ∈ x::xs, key last ≤ key z) ∧ ∀ z ∈ front++[last], z ∈ x::xs := by
  induction xs generalizing x with
  | nil => exact ⟨[], x, rfl, rfl, by simp, by simp⟩
  | cons y ys ih =>
    by_cases hxy : key x < key y
    · obtain ⟨front, last, hresult, hlength, hleast, hmem⟩ := ih x
      refine ⟨y::front, last, by simp [bubble, hxy, hresult], by simp [hlength], ?_, ?_⟩
      · intro z hz
        rcases List.mem_cons.mp hz with rfl | hz
        · exact hleast z List.mem_cons_self
        · rcases List.mem_cons.mp hz with rfl | hz
          · exact le_trans (hleast x List.mem_cons_self) (le_of_lt hxy)
          · exact hleast z (List.mem_cons_of_mem x hz)
      · intro z hz
        rcases List.mem_cons.mp hz with rfl | hz
        · simp
        · rcases List.mem_cons.mp (hmem z hz) with rfl | hz
          · simp
          · simp [hz]
    · obtain ⟨front, last, hresult, hlength, hleast, hmem⟩ := ih y
      refine ⟨x::front, last, by simp [bubble, hxy, hresult], by simp [hlength], ?_, ?_⟩
      · intro z hz
        rcases List.mem_cons.mp hz with rfl | hz
        · exact le_trans (hleast y List.mem_cons_self) (not_lt.mp hxy)
        · exact hleast z hz
      · intro z hz
        rcases List.mem_cons.mp hz with rfl | hz
        · simp
        · exact List.mem_cons_of_mem x (hmem z hz)

/-- A pass over a falling list exchanges nothing. -/
theorem bubble_falling (h : Falling key (x::xs)) : bubble key x xs = (x::xs, false) := by
  induction xs generalizing x with
  | nil => rfl
  | cons y ys ih =>
    obtain ⟨hx, hrest⟩ := List.pairwise_cons.mp h
    have hle : ¬ key x < key y := not_lt.mpr (hx y List.mem_cons_self)
    rw [bubble, if_neg hle, ih hrest]

/-- What stands behind the least entries already is left alone. -/
theorem bubble_append (hb : Falling key b) (hle : ∀ y ∈ b, ∀ z ∈ x::xs, key y ≤ key z) :
    (bubble key x (xs++b)).1 = (bubble key x xs).1++b := by
  induction xs generalizing x with
  | nil =>
    have hall : Falling key (x::b) :=
      List.pairwise_cons.mpr ⟨fun y hy => hle y hy x List.mem_cons_self, hb⟩
    rw [List.nil_append, bubble_falling hall]
    rfl
  | cons y ys ih =>
    rw [List.cons_append, bubble, bubble]
    split
    · rw [ih fun w hw z hz => hle w hw z (by
        rcases List.mem_cons.mp hz with rfl | hz
        · simp
        · simp [hz])]
      rfl
    · rw [ih fun w hw z hz => hle w hw z (List.mem_cons_of_mem x hz)]
      rfl

theorem bubble_fixed (h : (bubble key x xs).2 = false) : (bubble key x xs).1 = x::xs := by
  induction xs generalizing x with
  | nil => rfl
  | cons y ys ih =>
    rw [bubble] at h ⊢
    split at h
    · cases h
    · next hxy => rw [if_neg hxy, ih h]

/-- A pass that exchanges nothing changes nothing. -/
theorem pass_fixed (h : (pass key l).2 = false) : (pass key l).1 = l := by
  cases l with
  | nil => rfl
  | cons x xs => exact bubble_fixed h

/-- The entries in front of those that stand in their place already need no more passes than there
are of them, and one that finds nothing to exchange. -/
theorem sort_append {n fuel : ℕ} (ha : a.length = n) (hb : Falling key b)
    (hle : ∀ y ∈ b, ∀ z ∈ a, key y ≤ key z) (hfuel : n < fuel) :
    sort key fuel (a++b) = some ((fun l => (pass key l).1)^[n] (a++b)) := by
  induction n generalizing a b fuel with
  | zero =>
    obtain rfl := List.length_eq_zero_iff.mp ha
    obtain ⟨fuel, rfl⟩ := Nat.exists_eq_succ_of_ne_zero (Nat.ne_of_gt hfuel)
    cases b with
    | nil => rfl
    | cons y ys =>
      have hpass : pass key (y::ys) = (y::ys, false) := bubble_falling hb
      simp [sort, hpass]
  | succ n ih =>
    obtain ⟨fuel, rfl⟩ := Nat.exists_eq_succ_of_ne_zero (Nat.ne_of_gt (Nat.zero_lt_of_lt hfuel))
    cases hmove : (pass key (a++b)).2 with
    | false =>
      have hfix : (fun l => (pass key l).1) (a++b) = a++b := pass_fixed hmove
      rw [sort, hmove, Function.iterate_fixed hfix]
      exact congrArg some hfix
    | true =>
      cases a with
      | nil => cases ha
      | cons x xs =>
        obtain ⟨front, last, hresult, hlength, hleast, hmem⟩ := bubble_split key x xs
        have hpass : (pass key (x::xs++b)).1 = front++(last::b) := by
          change (bubble key x (xs++b)).1 = _
          rw [bubble_append hb hle, hresult, List.append_assoc, List.singleton_append]
        have hfront : front.length = n := hlength.trans (Nat.succ.inj ha)
        have hlast : last ∈ x::xs := hmem last (by simp)
        have hb' : Falling key (last::b) :=
          List.pairwise_cons.mpr ⟨fun y hy => hle y hy last hlast, hb⟩
        have hle' : ∀ y ∈ last::b, ∀ z ∈ front, key y ≤ key z := by
          intro y hy z hz
          have hz' := hmem z (List.mem_append_left _ hz)
          rcases List.mem_cons.mp hy with rfl | hy
          · exact hleast z hz'
          · exact hle y hy z hz'
        rw [sort, hmove, if_pos rfl, Function.iterate_succ_apply, hpass]
        exact ih hfront hb' hle' (Nat.lt_of_succ_lt_succ hfuel)

/-- More fuel than entries is enough. -/
theorem sort_eq {fuel : ℕ} (hfuel : l.length < fuel) :
    sort key fuel l = some ((fun l => (pass key l).1)^[l.length] l) := by
  have hb : Falling key ([] : List α) := List.Pairwise.nil
  have h := sort_append (a := l) rfl hb (fun y hy => absurd hy List.not_mem_nil) hfuel
  rwa [List.append_nil] at h

end Lib.BubbleSort
