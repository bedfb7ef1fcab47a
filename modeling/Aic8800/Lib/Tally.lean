import Mathlib.Algebra.Group.Action.Defs
import Mathlib.Algebra.BigOperators.Group.List.Basic
import Mathlib.Algebra.Order.BigOperators.Group.List
import Mathlib.Algebra.Order.Ring.Nat
import Mathlib.Logic.Function.Basic

/-!
# What the entries of a class add up to

A counter that is kept beside a table should be the sum of a quantity over the
entries of a class. When one entry is put in the place of another, the sum moves
by the difference of the two.
-/

set_option autoImplicit false

namespace Lib.Tally

variable {κ τ γ : Type*} [DecidableEq γ] {cls : τ → γ} {f : τ → ℕ} {c : γ}
variable {keys : List κ} {table table' : κ → τ} {k : κ} {t : τ}

/-- The part of an entry in the sum of the class `c`. -/
def share (cls : τ → γ) (f : τ → ℕ) (c : γ) (t : τ) : ℕ := if cls t = c then f t else 0

def tally (cls : τ → γ) (f : τ → ℕ) (keys : List κ) (table : κ → τ) (c : γ) : ℕ :=
  (keys.map fun k => share cls f c (table k)).sum

theorem share_eq (h : cls t = c) : share cls f c t = f t := if_pos h

theorem share_ne (h : cls t ≠ c) : share cls f c t = 0 := if_neg h

theorem tally_congr (h : ∀ k ∈ keys, share cls f c (table' k) = share cls f c (table k)) :
    tally cls f keys table' c = tally cls f keys table c :=
  congrArg List.sum (List.map_congr_left h)

theorem tally_eq_zero (h : ∀ k ∈ keys, cls (table k) = c → f (table k) = 0) :
    tally cls f keys table c = 0 := by
  apply List.sum_eq_zero
  intro n hn
  obtain ⟨k, hk, rfl⟩ := List.mem_map.mp hn
  by_cases hc : cls (table k) = c
  · exact (share_eq hc).trans (h k hk hc)
  · exact share_ne hc

theorem tally_le {b : ℕ} (h : ∀ k ∈ keys, f (table k) ≤ b) :
    tally cls f keys table c ≤ keys.length*b := by
  have hsum := List.sum_le_card_nsmul (keys.map fun k => share cls f c (table k)) b
  rw [List.length_map, smul_eq_mul] at hsum
  apply hsum
  intro n hn
  obtain ⟨k, hk, rfl⟩ := List.mem_map.mp hn
  unfold share
  split
  · exact h k hk
  · exact Nat.zero_le b

section Entry
variable [DecidableEq κ]

theorem tally_off (hk : k ∉ keys) :
    tally cls f keys (Function.update table k t) c = tally cls f keys table c := by
  apply tally_congr
  intro j hj
  rw [Function.update_of_ne]
  rintro rfl
  exact hk hj

theorem tally_erase (hk : k ∈ keys) : tally cls f keys table c =
    share cls f c (table k)+tally cls f (keys.erase k) table c := by
  unfold tally
  rw [((List.perm_cons_erase hk).map _).sum_eq, List.map_cons, List.sum_cons]

theorem tally_put (hkeys : keys.Nodup) (hk : k ∈ keys) :
    tally cls f keys (Function.update table k t) c+share cls f c (table k) =
      tally cls f keys table c+share cls f c t := by
  rw [tally_erase hk, tally_erase hk, tally_off hkeys.not_mem_erase, Function.update_self]
  omega

theorem tally_same (hcls : cls t = cls (table k)) (hf : f t = f (table k)) :
    tally cls f keys (Function.update table k t) c = tally cls f keys table c := by
  apply tally_congr
  intro j _
  by_cases hj : j = k
  · subst hj
    rw [Function.update_self]
    simp only [share, hcls, hf]
  · rw [Function.update_of_ne hj]

/-- A counter for each class that moves with the entry still counts. -/
theorem tally_moves (hkeys : keys.Nodup) (hk : k ∈ keys) (hcls : cls t = cls (table k))
    {count : γ → ℕ} (h : ∀ c, count c = tally cls f keys table c) {n : ℕ}
    (hn : n+f (table k) = count (cls (table k))+f t) (c : γ) :
    Function.update count (cls (table k)) n c =
      tally cls f keys (Function.update table k t) c := by
  have hsum : tally cls f keys (Function.update table k t) c+share cls f c (table k) =
      tally cls f keys table c+share cls f c t := tally_put hkeys hk
  by_cases hc : c = cls (table k)
  · rw [share_eq hc.symm, share_eq (hcls.trans hc.symm)] at hsum
    rw [← hc, h] at hn
    rw [← hc, Function.update_self]
    omega
  · rw [share_ne (Ne.symm hc), share_ne fun hno => hc (hno.symm.trans hcls)] at hsum
    rw [Function.update_of_ne hc, h]
    exact hsum.symm

theorem share_le_tally (hk : k ∈ keys) :
    share cls f c (table k) ≤ tally cls f keys table c := by
  rw [tally_erase hk]
  exact Nat.le_add_right ..

end Entry

end Lib.Tally
