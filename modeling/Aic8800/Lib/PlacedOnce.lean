import Mathlib.Data.List.Perm.Basic
import Mathlib.Data.List.Nodup
import Mathlib.Logic.Function.Basic

/-!
# Tokens in a pool and in places

A fixed list of tokens is divided between a pool and the lists of some places.
A token leaves the pool for a place and comes back to the head of the pool.
While every step only moves tokens, each of them is in one list, once.
-/

set_option autoImplicit false

namespace Lib.PlacedOnce

variable {α : Type*} {all free held held' out : List α}

def Placed (all free held : List α) : Prop := (free++held).Perm all

theorem placed_all (all : List α) : Placed all all.reverse [] := by
  rw [Placed, List.append_nil]
  exact List.reverse_perm all

theorem Placed.take {a : α} (h : Placed all (a::free) held) : Placed all free (a::held) :=
  List.perm_middle.trans h

/-- The tokens `out` leave their places, one by one, for the head of the pool. -/
theorem Placed.give (h : Placed all free held) (hmove : (held'++out).Perm held) :
    Placed all (out.reverse++free) held' := by
  have hout : (out.reverse++free).Perm (free++out) :=
    (List.Perm.append_right free (List.reverse_perm out)).trans List.perm_append_comm
  have hhead : (out.reverse++free++held').Perm (free++(held'++out)) := by
    apply (hout.append_right held').trans
    rw [List.append_assoc]
    exact List.perm_append_comm.append_left free
  exact (hhead.trans (hmove.append_left free)).trans h

/-- An empty pool means that the places hold every token. -/
theorem Placed.dry (h : Placed all [] held) : held.length = all.length := List.Perm.length_eq h

theorem Placed.exactly_one (h : Placed all free held) (hall : all.Nodup) {a : α} (ha : a ∈ all) :
    (a ∈ free ∧ a ∉ held) ∨ (a ∉ free ∧ a ∈ held) := by
  have hnodup := List.nodup_append.mp (h.nodup_iff.mpr hall)
  rcases List.mem_append.mp (h.mem_iff.mpr ha) with hfree | hheld
  · exact .inl ⟨hfree, fun hheld => hnodup.2.2 a hfree a hheld rfl⟩
  · exact .inr ⟨fun hfree => hnodup.2.2 a hfree a hheld rfl, hheld⟩

/-- One of numbered places changes its list. -/
theorem flatMap_update (f : ℕ → List α) {t n : ℕ} (ht : t < n) (l : List α) :
    ((List.range n).flatMap (Function.update f t l)++f t).Perm ((List.range n).flatMap f++l) := by
  induction n with
  | zero => exact absurd ht (Nat.not_lt_zero t)
  | succ n ih =>
    simp only [List.range_succ, List.flatMap_append, List.flatMap_singleton]
    by_cases htn : t = n
    · subst t
      have hbelow : (List.range n).flatMap (Function.update f n l) = (List.range n).flatMap f := by
        apply List.flatMap_congr
        intro i hi
        rw [Function.update_of_ne (Nat.ne_of_lt (List.mem_range.mp hi))]
      rw [hbelow, Function.update_self, List.append_assoc, List.append_assoc]
      exact List.perm_append_comm.append_left _
    · have hlt : t < n := by omega
      rw [Function.update_of_ne (Ne.symm htn), List.append_assoc, List.append_assoc]
      apply (List.perm_append_comm.append_left _).trans
      rw [← List.append_assoc]
      apply ((ih hlt).append_right (f n)).trans
      rw [List.append_assoc]
      exact List.perm_append_comm.append_left _

end Lib.PlacedOnce
