import Mathlib.Algebra.Order.Group.Nat
import Mathlib.Data.Nat.Basic

/-!
# Aligned fields

A record whose fields follow one another, each at the next multiple of its
alignment. The layout follows from the list of the fields alone.
-/

set_option autoImplicit false

namespace Lib.AlignedFields

def alignUp (n a : ℕ) : ℕ := (n+(a-1))/a*a

variable {α : Type*} (align size : α → ℕ)

/-- The fields with their offsets. -/
def place : ℕ → List α → List (α × ℕ)
  | _, [] => []
  | pos, f::fs => (f, alignUp pos (align f))::place (alignUp pos (align f)+size f) fs

/-- Where the last field ends. -/
def stop : ℕ → List α → ℕ
  | pos, [] => pos
  | pos, f::fs => stop (alignUp pos (align f)+size f) fs

variable {align size} {pos : ℕ} {fs : List α} {f : α} {off : ℕ}

theorem le_alignUp (n : ℕ) {a : ℕ} (ha : 0 < a) : n ≤ alignUp n a := by
  have hmod := Nat.mod_lt (n+(a-1)) ha
  have hdiv := Nat.div_add_mod (n+(a-1)) a
  unfold alignUp
  rw [Nat.mul_comm] at hdiv
  omega

theorem dvd_alignUp (n a : ℕ) : a ∣ alignUp n a := Nat.dvd_mul_left a _

theorem place_aligned (h : (f, off) ∈ place align size pos fs) : align f ∣ off := by
  induction fs generalizing pos with
  | nil => exact absurd h List.not_mem_nil
  | cons g fs ih =>
    rcases List.mem_cons.mp h with heq | h
    · obtain ⟨rfl, rfl⟩ := Prod.mk.inj heq
      exact dvd_alignUp pos (align f)
    · exact ih h

theorem le_stop (hpos : ∀ f ∈ fs, 0 < align f) : pos ≤ stop align size pos fs := by
  induction fs generalizing pos with
  | nil => exact le_rfl
  | cons f fs ih =>
    have hle := le_alignUp pos (hpos f List.mem_cons_self)
    exact (hle.trans (Nat.le_add_right _ _)).trans
      (ih fun g hg => hpos g (List.mem_cons_of_mem f hg))

/-- Each field lies between the start and the end. -/
theorem place_inside (hpos : ∀ f ∈ fs, 0 < align f) (h : (f, off) ∈ place align size pos fs) :
    pos ≤ off ∧ off+size f ≤ stop align size pos fs := by
  induction fs generalizing pos with
  | nil => exact absurd h List.not_mem_nil
  | cons g fs ih =>
    have hle := le_alignUp pos (hpos g List.mem_cons_self)
    have hrest : ∀ f ∈ fs, 0 < align f := fun f hf => hpos f (List.mem_cons_of_mem g hf)
    rcases List.mem_cons.mp h with heq | h
    · obtain ⟨rfl, rfl⟩ := Prod.mk.inj heq
      exact ⟨hle, le_stop hrest⟩
    · obtain ⟨hlow, hup⟩ := ih hrest h
      exact ⟨(hle.trans (Nat.le_add_right _ _)).trans hlow, hup⟩

end Lib.AlignedFields
