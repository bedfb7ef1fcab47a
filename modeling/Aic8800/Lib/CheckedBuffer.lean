import Aic8800.Lib.FlatMemory

/-!
# Buffers that know how far they were written

A buffer is a memory of its own, with the number of cells that it has and the first cell behind
all those that were written.
-/

set_option autoImplicit false

namespace Lib.CheckedBuffer
open Lib.FlatMemory

structure Buffer (α : Type) where
  capacity : ℕ
  cell : ℕ → α
  reach : ℕ

variable {α : Type}

namespace Buffer

/-- A buffer that was not written yet. -/
def fresh (capacity : ℕ) (cell : ℕ → α) : Buffer α := ⟨capacity, cell, 0⟩

/-- Nothing was written behind the buffer. -/
def Inside (b : Buffer α) : Prop := b.reach ≤ b.capacity

instance (b : Buffer α) : Decidable b.Inside := inferInstanceAs (Decidable (_ ≤ _))

/-- The reach after `n` cells from `start` on were written. -/
def grow (reach start n : ℕ) : ℕ := if n = 0 then reach else max reach (start+n)

/-- A list of cells is written from `start` on. -/
def storeAt (b : Buffer α) (start : ℕ) (l : List α) : Buffer α :=
  { b with cell := store start l b.cell, reach := grow b.reach start l.length }

/-- `n` cells of another memory are copied. -/
def copyAt (b : Buffer α) (dst src n : ℕ) (other : ℕ → α) : Buffer α :=
  { b with cell := copy dst src n other b.cell, reach := grow b.reach dst n }

def put (b : Buffer α) (i : ℕ) (a : α) : Buffer α :=
  { b with cell := fill i 1 a b.cell, reach := grow b.reach i 1 }

/-- `memset` over the whole buffer. -/
def clear (b : Buffer α) (a : α) : Buffer α :=
  { b with cell := fill 0 b.capacity a b.cell, reach := max b.reach b.capacity }

variable {b : Buffer α} {start dst src n i : ℕ} {l : List α} {other : ℕ → α} {a : α}

theorem inside_fresh {capacity : ℕ} {cell : ℕ → α} : (fresh capacity cell).Inside :=
  Nat.zero_le _

theorem grow_le_iff {reach capacity : ℕ} :
    grow reach start n ≤ capacity ↔ reach ≤ capacity ∧ (n = 0 ∨ start+n ≤ capacity) := by
  unfold grow
  split <;> omega

/-- Writing stays inside if it did so before and ends within the buffer. -/
theorem inside_storeAt : (b.storeAt start l).Inside ↔
    b.Inside ∧ (l.length = 0 ∨ start+l.length ≤ b.capacity) := grow_le_iff

theorem inside_copyAt : (b.copyAt dst src n other).Inside ↔
    b.Inside ∧ (n = 0 ∨ dst+n ≤ b.capacity) := grow_le_iff

theorem inside_put : (b.put i a).Inside ↔ b.Inside ∧ i < b.capacity := by
  have h : grow b.reach i 1 ≤ b.capacity ↔ _ := grow_le_iff
  rw [or_iff_right Nat.one_ne_zero] at h
  exact h

theorem inside_clear : (b.clear a).Inside ↔ b.Inside := by
  unfold Inside clear
  exact ⟨fun h => Nat.le_trans (Nat.le_max_left ..) h, fun h => Nat.max_le.mpr ⟨h, Nat.le_refl _⟩⟩

/-- A fresh buffer that a list was written to from its start holds as many cells as the list. -/
theorem inside_fresh_storeAt {capacity : ℕ} {cell : ℕ → α} :
    ((fresh capacity cell).storeAt 0 l).Inside ↔ l.length ≤ capacity := by
  rw [inside_storeAt, and_iff_right inside_fresh, Nat.zero_add]
  exact ⟨fun h => h.elim (fun h => h ▸ Nat.zero_le _) id, .inr⟩

end Buffer

/-! ## Buffers that are filled one cell after the other -/

namespace Buffer

/-- Since its cells were `a` and its reach `r`, the buffer was filled with a list. -/
structure Holds (b : Buffer α) (a : α) (r : ℕ) (l : List α) : Prop where
  cell : ∀ i < b.capacity, b.cell i = l.getD i a
  reach : b.reach = max r l.length

variable {b : Buffer α} {a c : α} {r : ℕ} {l : List α}

theorem Holds.put (h : b.Holds a r l) : (b.put l.length c).Holds a r (l++[c]) where
  cell i hi := by
    change fill l.length 1 c b.cell i = _
    by_cases hl : i = l.length
    · subst hl
      rw [fill, if_pos ⟨Nat.le_refl _, Nat.lt_succ_self _⟩]
      simp
    · rw [fill_outside (by omega), h.cell i hi]
      simp only [List.getD_eq_getElem?_getD]
      rcases Nat.lt_or_gt_of_ne hl with hlt | hgt
      · rw [List.getElem?_append_left hlt]
      · rw [List.getElem?_eq_none (by omega), List.getElem?_eq_none (by simp; omega)]
  reach := by
    change grow b.reach l.length 1 = _
    rw [grow, if_neg Nat.one_ne_zero, h.reach, List.length_append, List.length_singleton]
    omega

/-- The first cell is written again with what it holds. -/
theorem Holds.put_first (h : b.Holds a r [c]) : (b.put 0 c).Holds a r [c] where
  cell i hi := by
    change fill 0 1 c b.cell i = _
    by_cases h0 : i = 0
    · subst h0
      rfl
    · rw [fill_outside (by omega), h.cell i hi]
  reach := by
    change grow b.reach 0 1 = _
    rw [grow, if_neg Nat.one_ne_zero, h.reach]
    exact Nat.max_eq_left (Nat.le_max_right ..)

theorem holds_clear (b : Buffer α) (a : α) : (b.clear a).Holds a (b.clear a).reach [] where
  cell i hi := by
    change fill 0 b.capacity a b.cell i = _
    rw [fill, if_pos ⟨Nat.zero_le i, by rw [Nat.zero_add]; exact hi⟩]
    rfl
  reach := (Nat.max_eq_left (Nat.zero_le _)).symm

/-- What was filled in stays inside if it fits. -/
theorem Holds.inside (h : b.Holds a r l) : b.Inside ↔ r ≤ b.capacity ∧ l.length ≤ b.capacity := by
  rw [Inside, h.reach]
  exact Nat.max_le

end Buffer

theorem cells_store (l : List α) (mem : ℕ → α) : cells (store 0 l mem) 0 l.length = l := by
  refine List.ext_getElem (cells_length ..) fun i h1 h2 => ?_
  have h : store 0 l mem (0+i) = l[i] := store_inside h2
  simpa [cells] using h

end Lib.CheckedBuffer
