import Mathlib.Data.List.Basic
import Mathlib.Data.Nat.Basic

/-!
# A flat memory

Cells with numbers for addresses, of which ranges are written, moved and filled.
-/

set_option autoImplicit false

namespace Lib.FlatMemory

variable {α : Type*}

/-- `src` may overlap the range that is written. -/
def move (dst src n : ℕ) (mem : ℕ → α) : ℕ → α :=
  fun i => if dst ≤ i ∧ i < dst+n then mem (src+(i-dst)) else mem i

def fill (dst n : ℕ) (a : α) (mem : ℕ → α) : ℕ → α :=
  fun i => if dst ≤ i ∧ i < dst+n then a else mem i

/-- A range of cells, the first at `start`. -/
def cells (mem : ℕ → α) (start n : ℕ) : List α := (List.range n).map fun i => mem (start+i)

/-- A range of another memory is copied. -/
def copy (dst src n : ℕ) (other mem : ℕ → α) : ℕ → α :=
  fun i => if dst ≤ i ∧ i < dst+n then other (src+(i-dst)) else mem i

def store (dst : ℕ) : List α → (ℕ → α) → ℕ → α
  | [], mem => mem
  | a::as, mem => store (dst+1) as (fill dst 1 a mem)

variable {mem mem' : ℕ → α} {dst src n i : ℕ} {as : List α}

theorem move_inside (hi : i < n) : move dst src n mem (dst+i) = mem (src+i) := by
  rw [move, if_pos ⟨Nat.le_add_right dst i, Nat.add_lt_add_left hi dst⟩, Nat.add_sub_cancel_left]

theorem move_outside (h : i < dst ∨ dst+n ≤ i) : move dst src n mem i = mem i :=
  if_neg (by omega)

theorem fill_outside {a : α} (h : i < dst ∨ dst+n ≤ i) : fill dst n a mem i = mem i :=
  if_neg (by omega)

theorem store_outside (h : i < dst ∨ dst+as.length ≤ i) : store dst as mem i = mem i := by
  induction as generalizing dst mem with
  | nil => rfl
  | cons a as ih =>
    rw [List.length_cons] at h
    rw [store, ih (by omega), fill_outside (by omega)]

theorem copy_inside {other : ℕ → α} (hi : i < n) :
    copy dst src n other mem (dst+i) = other (src+i) := by
  rw [copy, if_pos ⟨Nat.le_add_right dst i, Nat.add_lt_add_left hi dst⟩, Nat.add_sub_cancel_left]

theorem copy_outside {other : ℕ → α} (h : i < dst ∨ dst+n ≤ i) :
    copy dst src n other mem i = mem i :=
  if_neg (by omega)

theorem store_inside (hi : i < as.length) : store dst as mem (dst+i) = as[i] := by
  induction as generalizing dst mem i with
  | nil => exact absurd hi (Nat.not_lt_zero i)
  | cons a as ih =>
    cases i with
    | zero =>
      rw [Nat.add_zero, store, store_outside (.inl (Nat.lt_succ_self dst))]
      exact if_pos ⟨Nat.le_refl dst, Nat.lt_succ_self dst⟩
    | succ i =>
      have h : dst+(i+1) = dst+1+i := by omega
      rw [store, h, ih (Nat.lt_of_succ_lt_succ hi)]
      rfl

theorem cells_length (mem : ℕ → α) (start n : ℕ) : (cells mem start n).length = n := by
  rw [cells, List.length_map, List.length_range]

/-- Two ranges hold the same if they do so cell by cell. -/
theorem cells_eq_iff {start start' : ℕ} :
    cells mem start n = cells mem' start' n ↔ ∀ i < n, mem (start+i) = mem' (start'+i) := by
  unfold cells
  rw [List.map_inj_left]
  simp only [List.mem_range]

theorem cells_eq_list_iff (a : α) (l : List α) : cells mem 0 n = l ↔
    n = l.length ∧ ∀ i < n, mem i = l.getD i a := by
  constructor
  · rintro rfl
    refine ⟨(cells_length ..).symm, fun i hi => ?_⟩
    simp [cells, List.getD_eq_getElem?_getD, hi]
  · rintro ⟨hn, h⟩
    refine List.ext_getElem (by rw [cells_length, hn]) fun i h1 h2 => ?_
    have := h i (by rwa [hn])
    rw [List.getD_eq_getElem?_getD, List.getElem?_eq_getElem h2] at this
    simpa [cells] using this

end Lib.FlatMemory
