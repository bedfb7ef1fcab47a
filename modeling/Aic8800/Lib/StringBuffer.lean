import Aic8800.Lib.ByteText
import Aic8800.Lib.CheckedBuffer

/-!
# Strings in buffers

What is read of a buffer as a string that ends at its first zero.
-/

set_option autoImplicit false

namespace Lib.StringBuffer
open Lib.ByteText Lib.CheckedBuffer Lib.FlatMemory

/-- The string at the start of a buffer. -/
def str (b : Buffer UInt8) : List UInt8 := cString (cells b.cell 0 b.capacity)

def NulTerminated (b : Buffer UInt8) : Prop := ∃ i < b.capacity, b.cell i = 0

/-- A text that ends at a zero in so many cells. -/
def EndsIn (size : ℕ) (l : List UInt8) : Prop := l.length < size ∨ 0 ∈ l

instance (size : ℕ) (l : List UInt8) : Decidable (EndsIn size l) :=
  inferInstanceAs (Decidable (_ ∨ _))

theorem nulTerminated_iff {b : Buffer UInt8} {r : ℕ} {l : List UInt8} (h : b.Holds 0 r l)
    (hl : l.length ≤ b.capacity) : NulTerminated b ↔ EndsIn b.capacity l := by
  constructor
  · rintro ⟨i, hi, h0⟩
    rw [h.cell i hi, List.getD_eq_getElem?_getD] at h0
    rcases Nat.lt_or_ge i l.length with hlt | hge
    · rw [List.getElem?_eq_getElem hlt, Option.getD_some] at h0
      exact .inr (h0 ▸ List.getElem_mem hlt)
    · exact .inl (Nat.lt_of_le_of_lt hge hi)
  · rintro (hlt | h0)
    · refine ⟨l.length, hlt, ?_⟩
      rw [h.cell _ hlt]
      simp
    · obtain ⟨i, hi, he⟩ := List.getElem_of_mem h0
      refine ⟨i, Nat.lt_of_lt_of_le hi hl, ?_⟩
      rw [h.cell i (Nat.lt_of_lt_of_le hi hl), List.getD_eq_getElem?_getD,
        List.getElem?_eq_getElem hi, Option.getD_some, he]

/-- The string of a buffer is that of the text it was filled with. -/
theorem str_eq {b : Buffer UInt8} {r : ℕ} {l : List UInt8} (h : b.Holds 0 r l)
    (hl : l.length ≤ b.capacity) (hend : EndsIn b.capacity l) : str b = cString l := by
  have hcells : cells b.cell 0 b.capacity = l++List.replicate (b.capacity-l.length) 0 := by
    refine List.ext_getElem (by simp [cells]; omega) fun i hi hi' => ?_
    have hcap : i < b.capacity := by simpa [cells] using hi
    have hcell : (cells b.cell 0 b.capacity)[i] = b.cell i := by simp [cells]
    rw [hcell, h.cell i hcap, List.getD_eq_getElem?_getD, List.getElem_append]
    split
    · next hlt => rw [List.getElem?_eq_getElem hlt, Option.getD_some]
    · next hge =>
      rw [List.getElem?_eq_none (by omega), Option.getD_none, List.getElem_replicate]
  rw [str, hcells]
  by_cases h0 : 0 ∈ l
  · exact cString_of_mem h0 _
  · have hlt : l.length < b.capacity := hend.resolve_right h0
    obtain ⟨n, hn⟩ : ∃ n, b.capacity-l.length = n+1 := ⟨b.capacity-l.length-1, by omega⟩
    have hself : cString l = l := by
      refine List.takeWhile_eq_self_iff.mpr fun x hx => ?_
      simpa using fun e : x = 0 => h0 (e ▸ hx)
    rw [hn, List.replicate_succ, cString_append l _ h0, hself]

/-- A text without a zero, and a zero behind it. -/
theorem str_of_cells {b : Buffer UInt8} {l : List UInt8}
    (hcell : ∀ i < l.length, b.cell i = l.getD i 0) (hend : b.cell l.length = 0)
    (hl : l.length < b.capacity) (h0 : 0 ∉ l) : str b = l := by
  obtain ⟨n, hn⟩ : ∃ n, b.capacity = l.length+(n+1) := ⟨b.capacity-l.length-1, by omega⟩
  have hcells : cells b.cell 0 b.capacity =
      l++0::(List.range n).map fun i => b.cell (l.length+1+i) := by
    refine List.ext_getElem (by simp [cells, hn]) fun i hi hi' => ?_
    have hcap : i < b.capacity := by simpa [cells] using hi
    have hat : (cells b.cell 0 b.capacity)[i] = b.cell i := by simp [cells]
    rw [hat, List.getElem_append]
    split
    · next hlt =>
      rw [hcell i hlt, List.getD_eq_getElem?_getD, List.getElem?_eq_getElem hlt, Option.getD_some]
    · next hge =>
      rcases Nat.eq_or_lt_of_le (Nat.le_of_not_lt hge) with he | hgt
      · subst he
        simpa using hend
      · obtain ⟨j, hj⟩ : ∃ j, i = l.length+1+j := ⟨i-(l.length+1), by omega⟩
        subst hj
        have hsub : l.length+1+j-l.length = j+1 := by omega
        simp [hsub]
  rw [str, hcells, cString_append l _ h0]

end Lib.StringBuffer
