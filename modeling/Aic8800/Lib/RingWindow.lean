import Mathlib.Data.List.DropRight
import Mathlib.Data.Nat.ModEq
import Mathlib.Tactic.Ring
import Aic8800.Lib.FlatMemory

/-!
# A ring as a queue

The cells of a memory are read around a ring. All of them from the place of the next write on are
the last ones written, the oldest first, and so those that end there are the end of a queue that
forgets its oldest elements.
-/

set_option autoImplicit false

namespace Lib.RingWindow
open Lib.FlatMemory

variable {α : Type*}

/-! ## A queue that forgets -/

inductive Op (α : Type*) where
  | write (l : List α)
  | read (count : ℕ)

/-- The operations so far, what the reads have returned, and what is unread. A write keeps the last
`cap` elements, and a read returns as many of the oldest as it likes up to the count. -/
inductive Fifo (cap : ℕ) : List (Op α) → List (List α) → List α → Prop
  | start : Fifo cap [] [] []
  | write {ops : List (Op α)} {outs : List (List α)} {q : List α} (l : List α)
    (h : Fifo cap ops outs q) : Fifo cap (ops++[.write l]) outs ((q++l).rtake cap)
  | read {ops : List (Op α)} {outs : List (List α)} {out q : List α} {count : ℕ}
    (h : Fifo cap ops outs (out++q)) (hcount : out.length ≤ count) :
    Fifo cap (ops++[.read count]) (outs++[out]) q

/-- The count that a read asks for. -/
def Op.asked : Op α → ℕ
  | .write _ => 0
  | .read count => count

/-- All reads together return no more than they ask for. -/
theorem Fifo.outs_length {cap : ℕ} {ops : List (Op α)} {outs : List (List α)} {q : List α}
    (h : Fifo cap ops outs q) : outs.flatten.length ≤ (ops.map Op.asked).sum := by
  induction h with
  | start => exact le_rfl
  | write l h ih =>
    rw [List.map_append, List.sum_append]
    exact ih.trans (Nat.le_add_right ..)
  | read h hcount ih =>
    rw [List.flatten_concat, List.length_append, List.map_append, List.sum_append]
    exact Nat.add_le_add ih hcount

section Rtake
variable {l m : List α} {a b : ℕ}

theorem rtake_rtake : (l.rtake b).rtake a = l.rtake (min a b) := by
  unfold List.rtake
  rw [List.drop_drop, List.length_drop]
  congr 1
  omega

theorem rtake_append (h : a ≤ l.length) : (l++m).rtake (a+m.length) = l.rtake a++m := by
  unfold List.rtake
  rw [List.length_append, List.drop_append_of_le_length (by omega)]
  congr 2
  omega

/-- To write first and cut off then is to cut off before as well. -/
theorem rtake_write (hl : b ≤ l.length) :
    (l.rtake b++m).rtake a = (l++m).rtake (min (b+m.length) a) := by
  rw [← rtake_append hl, rtake_rtake, Nat.min_comm]

end Rtake

/-! ## The ring -/

/-- `n` cells around a ring of size `size`, the first one at `start`. -/
def window (size : ℕ) (mem : ℕ → α) (start n : ℕ) : List α :=
  (List.range n).map fun i => mem ((start+i) % size)

section Ring
variable {size start stop n k pos : ℕ} {mem : ℕ → α}

theorem window_length : (window size mem start n).length = n := by
  rw [window, List.length_map, List.length_range]

theorem window_add : window size mem start (n+k) =
    window size mem start n++window size mem (start+n) k := by
  unfold window
  rw [List.range_add, List.map_append, List.map_map]
  simp only [Function.comp_def, Nat.add_assoc]

theorem window_congr (h : start % size = stop % size) :
    window size mem start n = window size mem stop n := by
  unfold window
  refine List.map_congr_left fun i _ => ?_
  exact congrArg mem (Nat.ModEq.add_right i h)

/-- A window that does not go around. -/
theorem window_eq_cells (h : start+n ≤ size) : window size mem start n = cells mem start n := by
  unfold window cells
  refine List.map_congr_left fun i hi => ?_
  rw [Nat.mod_eq_of_lt (by have := List.mem_range.mp hi; omega)]

theorem window_take (h : k ≤ n) :
    (window size mem start n).take k = window size mem start k := by
  obtain ⟨j, rfl⟩ := Nat.exists_eq_add_of_le h
  rw [window_add, List.take_left' window_length]

theorem window_drop (h : k ≤ n) :
    (window size mem start n).drop k = window size mem (start+k) (n-k) := by
  obtain ⟨j, rfl⟩ := Nat.exists_eq_add_of_le h
  rw [window_add, List.drop_left' window_length, Nat.add_sub_cancel_left]

/-- A window that ends at `stop` holds the last elements of the whole ring from there on. -/
theorem window_eq_rtake (hn : n ≤ size) (hstop : (start+n) % size = stop % size) :
    window size mem start n = (window size mem stop size).rtake n := by
  rw [List.rtake, window_length, window_drop (Nat.sub_le size n), Nat.sub_sub_self hn]
  apply window_congr
  have hwhole : (start+n+(size-n)) % size = (stop+(size-n)) % size :=
    Nat.ModEq.add_right (size-n) hstop
  rw [← hwhole, show start+n+(size-n) = start+size by omega, Nat.add_mod_right]

/-- Writing a list that does not go around. -/
theorem window_store (mem : ℕ → α) (pos : ℕ) {l : List α} (h : pos+l.length ≤ size) :
    window size (store pos l mem) (pos+l.length) size =
      (window size mem pos size++l).rtake size := by
  have hold : window size (store pos l mem) (pos+l.length) (size-l.length) =
      window size mem (pos+l.length) (size-l.length) := by
    refine List.map_congr_left fun i hi => store_outside ?_
    have hin : i < size-l.length := List.mem_range.mp hi
    by_cases hturn : pos+l.length+i < size
    · rw [Nat.mod_eq_of_lt hturn]
      omega
    · rw [Nat.mod_eq_sub_mod (by omega), Nat.mod_eq_of_lt (by omega)]
      omega
  have hnew : window size (store pos l mem) pos l.length = l := by
    rw [window_eq_cells h]
    refine List.ext_getElem (cells_length ..) fun i h1 h2 => ?_
    have hcell : store pos l mem (pos+i) = l[i] := store_inside h2
    simp [cells, hcell]
  have hsplit : size = size-l.length+l.length := by omega
  have hend : window size (store pos l mem) (pos+l.length+(size-l.length)) l.length =
      window size (store pos l mem) pos l.length := by
    apply window_congr
    rw [show pos+l.length+(size-l.length) = pos+size by omega, Nat.add_mod_right]
  have hkeep : (window size mem pos size++l).rtake size =
      (window size mem pos size).rtake (size-l.length)++l := by
    rw [← rtake_append (by rw [window_length]; omega), ← hsplit]
  rw [hkeep, List.rtake, window_length, Nat.sub_sub_self (by omega), window_drop (by omega)]
  nth_rewrite 2 [hsplit]
  rw [window_add, hold, hend, hnew]

/-- Another place of the ring is another cell. -/
theorem place_inj {i j : ℕ} (hi : i < size) (hj : j < size)
    (h : (start+i) % size = (start+j) % size) : i = j := by
  have hmod : i % size = j % size := Nat.ModEq.add_left_cancel' start h
  rwa [Nat.mod_eq_of_lt hi, Nat.mod_eq_of_lt hj] at hmod

/-- One cell of the ring is written. -/
theorem window_update {i : ℕ} (hi : i < n) (hn : n ≤ size) (x : α) :
    window size (Function.update mem ((start+i) % size) x) start n =
      (window size mem start n).set i x := by
  refine List.ext_getElem (by simp [window]) fun j h1 h2 => ?_
  have hj : j < n := by simpa [window] using h1
  rw [List.getElem_set]
  by_cases hij : i = j
  · subst hij
    simp [window]
  · have hplace : (start+j) % size ≠ (start+i) % size :=
      fun h => hij (place_inj (by omega) (by omega) h).symm
    simp [window, hij, Function.update_of_ne hplace]

/-- The ring as it is seen from the next cell on. -/
theorem window_next (hsize : 0 < size) : window size mem (start+1) size =
    (window size mem start size).drop 1++[mem (start % size)] := by
  have hsplit : size = size-1+1 := by omega
  have hsum : window size mem (start+1) (size-1+1) =
      window size mem (start+1) (size-1)++window size mem (start+1+(size-1)) 1 := window_add
  have hlast : window size mem (start+1+(size-1)) 1 = [mem (start % size)] := by
    rw [show start+1+(size-1) = start+size by omega, ← Nat.add_mod_right start]
    rfl
  rw [window_drop hsize, ← hlast, ← hsum, ← hsplit]

theorem window_get (mem : ℕ → α) (start : ℕ) {i : ℕ} (hi : i < n) :
    (window size mem start n)[i]? = some (mem ((start+i) % size)) := by
  simp [window, hi]

/-- Every cell is somewhere on the ring. -/
theorem mem_window (mem : ℕ → α) (start : ℕ) {i : ℕ} (hi : i < size) :
    mem i ∈ window size mem start size := by
  refine List.mem_map.mpr ⟨(i+(size-start % size)) % size, ?_, ?_⟩
  · exact List.mem_range.mpr (Nat.mod_lt _ (by omega))
  · have hstart : start % size < size := Nat.mod_lt _ (by omega)
    rw [Nat.add_mod_mod, ← Nat.mod_add_mod,
      show start % size+(i+(size-start % size)) = i+size by omega, Nat.add_mod_right,
      Nat.mod_eq_of_lt hi]

end Ring

end Lib.RingWindow
