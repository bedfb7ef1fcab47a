import Mathlib.Data.List.Basic
import Mathlib.Tactic.Common

/-!
# Input cut into blocks

The whole blocks of an input go into a state one after the other. What is left
is kept, and goes before the input that follows.
-/

set_option autoImplicit false

namespace Lib.BlockStream

variable {α σ : Type*} {n : ℕ} {xs ys : List α}

def blocks (n : ℕ) (xs : List α) : List (List α) :=
  (List.range (xs.length / n)).map fun i => (xs.drop (n*i)).take n

/-- What is behind the last whole block. -/
def rest (n : ℕ) (xs : List α) : List α := xs.drop (n*(xs.length / n))

def absorb (n : ℕ) (f : σ → List α → σ) (s : σ) (xs : List α) : σ := (blocks n xs).foldl f s

theorem rest_length : (rest n xs).length = xs.length % n := by
  rw [rest, List.length_drop, Nat.mod_def]

theorem blocks_length {b : List α} (hb : b ∈ blocks n xs) : b.length = n := by
  obtain ⟨i, hi, rfl⟩ := List.mem_map.mp hb
  have hlt : i+1 ≤ xs.length / n := List.mem_range.mp hi
  have hle : n*(i+1) ≤ xs.length :=
    Nat.le_trans (Nat.mul_le_mul_left n hlt) (Nat.mul_div_le xs.length n)
  rw [Nat.mul_add, Nat.mul_one] at hle
  rw [List.length_take, List.length_drop]
  omega

theorem blocks_short (h : xs.length < n) : blocks n xs = [] := by
  rw [blocks, Nat.div_eq_of_lt h]
  rfl

theorem rest_short (h : xs.length < n) : rest n xs = xs := by
  rw [rest, Nat.div_eq_of_lt h, Nat.mul_zero, List.drop_zero]

theorem blocks_append (hn : 0 < n) (h : n ∣ xs.length) :
    blocks n (xs++ys) = blocks n xs++blocks n ys := by
  obtain ⟨k, hk⟩ := h
  have hxs : xs.length / n = k := by rw [hk, Nat.mul_div_cancel_left k hn]
  have hall : (xs++ys).length / n = k+ys.length / n := by
    rw [List.length_append, hk, Nat.mul_add_div hn]
  unfold blocks
  rw [hall, hxs, List.range_add, List.map_append, List.map_map]
  refine congrArg₂ _ (List.map_congr_left fun i hi => ?_) (List.map_congr_left fun i _ => ?_)
  · have hle : n*(i+1) ≤ n*k := Nat.mul_le_mul_left n (List.mem_range.mp hi)
    rw [Nat.mul_add, Nat.mul_one] at hle
    rw [List.drop_append_of_le_length (by omega), List.take_append_of_le_length]
    rw [List.length_drop]
    omega
  · have hdrop : n*(k+i) = xs.length+n*i := by rw [hk, Nat.mul_add]
    rw [Function.comp_apply, hdrop, List.drop_append]
    rw [List.drop_eq_nil_of_le (Nat.le_add_right _ _), List.nil_append, Nat.add_sub_cancel_left]

theorem rest_append (hn : 0 < n) (h : n ∣ xs.length) : rest n (xs++ys) = rest n ys := by
  obtain ⟨k, hk⟩ := h
  have hall : n*((xs++ys).length / n) = xs.length+n*(ys.length / n) := by
    rw [List.length_append, hk, Nat.mul_add_div hn, Nat.mul_add]
  rw [rest, hall, List.drop_append, List.drop_eq_nil_of_le (Nat.le_add_right _ _), List.nil_append,
    Nat.add_sub_cancel_left, rest]

theorem blocks_one (hn : 0 < n) (h : xs.length = n) : blocks n xs = [xs] := by
  rw [blocks, h, Nat.div_self hn]
  simp [← h]

/-- The whole blocks, and then the rest. -/
theorem whole_rest (xs : List α) : xs.take (n*(xs.length / n))++rest n xs = xs :=
  List.take_append_drop _ xs

theorem whole_dvd : n ∣ (xs.take (n*(xs.length / n))).length := by
  rw [List.length_take, Nat.min_eq_left (Nat.mul_div_le _ _)]
  exact Nat.dvd_mul_right _ _

theorem blocks_whole (hn : 0 < n) : blocks n (xs.take (n*(xs.length / n))) = blocks n xs := by
  have hshort : (rest n xs).length < n := by
    rw [rest_length]
    exact Nat.mod_lt _ hn
  calc blocks n (xs.take (n*(xs.length / n)))
      = blocks n (xs.take (n*(xs.length / n)))++blocks n (rest n xs) := by
        rw [blocks_short hshort, List.append_nil]
    _ = blocks n xs := by rw [← blocks_append hn whole_dvd, whole_rest]

theorem blocks_carry (hn : 0 < n) :
    blocks n (xs++ys) = blocks n xs++blocks n (rest n xs++ys) := by
  calc blocks n (xs++ys)
      = blocks n (xs.take (n*(xs.length / n))++(rest n xs++ys)) := by
        rw [← List.append_assoc, whole_rest]
    _ = blocks n xs++blocks n (rest n xs++ys) := by
        rw [blocks_append hn whole_dvd, blocks_whole hn]

theorem rest_carry (hn : 0 < n) : rest n (xs++ys) = rest n (rest n xs++ys) := by
  calc rest n (xs++ys)
      = rest n (xs.take (n*(xs.length / n))++(rest n xs++ys)) := by
        rw [← List.append_assoc, whole_rest]
    _ = rest n (rest n xs++ys) := rest_append hn whole_dvd

/-- Input that comes in two parts is absorbed as a whole. -/
theorem absorb_append (hn : 0 < n) (f : σ → List α → σ) (s : σ) :
    absorb n f s (xs++ys) = absorb n f (absorb n f s xs) (rest n xs++ys) := by
  rw [absorb, blocks_carry hn, List.foldl_append]
  rfl

theorem absorb_short (f : σ → List α → σ) (s : σ) (h : xs.length < n) :
    absorb n f s xs = s := by
  rw [absorb, blocks_short h, List.foldl_nil]

/-- A block that is complete is absorbed at once. -/
theorem absorb_block (hn : 0 < n) (f : σ → List α → σ) (s : σ) (h : xs.length = n) :
    absorb n f s (xs++ys) = absorb n f (f s xs) ys := by
  rw [absorb, blocks_append hn (h ▸ Nat.dvd_refl _), blocks_one hn h,
    List.foldl_append]
  rfl

end Lib.BlockStream
