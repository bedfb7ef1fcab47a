import Mathlib.Data.List.DropRight
import Mathlib.Data.List.Induction
import Mathlib.Data.Nat.Notation

/-!
# Loops that move a pointer

A pointer goes forwards or backwards over the cells of a memory while they meet a condition. There
is no result where a cell outside the memory is looked at.
-/

set_option autoImplicit false

namespace Lib.PointerScan

variable {α : Type*} (mem : List α) (c : α → Bool)

def scanFrom : List α → ℕ → Option ℕ
  | [], _ => none
  | x::xs, p => if c x then scanFrom xs (p+1) else some p

/-- `while (c (*p)) p++`. -/
def scan (p : ℕ) : Option ℕ := scanFrom c (mem.drop p) p

/-- `while (c (*p)) p--`. -/
def back : ℕ → Option ℕ
  | 0 => mem[0]?.bind fun x => if c x then none else some 0
  | p+1 => mem[p+1]?.bind fun x => if c x then back p else some (p+1)

/-- `p--`. -/
def pred (p : ℕ) : Option ℕ := if p = 0 then none else some (p-1)

variable {mem c}

theorem pred_pos {p : ℕ} (h : 0 < p) : pred p = some (p-1) := if_neg (Nat.ne_of_gt h)

theorem scanFrom_eq (l rest : List α) {z : α} (hz : c z = false) (p : ℕ) :
    scanFrom c (l++z::rest) p = some (p+(l.takeWhile c).length) := by
  induction l generalizing p with
  | nil => simp [scanFrom, hz]
  | cons x l ih =>
    rw [List.cons_append, scanFrom]
    cases hx : c x with
    | true =>
      rw [if_pos rfl, ih, List.takeWhile_cons_of_pos hx, List.length_cons]
      congr 1
      omega
    | false => simp [hx]

/-- The pointer stops in front of what does not meet the condition any more. -/
theorem scan_eq (before l rest : List α) {z : α} (hz : c z = false) :
    scan (before++(l++z::rest)) c before.length =
      some (before.length+(l.takeWhile c).length) := by
  rw [scan, List.drop_left, scanFrom_eq l rest hz]

/-- The pointer comes back to the last cell that does not meet the condition. -/
theorem back_eq {l : List α} (rest : List α) (h : l.rdropWhile c ≠ []) :
    back (l++rest) c (l.length-1) = some ((l.rdropWhile c).length-1) := by
  induction l using List.reverseRecOn generalizing rest with
  | nil => exact absurd rfl h
  | append_singleton l x ih =>
    have hlen : (l++[x]).length-1 = l.length := by simp
    have hat : (l++[x]++rest)[l.length]? = some x := by simp
    rw [hlen]
    cases hx : c x with
    | true =>
      rw [List.rdropWhile_concat_pos c l x hx] at h ⊢
      have hne : l ≠ [] := by
        rintro rfl
        exact h (List.rdropWhile_nil c)
      obtain ⟨n, hn⟩ : ∃ n, l.length = n+1 :=
        Nat.exists_eq_succ_of_ne_zero fun h0 => hne (List.length_eq_zero_iff.mp h0)
      have hrec := ih (x::rest) h
      rw [hn] at hat hrec ⊢
      rw [back, hat, Option.bind_some, if_pos hx, ← hrec]
      simp
    | false =>
      rw [List.rdropWhile_concat_neg c l x (by simp [hx]), hlen]
      cases hn : l.length with
      | zero =>
        rw [hn] at hat
        rw [back, hat, Option.bind_some, hx]
        rfl
      | succ n =>
        rw [hn] at hat
        rw [back, hat, Option.bind_some, hx]
        rfl

/-! ## Lists without their end -/

theorem mem_rdropWhile {l : List α} {x : α} (h : x ∈ l) (hx : c x = false) :
    x ∈ l.rdropWhile c := by
  rw [← List.rdropWhile_append_rtakeWhile (p := c) (l := l), List.mem_append] at h
  refine h.resolve_right fun ht => ?_
  rw [List.mem_rtakeWhile_imp ht] at hx
  cases hx

theorem rdropWhile_append (m l : List α) : (m++l).rdropWhile c =
    if l.rdropWhile c = [] then m.rdropWhile c else m++l.rdropWhile c := by
  induction l using List.reverseRecOn with
  | nil => simp
  | append_singleton l x ih =>
    rw [← List.append_assoc, List.rdropWhile_concat, List.rdropWhile_concat, ih]
    cases c x <;> simp

theorem rdropWhile_cons {x : α} {l : List α} (hx : c x = false) :
    (x::l).rdropWhile c = x::l.rdropWhile c := by
  rw [← List.singleton_append, rdropWhile_append]
  split
  · next hl =>
    rw [hl, List.rdropWhile_singleton, hx]
    rfl
  · rfl

end Lib.PointerScan
