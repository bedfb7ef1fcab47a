import Mathlib.Data.List.Basic
import Mathlib.Data.Nat.Notation

/-!
# The last write of a field

Writes, each of which sets some fields to one value, are applied one after the other.
-/

set_option autoImplicit false

namespace Lib.LastWrite

variable {φ ν ω : Type*} (sets : ω → φ → Bool) (value : ω → ν)

def apply (c : φ → ν) (w : ω) : φ → ν := fun f => if sets w f then value w else c f

def applyAll (c : φ → ν) (ws : List ω) : φ → ν := ws.foldl (apply sets value) c

/-- The last write that sets the field. -/
def last (f : φ) (ws : List ω) : Option ω := ws.findRev? (sets · f)

variable {sets value} {c : φ → ν} {w : ω} {ws : List ω} {f : φ}

theorem last_cons : last sets f (w::ws) =
    (last sets f ws).or (if sets w f then some w else none) := by
  unfold last
  rw [List.findRev?]
  cases ws.findRev? (sets · f) with
  | none => cases sets w f <;> simp
  | some v => rfl

theorem last_append_singleton : last sets f (ws++[w]) =
    if sets w f then some w else last sets f ws := by
  induction ws with
  | nil => cases hs : sets w f <;> simp [last, List.findRev?, hs]
  | cons v ws ih =>
    rw [List.cons_append, last_cons, ih, last_cons]
    cases hs : sets w f <;> simp

theorem last_eq_none : last sets f ws = none ↔ ∀ w ∈ ws, sets w f = false := by
  induction ws with
  | nil => simp [last, List.findRev?]
  | cons v ws ih =>
    rw [last_cons, Option.or_eq_none_iff, ih, List.forall_mem_cons]
    cases hs : sets v f <;> simp

/-- A field holds the value of the last write that sets it, or what it held. -/
theorem applyAll_eq (c : φ → ν) (ws : List ω) (f : φ) :
    applyAll sets value c ws f = ((last sets f ws).map value).getD (c f) := by
  induction ws generalizing c with
  | nil => rfl
  | cons w ws ih =>
    have h : applyAll sets value c (w::ws) = applyAll sets value (apply sets value c w) ws := rfl
    rw [h, ih, last_cons, apply]
    cases last sets f ws with
    | some v => rfl
    | none => cases hs : sets w f <;> simp

/-- The last write is the same where all writes set the same fields. -/
theorem last_congr {sets' : ω → φ → Bool} (h : ∀ w ∈ ws, sets w f = sets' w f) :
    last sets f ws = last sets' f ws := by
  induction ws with
  | nil => rfl
  | cons w ws ih =>
    rw [last_cons, last_cons, h w List.mem_cons_self,
      ih fun v hv => h v (List.mem_cons_of_mem w hv)]

theorem applyAll_append (c : φ → ν) (ws us : List ω) :
    applyAll sets value c (ws++us) = applyAll sets value (applyAll sets value c ws) us :=
  List.foldl_append

end Lib.LastWrite
