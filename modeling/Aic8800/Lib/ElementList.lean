import Mathlib.Data.List.Basic
import Mathlib.Data.Nat.Basic

/-!
# Sequences of elements

Bytes that are read as elements, each an id, a length and as many bytes of value.
-/

set_option autoImplicit false

namespace Lib.ElementList

/-- An element, whose value is short enough for the byte of its length. -/
structure Element where
  id : UInt8
  value : List UInt8
  short : value.length < 256

def Element.bytes (e : Element) : List UInt8 := e.id::UInt8.ofNat e.value.length::e.value

/-- The bytes are elements one after the other, down to the last byte. -/
def WellFormed (bs : List UInt8) : Prop := ∃ es : List Element, bs = es.flatMap Element.bytes

/-- The reader, with `n` bytes of a value still to come. -/
def reads : ℕ → List UInt8 → Bool
  | 0, [] => true
  | 0, [_] => false
  | 0, _::len::bs => reads len.toNat bs
  | _+1, [] => false
  | n+1, _::bs => reads n bs

variable {as bs : List UInt8} {n : ℕ}

theorem WellFormed.nil : WellFormed [] := ⟨[], rfl⟩

theorem WellFormed.append (ha : WellFormed as) (hb : WellFormed bs) : WellFormed (as++bs) := by
  obtain ⟨es, rfl⟩ := ha
  obtain ⟨fs, rfl⟩ := hb
  exact ⟨es++fs, List.flatMap_append.symm⟩

theorem WellFormed.element {id len : UInt8} {value : List UInt8} (h : value.length = len.toNat) :
    WellFormed (id::len::value) := by
  have hshort : value.length < 256 := h ▸ len.toNat_lt
  refine ⟨[⟨id, value, hshort⟩], ?_⟩
  simp [Element.bytes, h]

/-- One element, by its whole length. -/
theorem WellFormed.whole {id len : UInt8} {value : List UInt8} (hbs : bs = id::len::value)
    (h : bs.length = len.toNat+2) : WellFormed bs := by
  subst hbs
  exact .element (Nat.succ.inj (Nat.succ.inj h))

theorem reads_value (value bs : List UInt8) : reads value.length (value++bs) = reads 0 bs := by
  induction value with
  | nil => rfl
  | cons b value ih => exact ih

theorem reads_elements (es : List Element) : reads 0 (es.flatMap Element.bytes) = true := by
  induction es with
  | nil => rfl
  | cons e es ih =>
    have hlen : (UInt8.ofNat e.value.length).toNat = e.value.length := by
      rw [UInt8.toNat_ofNat', Nat.mod_eq_of_lt e.short]
    rw [List.flatMap_cons]
    show reads (UInt8.ofNat e.value.length).toNat (e.value++_) = true
    rw [hlen, reads_value, ih]

/-- What the reader accepts with `n` bytes to come is a value of `n` bytes and elements. -/
theorem reads_split (h : reads n bs = true) :
    ∃ value rest, bs = value++rest ∧ value.length = n ∧ WellFormed rest := by
  fun_induction reads n bs with
  | case1 => exact ⟨[], [], rfl, rfl, WellFormed.nil⟩
  | case2 => exact absurd h Bool.false_ne_true
  | case3 id len bs ih =>
    obtain ⟨value, rest, rfl, hlen, hrest⟩ := ih h
    exact ⟨[], _, rfl, rfl, (WellFormed.element hlen).append hrest⟩
  | case4 => exact absurd h Bool.false_ne_true
  | case5 n b bs ih =>
    obtain ⟨value, rest, rfl, hlen, hrest⟩ := ih h
    exact ⟨b::value, rest, rfl, congrArg (·+1) hlen, hrest⟩

theorem wellFormed_iff : WellFormed bs ↔ reads 0 bs = true := by
  constructor
  · rintro ⟨es, rfl⟩
    exact reads_elements es
  · intro h
    obtain ⟨value, rest, rfl, hlen, hrest⟩ := reads_split h
    rw [List.length_eq_zero_iff.mp hlen]
    exact hrest

instance (bs : List UInt8) : Decidable (WellFormed bs) := decidable_of_iff _ wellFormed_iff.symm

example : ¬ WellFormed [36, 2, 1, 14, 0, 5] := by decide

end Lib.ElementList
