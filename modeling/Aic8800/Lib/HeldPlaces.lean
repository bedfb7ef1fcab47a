import Mathlib.Data.List.Nodup
import Mathlib.Data.List.Perm.Basic
import Mathlib.Logic.Function.Basic
import Mathlib.Tactic.Common

/-!
# Items in places

Every place has a list of items. The items that are live are those in the
places, each in one place, once. An item is put in a place or taken from it,
and the items of one place are poured into another or dropped.
-/

set_option autoImplicit false

namespace Lib.HeldPlaces

variable {π α : Type*} {place : π → List α} {live : α → Prop} {p q : π} {a : α} {l : List α}

structure Held (place : π → List α) (live : α → Prop) : Prop where
  once : ∀ p, (place p).Nodup
  single : ∀ p q a, a ∈ place p → a ∈ place q → p = q
  live_iff : ∀ a, live a ↔ ∃ p, a ∈ place p

theorem held_empty : Held (fun _ : π => ([] : List α)) (fun _ => False) :=
  ⟨fun _ => List.nodup_nil, fun _ _ _ h => absurd h List.not_mem_nil,
    fun _ => iff_of_false id fun ⟨_, h⟩ => absurd h List.not_mem_nil⟩

theorem Held.congr {live' : α → Prop} (h : Held place live) (hlive : ∀ a, live a ↔ live' a) :
    Held place live' :=
  ⟨h.once, h.single, fun a => (hlive a).symm.trans (h.live_iff a)⟩

theorem Held.mem_live (h : Held place live) (ha : a ∈ place p) : live a :=
  (h.live_iff a).mpr ⟨p, ha⟩

/-- The places lose a set of items. -/
theorem Held.drop {gone : α → Prop} {place' : π → List α} (h : Held place live)
    (hsub : ∀ p, (place' p).Sublist (place p))
    (hmem : ∀ p a, a ∈ place' p ↔ a ∈ place p ∧ ¬ gone a) :
    Held place' (fun b => live b ∧ ¬ gone b) := by
  refine ⟨fun p => (h.once p).sublist (hsub p), fun p q a ha hb => ?_, fun a => ?_⟩
  · exact h.single p q a ((hmem p a).mp ha).1 ((hmem q a).mp hb).1
  · rw [h.live_iff a]
    simp only [hmem, exists_and_right]

variable [DecidableEq π]

/-- A new item goes into a place, wherever in its list. -/
theorem Held.put (h : Held place live) (ha : ¬ live a) (hl : l.Perm (a::place p)) :
    Held (Function.update place p l) (fun b => live b ∨ b = a) := by
  have hmem : ∀ r b, b ∈ Function.update place p l r ↔ b ∈ place r ∨ r = p ∧ b = a := by
    intro r b
    by_cases hr : r = p
    · subst hr
      rw [Function.update_self, hl.mem_iff, List.mem_cons]
      simp [or_comm]
    · simp [hr]
  have hout : ∀ r, a ∉ place r := fun r hr => ha (h.mem_live hr)
  constructor
  · intro r
    by_cases hr : r = p
    · subst hr
      rw [Function.update_self, hl.nodup_iff]
      exact List.nodup_cons.mpr ⟨hout r, h.once r⟩
    · rw [Function.update_of_ne hr]
      exact h.once r
  · intro r t b hb hb'
    rcases (hmem r b).mp hb with hin | ⟨rfl, rfl⟩
    · rcases (hmem t b).mp hb' with hin' | ⟨rfl, rfl⟩
      · exact h.single r t b hin hin'
      · exact absurd hin (hout r)
    · rcases (hmem t b).mp hb' with hin' | ⟨rfl, -⟩
      · exact absurd hin' (hout t)
      · rfl
  · intro b
    constructor
    · rintro (hb | rfl)
      · obtain ⟨r, hr⟩ := (h.live_iff b).mp hb
        exact ⟨r, (hmem r b).mpr (.inl hr)⟩
      · exact ⟨p, (hmem p b).mpr (.inr ⟨rfl, rfl⟩)⟩
    · rintro ⟨r, hr⟩
      rcases (hmem r b).mp hr with hin | ⟨-, rfl⟩
      · exact .inl (h.mem_live hin)
      · exact .inr rfl

theorem Held.take [DecidableEq α] (h : Held place live) (ha : a ∈ place p) :
    Held (Function.update place p ((place p).erase a)) (fun b => live b ∧ ¬ b = a) := by
  refine h.drop (fun r => ?_) fun r b => ?_
  · by_cases hr : r = p
    · subst hr
      rw [Function.update_self]
      exact List.erase_sublist
    · rw [Function.update_of_ne hr]
  · by_cases hr : r = p
    · subst hr
      rw [Function.update_self, (h.once r).mem_erase_iff]
      exact and_comm
    · rw [Function.update_of_ne hr]
      refine ⟨fun hb => ⟨hb, ?_⟩, And.left⟩
      rintro rfl
      exact hr (h.single r p b hb ha)

theorem Held.clear (h : Held place live) (p : π) :
    Held (Function.update place p []) (fun b => live b ∧ ¬ b ∈ place p) := by
  refine h.drop (fun r => ?_) fun r b => ?_
  · by_cases hr : r = p
    · subst hr
      rw [Function.update_self]
      exact List.nil_sublist _
    · rw [Function.update_of_ne hr]
  · by_cases hr : r = p
    · subst hr
      rw [Function.update_self]
      exact iff_of_false List.not_mem_nil fun hb => hb.2 hb.1
    · rw [Function.update_of_ne hr]
      exact ⟨fun hb => ⟨hb, fun hb' => hr (h.single r p b hb hb')⟩, And.left⟩

/-- The items of `p` go behind those of `q`. -/
theorem Held.pour (h : Held place live) (hpq : p ≠ q) :
    Held (Function.update (Function.update place q (place q++place p)) p []) live := by
  have hmem : ∀ r b, b ∈ Function.update (Function.update place q (place q++place p)) p [] r ↔
      r ≠ p ∧ (b ∈ place r ∨ r = q ∧ b ∈ place p) := by
    intro r b
    by_cases hp : r = p
    · simp [hp]
    · by_cases hq : r = q
      · subst hq
        simp [hp]
      · simp [hp, hq]
  constructor
  · intro r
    by_cases hp : r = p
    · simp [hp]
    · rw [Function.update_of_ne hp]
      by_cases hq : r = q
      · subst hq
        rw [Function.update_self, List.nodup_append]
        refine ⟨h.once r, h.once p, fun b hb c hc => ?_⟩
        rintro rfl
        exact hp (h.single r p b hb hc)
      · rw [Function.update_of_ne hq]
        exact h.once r
  · intro r t b hb hb'
    obtain ⟨hr, hin⟩ := (hmem r b).mp hb
    obtain ⟨ht, hin'⟩ := (hmem t b).mp hb'
    rcases hin with hin | ⟨rfl, hin⟩
    · rcases hin' with hin' | ⟨rfl, hin'⟩
      · exact h.single r t b hin hin'
      · exact absurd (h.single r p b hin hin') hr
    · rcases hin' with hin' | ⟨rfl, -⟩
      · exact absurd (h.single t p b hin' hin) ht
      · rfl
  · intro b
    rw [h.live_iff b]
    constructor
    · rintro ⟨r, hr⟩
      by_cases hp : r = p
      · exact ⟨q, (hmem q b).mpr ⟨hpq.symm, .inr ⟨rfl, hp ▸ hr⟩⟩⟩
      · exact ⟨r, (hmem r b).mpr ⟨hp, .inl hr⟩⟩
    · rintro ⟨r, hr⟩
      rcases ((hmem r b).mp hr).2 with hin | ⟨-, hin⟩
      · exact ⟨r, hin⟩
      · exact ⟨p, hin⟩

end Lib.HeldPlaces
