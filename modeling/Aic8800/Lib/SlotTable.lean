import Mathlib.Logic.Function.Basic
import Mathlib.Tactic.Common

/-!
# A table of handles

A table of slots stands for a set of live handles when its entries are exactly
these, each in one slot. A new handle goes into an empty slot, an old one is
taken out of its slot, and the table stands for the changed set.
-/

set_option autoImplicit false

namespace Lib.SlotTable

variable {α : Type*} {n : ℕ} {slots : ℕ → Option α} {live : α → Prop}

structure Tracks (n : ℕ) (slots : ℕ → Option α) (live : α → Prop) : Prop where
  sound : ∀ i < n, ∀ a, slots i = some a → live a
  complete : ∀ a, live a → ∃ i < n, slots i = some a
  single : ∀ i < n, ∀ j < n, ∀ a, slots i = some a → slots j = some a → i = j

theorem tracks_empty : Tracks n (fun _ => (none : Option α)) (fun _ => False) :=
  ⟨fun _ _ _ h => (Option.some_ne_none _ h.symm).elim, fun _ h => h.elim,
    fun _ _ _ _ _ h => (Option.some_ne_none _ h.symm).elim⟩

theorem Tracks.congr {live' : α → Prop} (h : Tracks n slots live)
    (hlive : ∀ a, live a ↔ live' a) : Tracks n slots live' :=
  ⟨fun i hi a ha => (hlive a).mp (h.sound i hi a ha),
    fun a ha => h.complete a ((hlive a).mpr ha), h.single⟩

theorem Tracks.put (h : Tracks n slots live) {i : ℕ} (hi : i < n) (hempty : slots i = none)
    {a : α} (hnew : ¬ live a) :
    Tracks n (Function.update slots i (some a)) (fun b => live b ∨ b = a) := by
  have hfresh : ∀ j < n, slots j ≠ some a := fun j hj ha => hnew (h.sound j hj a ha)
  constructor
  · intro j hj b hb
    by_cases hji : j = i
    · rw [hji, Function.update_self] at hb
      exact .inr (Option.some.inj hb).symm
    · rw [Function.update_of_ne hji] at hb
      exact .inl (h.sound j hj b hb)
  · intro b hb
    rcases hb with hb | rfl
    · obtain ⟨j, hj, hslot⟩ := h.complete b hb
      have hji : j ≠ i := by
        rintro rfl
        rw [hempty] at hslot
        cases hslot
      exact ⟨j, hj, by rw [Function.update_of_ne hji, hslot]⟩
    · exact ⟨i, hi, Function.update_self ..⟩
  · intro j hj k hk b hjb hkb
    by_cases hji : j = i <;> by_cases hki : k = i
    · rw [hji, hki]
    · rw [hji, Function.update_self] at hjb
      rw [Function.update_of_ne hki, ← hjb] at hkb
      exact absurd hkb (hfresh k hk)
    · rw [hki, Function.update_self] at hkb
      rw [Function.update_of_ne hji, ← hkb] at hjb
      exact absurd hjb (hfresh j hj)
    · rw [Function.update_of_ne hji] at hjb
      rw [Function.update_of_ne hki] at hkb
      exact h.single j hj k hk b hjb hkb

theorem Tracks.take (h : Tracks n slots live) {i : ℕ} (hi : i < n) {a : α}
    (hslot : slots i = some a) :
    Tracks n (Function.update slots i none) (fun b => live b ∧ b ≠ a) := by
  have hold : ∀ j b, Function.update slots i none j = some b → j ≠ i ∧ slots j = some b := by
    intro j b hb
    by_cases hji : j = i
    · rw [hji, Function.update_self] at hb
      cases hb
    · rw [Function.update_of_ne hji] at hb
      exact ⟨hji, hb⟩
  constructor
  · intro j hj b hb
    obtain ⟨hji, hjb⟩ := hold j b hb
    refine ⟨h.sound j hj b hjb, ?_⟩
    rintro rfl
    exact hji (h.single j hj i hi b hjb hslot)
  · rintro b ⟨hb, hne⟩
    obtain ⟨j, hj, hjb⟩ := h.complete b hb
    have hji : j ≠ i := by
      rintro rfl
      rw [hslot] at hjb
      exact hne (Option.some.inj hjb).symm
    exact ⟨j, hj, by rw [Function.update_of_ne hji, hjb]⟩
  · intro j hj k hk b hjb hkb
    exact h.single j hj k hk b (hold j b hjb).2 (hold k b hkb).2

end Lib.SlotTable
