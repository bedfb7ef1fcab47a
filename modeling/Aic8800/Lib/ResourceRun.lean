import Mathlib.Data.List.Basic
import Mathlib.Data.List.Count
import Mathlib.Tactic.Common

/-!
# Resources along a list of events

An event takes a resource, gives one back or changes nothing. A run of events is clean if each of
them is allowed and only what is held is given back. `loop` puts the events of a loop over a list
together, which may be left before its end.
-/

set_option autoImplicit false

namespace Lib.ResourceRun

inductive Change (κ : Type*) where
  | take (p : κ) | give (p : κ) | keep
  deriving DecidableEq

variable {ε κ σ α ρ : Type*} [DecidableEq κ]

def Change.apply (h : List κ) : Change κ → Option (List κ)
  | .take p => some (p::h)
  | .give p => if p ∈ h then some (h.erase p) else none
  | .keep => some h

/-- What is held behind the events. -/
def held (change : ε → Change κ) : List κ → List ε → Option (List κ)
  | h, [] => some h
  | h, e::es => ((change e).apply h).bind fun h => held change h es

structure Clean (ok : ε → Prop) (change : ε → Change κ) (h h' : List κ) (es : List ε) : Prop where
  each : ∀ e ∈ es, ok e
  balance : held change h es = some h'

/-! ## Rules -/

section Rules

variable {ok : ε → Prop} {change : ε → Change κ} {h h' : List κ} {e : ε} {es rest : List ε} {p : κ}

theorem clean_nil : Clean ok change h h' [] ↔ h = h' :=
  ⟨fun c => Option.some.inj c.balance, fun c => ⟨fun _ he => absurd he List.not_mem_nil, c ▸ rfl⟩⟩

theorem clean_cons : Clean ok change h h' (e::es) ↔
    ok e ∧ ∃ m, (change e).apply h = some m ∧ Clean ok change m h' es := by
  constructor
  · intro c
    obtain ⟨m, hm, hrest⟩ := Option.bind_eq_some_iff.mp c.balance
    exact ⟨c.each e List.mem_cons_self, m, hm,
      fun e' he' => c.each e' (List.mem_cons_of_mem e he'), hrest⟩
  · rintro ⟨hok, m, hm, c⟩
    refine ⟨fun e' he' => ?_, Option.bind_eq_some_iff.mpr ⟨m, hm, c.balance⟩⟩
    rcases List.mem_cons.mp he' with rfl | he'
    · exact hok
    · exact c.each e' he'

theorem clean_take (hc : change e = .take p) : Clean ok change h h' (e::es) ↔
    ok e ∧ Clean ok change (p::h) h' es := by
  rw [clean_cons, hc]
  simp [Change.apply]

theorem clean_give (hc : change e = .give p) (hp : p ∈ h) : Clean ok change h h' (e::es) ↔
    ok e ∧ Clean ok change (h.erase p) h' es := by
  rw [clean_cons, hc]
  simp [Change.apply, hp]

theorem clean_keep (hc : change e = .keep) : Clean ok change h h' (e::es) ↔
    ok e ∧ Clean ok change h h' es := by
  rw [clean_cons, hc]
  simp [Change.apply]

theorem held_append : held change h (es++rest) =
    (held change h es).bind fun h => held change h rest := by
  induction es generalizing h with
  | nil => rfl
  | cons e es ih =>
    rw [List.cons_append, held, held, Option.bind_assoc]
    exact congrArg _ (funext fun m => ih)

theorem clean_append {m : List κ} (hm : held change h es = some m) :
    Clean ok change h h' (es++rest) ↔ (∀ e ∈ es, ok e) ∧ Clean ok change m h' rest := by
  constructor
  · intro c
    have hrest := c.balance
    rw [held_append, hm] at hrest
    exact ⟨fun e he => c.each e (List.mem_append_left _ he),
      fun e he => c.each e (List.mem_append_right _ he), hrest⟩
  · rintro ⟨hok, c⟩
    refine ⟨fun e he => (List.mem_append.mp he).elim (hok e) (c.each e), ?_⟩
    rw [held_append, hm]
    exact c.balance

theorem held_keep (hes : ∀ e ∈ es, change e = .keep) : held change h es = some h := by
  induction es with
  | nil => rfl
  | cons e es ih =>
    rw [held, hes e List.mem_cons_self]
    exact ih fun e' he' => hes e' (List.mem_cons_of_mem e he')

/-- What no event gives back is held to the end. -/
theorem held_kept (hp : p ∈ h) (hes : ∀ e ∈ es, change e ≠ .give p)
    (hrun : held change h es = some h') : p ∈ h' := by
  induction es generalizing h with
  | nil => exact Option.some.inj hrun ▸ hp
  | cons e es ih =>
    obtain ⟨m, hm, hrest⟩ := Option.bind_eq_some_iff.mp hrun
    refine ih ?_ (fun e' he' => hes e' (List.mem_cons_of_mem e he')) hrest
    have hne := hes e List.mem_cons_self
    cases hc : change e with
    | take q =>
      rw [hc] at hm
      exact Option.some.inj hm ▸ List.mem_cons_of_mem q hp
    | give q =>
      rw [hc] at hm hne
      have hpq : p ≠ q := fun hpq => hne (hpq ▸ rfl)
      simp only [Change.apply, Option.ite_none_right_eq_some, Option.some.injEq] at hm
      rw [← hm.2]
      exact (List.mem_erase_of_ne hpq).mpr hp
    | keep =>
      rw [hc] at hm
      exact Option.some.inj hm ▸ hp

/-- Every resource is given back as often as it is taken. -/
theorem held_count (p : κ) (hrun : held change h es = some h') :
    h.count p+es.countP (fun e => change e = .take p) =
      h'.count p+es.countP fun e => change e = .give p := by
  induction es generalizing h with
  | nil => rw [Option.some.inj hrun, List.countP_nil, List.countP_nil]
  | cons e es ih =>
    obtain ⟨m, hm, hrest⟩ := Option.bind_eq_some_iff.mp hrun
    have hmore := ih hrest
    rw [List.countP_cons, List.countP_cons]
    cases hc : change e with
    | take q =>
      rw [hc] at hm
      rw [← Option.some.inj hm, List.count_cons] at hmore
      by_cases hq : q = p <;> simp [hq] at hmore ⊢ <;> omega
    | give q =>
      rw [hc] at hm
      simp only [Change.apply, Option.ite_none_right_eq_some, Option.some.injEq] at hm
      rw [← hm.2] at hmore
      by_cases hq : q = p
      · subst hq
        have hpos := List.count_pos_iff.mpr hm.1
        rw [List.count_erase_self] at hmore
        simp
        omega
      · rw [List.count_erase_of_ne (Ne.symm hq)] at hmore
        simp [hq]
        omega
    | keep =>
      rw [hc] at hm
      rw [← Option.some.inj hm] at hmore
      simpa using hmore

end Rules

/-! ## Loops -/

/-- A loop over a list. A step goes on from a new state or leaves the function. -/
def loop (step : σ → α → List ε × (σ ⊕ ρ)) (after : σ → List ε × ρ) : σ → List α → List ε × ρ
  | s, [] => after s
  | s, a::as =>
    match step s a with
    | (es, .inr r) => (es, r)
    | (es, .inl s') => (es++(loop step after s' as).1, (loop step after s' as).2)

section Loop

variable {ok : ε → Prop} {change : ε → Change κ} {step : σ → α → List ε × (σ ⊕ ρ)}
  {after : σ → List ε × ρ}

theorem loop_stop {s : σ} {a : α} {es : List ε} {r : ρ} (h : step s a = (es, .inr r))
    (as : List α) : loop step after s (a::as) = (es, r) := by
  rw [loop, h]

theorem loop_next {s s' : σ} {a : α} {es : List ε} (h : step s a = (es, .inl s')) (as : List α) :
    loop step after s (a::as) =
      (es++(loop step after s' as).1, (loop step after s' as).2) := by
  rw [loop, h]

theorem loop_each (P : ε → Prop) (Inv : σ → Prop)
    (hafter : ∀ s, Inv s → ∀ e ∈ (after s).1, P e)
    (hstop : ∀ s a es r, Inv s → step s a = (es, .inr r) → ∀ e ∈ es, P e)
    (hnext : ∀ s a es s', Inv s → step s a = (es, .inl s') → Inv s' ∧ ∀ e ∈ es, P e)
    {s : σ} (hs : Inv s) (as : List α) : ∀ e ∈ (loop step after s as).1, P e := by
  induction as generalizing s with
  | nil => exact hafter s hs
  | cons a as ih =>
    cases hstep : step s a with
    | mk es out =>
      cases out with
      | inl s' =>
        obtain ⟨hs', hes⟩ := hnext s a es s' hs hstep
        rw [loop_next hstep]
        exact fun e he => (List.mem_append.mp he).elim (hes e) (ih hs' e)
      | inr r =>
        rw [loop_stop hstep]
        exact hstop s a es r hs hstep

/-- `own s` is what the state `s` has to give back. A step that goes on keeps this, or what it
loses is never given back. -/
theorem loop_clean_iff (own : σ → List κ) (Fine : σ → List α → Prop) (Inv : σ → Prop)
    (Reached : α → Prop)
    (hafter : ∀ s, Inv s → (Clean ok change (own s) [] (after s).1 ↔ Fine s []))
    (hstop : ∀ s a as es r, Inv s → Reached a → step s a = (es, .inr r) →
      (Clean ok change (own s) [] es ↔ Fine s (a::as)))
    (hnext : ∀ s a as es s', Inv s → Reached a → step s a = (es, .inl s') → Inv s' ∧
      (held change (own s) es = some (own s') ∧
        (Fine s (a::as) ↔ (∀ e ∈ es, ok e) ∧ Fine s' as) ∨
      ¬ Fine s (a::as) ∧ ¬ Clean ok change (own s) [] (es++(loop step after s' as).1)))
    {s : σ} (hs : Inv s) {as : List α} (has : ∀ a ∈ as, Reached a) :
    Clean ok change (own s) [] (loop step after s as).1 ↔ Fine s as := by
  induction as generalizing s with
  | nil => exact hafter s hs
  | cons a as ih =>
    have ha : Reached a := has a List.mem_cons_self
    have hrest : ∀ a ∈ as, Reached a := fun b hb => has b (List.mem_cons_of_mem a hb)
    cases hstep : step s a with
    | mk es out =>
      cases out with
      | inl s' =>
        rw [loop_next hstep]
        obtain ⟨hs', ⟨hheld, hfine⟩ | ⟨hfine, hlost⟩⟩ := hnext s a as es s' hs ha hstep
        · rw [clean_append hheld, ih hs' hrest, hfine]
        · exact iff_of_false hlost hfine
      | inr r =>
        rw [loop_stop hstep]
        exact hstop s a as es r hs ha hstep

end Loop

end Lib.ResourceRun
