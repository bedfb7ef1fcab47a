import Mathlib.Data.List.Basic

/-!
# Runs of a machine with guards

An action may be disabled. A run is a list of actions that were all enabled,
and a condition on its steps is asked of each action in the state it meets.
-/

set_option autoImplicit false

namespace Lib.GuardedRun

variable {σ ε : Type*}

def exec (step : σ → ε → Option σ) : σ → List ε → Option σ
  | s, [] => some s
  | s, e::es => (step s e).bind fun t => exec step t es

/-- Every action meets the condition in the state it comes to. -/
def Meets (step : σ → ε → Option σ) (P : σ → ε → Prop) : σ → List ε → Prop
  | _, [] => True
  | s, e::es => P s e ∧ ∀ t ∈ step s e, Meets step P t es

instance decidableMeets (step : σ → ε → Option σ) (P : σ → ε → Prop)
    [∀ s e, Decidable (P s e)] : ∀ s es, Decidable (Meets step P s es)
  | _, [] => inferInstanceAs (Decidable True)
  | s, e::es =>
    have : DecidablePred fun t => Meets step P t es := fun t => decidableMeets step P t es
    inferInstanceAs (Decidable (P s e ∧ ∀ t ∈ step s e, Meets step P t es))

theorem Meets.mono {step : σ → ε → Option σ} {P Q : σ → ε → Prop} (h : ∀ s e, P s e → Q s e)
    {s : σ} {es : List ε} (hm : Meets step P s es) : Meets step Q s es := by
  induction es generalizing s with
  | nil => trivial
  | cons e es ih => exact ⟨h s e hm.1, fun t ht => ih (hm.2 t ht)⟩

theorem Meets.and {step : σ → ε → Option σ} {P Q : σ → ε → Prop} {s : σ} {es : List ε}
    (hp : Meets step P s es) (hq : Meets step Q s es) :
    Meets step (fun s e => P s e ∧ Q s e) s es := by
  induction es generalizing s with
  | nil => trivial
  | cons e es ih => exact ⟨⟨hp.1, hq.1⟩, fun t ht => ih (hp.2 t ht) (hq.2 t ht)⟩

/-- What holds at the start and across each step that meets the condition
holds at the end of the run. -/
theorem exec_invariant {step : σ → ε → Option σ} {P : σ → ε → Prop} {I : σ → Prop}
    (next : ∀ s e t, P s e → step s e = some t → I s → I t) {s t : σ} {es : List ε}
    (hs : I s) (hm : Meets step P s es) (h : exec step s es = some t) : I t := by
  induction es generalizing s with
  | nil =>
    obtain rfl := Option.some.inj h
    exact hs
  | cons e es ih =>
    obtain ⟨u, hu, hrest⟩ := Option.bind_eq_some_iff.mp h
    exact ih (next s e u hm.1 hu hs) (hm.2 u hu) hrest

/-- A condition that enables every action and keeps an invariant makes every run complete. -/
theorem exec_progress {step : σ → ε → Option σ} {P : σ → ε → Prop} {I : σ → Prop}
    (next : ∀ s e, P s e → I s → ∃ t, step s e = some t ∧ I t) {s : σ} {es : List ε}
    (hs : I s) (hm : Meets step P s es) : ∃ t, exec step s es = some t ∧ I t := by
  induction es generalizing s with
  | nil => exact ⟨s, rfl, hs⟩
  | cons e es ih =>
    obtain ⟨t, ht, hi⟩ := next s e hm.1 hs
    obtain ⟨u, hu, hiu⟩ := ih hi (hm.2 t ht)
    exact ⟨u, Option.bind_eq_some_iff.mpr ⟨t, ht, hu⟩, hiu⟩

theorem meets_of_forall {step : σ → ε → Option σ} {P : σ → ε → Prop} (h : ∀ s e, P s e) (s : σ)
    (es : List ε) : Meets step P s es := by
  induction es generalizing s with
  | nil => trivial
  | cons e es ih => exact ⟨h s e, fun t _ => ih t⟩

theorem meets_of_mem {step : σ → ε → Option σ} {V : ε → Prop} (s : σ) {es : List ε}
    (h : ∀ e ∈ es, V e) : Meets step (fun _ e => V e) s es := by
  induction es generalizing s with
  | nil => trivial
  | cons e es ih =>
    exact ⟨h e List.mem_cons_self, fun t _ => ih t fun x hx => h x (List.mem_cons_of_mem e hx)⟩

/-- What every step preserves holds at the end of the run. -/
theorem exec_preserves {step : σ → ε → Option σ} {I : σ → Prop}
    (next : ∀ s e t, step s e = some t → I s → I t) {s t : σ} {es : List ε} (hs : I s)
    (h : exec step s es = some t) : I t := by
  have hm : Meets step (fun _ _ => True) s es := meets_of_forall (fun _ _ => trivial) s es
  exact exec_invariant (fun s e t _ hst hi => next s e t hst hi) hs hm h

/-- Two conditions that agree wherever an invariant of the steps holds are met by
the same runs. -/
theorem meets_iff {step : σ → ε → Option σ} {P Q : σ → ε → Prop} {J : σ → Prop}
    (next : ∀ s e t, step s e = some t → J s → J t) (same : ∀ s e, J s → (P s e ↔ Q s e)) {s : σ}
    (hs : J s) (es : List ε) : Meets step P s es ↔ Meets step Q s es := by
  induction es generalizing s with
  | nil => rfl
  | cons e es ih =>
    have hrest : ∀ t ∈ step s e, (Meets step P t es ↔ Meets step Q t es) :=
      fun t ht => ih (next s e t ht hs)
    constructor
    · rintro ⟨hp, hall⟩
      exact ⟨(same s e hs).mp hp, fun t ht => (hrest t ht).mp (hall t ht)⟩
    · rintro ⟨hq, hall⟩
      exact ⟨(same s e hs).mpr hq, fun t ht => (hrest t ht).mpr (hall t ht)⟩

/-! ## Every state on the way -/

/-- Every state of the run has the property, the first and the last included. -/
def Throughout (step : σ → ε → Option σ) (I : σ → Prop) (s : σ) (es : List ε) : Prop :=
  ∀ pre, pre <+: es → ∀ t, exec step s pre = some t → I t

theorem meets_initial {step : σ → ε → Option σ} {P : σ → ε → Prop} {s : σ} {pre es : List ε}
    (hpre : pre <+: es) (h : Meets step P s es) : Meets step P s pre := by
  induction pre generalizing s es with
  | nil => trivial
  | cons e pre ih =>
    obtain ⟨rest, rfl⟩ := hpre
    exact ⟨h.1, fun t ht => ih (List.prefix_append pre rest) (h.2 t ht)⟩

theorem throughout_of_meets {step : σ → ε → Option σ} {P : σ → ε → Prop} {I J : σ → Prop}
    (next : ∀ s e t, P s e → step s e = some t → J s → J t) (good : ∀ s, J s → I s) {s : σ}
    (hs : J s) {es : List ε} (h : Meets step P s es) : Throughout step I s es :=
  fun _ hpre t ht => good t (exec_invariant next hs (meets_initial hpre h) ht)

theorem throughout_tail {step : σ → ε → Option σ} {I : σ → Prop} {s t : σ} {e : ε} {es : List ε}
    (ht : step s e = some t) (h : Throughout step I s (e::es)) : Throughout step I t es := by
  intro pre hpre u hu
  exact h (e::pre) (List.cons_prefix_cons.mpr ⟨rfl, hpre⟩) u (by simp [exec, ht, hu])

theorem throughout_head {step : σ → ε → Option σ} {I : σ → Prop} {s t : σ} {e : ε} {es : List ε}
    (ht : step s e = some t) (h : Throughout step I s (e::es)) : I t :=
  throughout_tail ht h [] (List.nil_prefix) t rfl

/-- Conditions that keep an invariant `J` behind the property, and that the property forces on every
step it survives, are exact, among the runs whose steps are as assumed. -/
theorem throughout_iff_assuming {step : σ → ε → Option σ} {A P : σ → ε → Prop} {I J : σ → Prop}
    (next : ∀ s e t, A s e → P s e → step s e = some t → J s → J t) (good : ∀ s, J s → I s)
    (force : ∀ s e, A s e → J s → (∀ t ∈ step s e, I t) → P s e) {s : σ} (hs : J s)
    {es : List ε} (ha : Meets step A s es) : Throughout step I s es ↔ Meets step P s es := by
  constructor
  · intro h
    induction es generalizing s with
    | nil => trivial
    | cons e es ih =>
      have hp : P s e := force s e ha.1 hs fun t ht => throughout_head ht h
      exact ⟨hp, fun t ht => ih (next s e t ha.1 hp ht hs) (ha.2 t ht) (throughout_tail ht h)⟩
  · intro h
    have hboth : Meets step (fun s e => A s e ∧ P s e) s es := ha.and h
    exact throughout_of_meets (fun s e t hp ht hj => next s e t hp.1 hp.2 ht hj) good hs hboth

theorem throughout_iff {step : σ → ε → Option σ} {P : σ → ε → Prop} {I J : σ → Prop}
    (next : ∀ s e t, P s e → step s e = some t → J s → J t) (good : ∀ s, J s → I s)
    (force : ∀ s e, J s → (∀ t ∈ step s e, I t) → P s e) {s : σ} (hs : J s) (es : List ε) :
    Throughout step I s es ↔ Meets step P s es :=
  throughout_iff_assuming (fun s e t _ => next s e t) good (fun s e _ => force s e) hs
    (meets_of_forall (fun _ _ => trivial) s es : Meets step (fun _ _ => True) s es)

/-- In a run of enabled actions only these need the condition. -/
theorem throughout_iff_of_exec {step : σ → ε → Option σ} {P : σ → ε → Prop} {I J : σ → Prop}
    (next : ∀ s e t, P s e → step s e = some t → J s → J t) (good : ∀ s, J s → I s)
    (force : ∀ s e t, J s → step s e = some t → I t → P s e) {s u : σ} (hs : J s) {es : List ε}
    (hrun : exec step s es = some u) : Throughout step I s es ↔ Meets step P s es := by
  refine ⟨fun h => ?_, throughout_of_meets next good hs⟩
  induction es generalizing s with
  | nil => trivial
  | cons e es ih =>
    obtain ⟨v, hv, hrest⟩ := Option.bind_eq_some_iff.mp hrun
    have hp : P s e := force s e v hs hv (throughout_head hv h)
    refine ⟨hp, fun t ht => ?_⟩
    obtain rfl := Option.some.inj (hv.symm.trans ht)
    exact ih (next s e v hp hv hs) hrest (throughout_tail hv h)

end Lib.GuardedRun
