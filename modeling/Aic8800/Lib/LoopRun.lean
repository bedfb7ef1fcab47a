import Mathlib.Data.List.Basic

/-!
# Loops with an ending

A loop body looks at the state and the number of turns taken, and either stops
with a result or goes on from a new state with some outputs. `loop` runs it
under fuel; `Ends` is the same without fuel, as a derivation whose induction
follows the turns. A body that comes back to its own state has no derivation.
-/

set_option autoImplicit false

namespace Lib.LoopRun

inductive Turn (σ ο ρ : Type*) where
  | stop (r : ρ)
  | next (s : σ) (out : List ο)

variable {σ ο ρ : Type*}

/-- No result when the fuel is used up. -/
def loop (turn : ℕ → σ → Turn σ ο ρ) : ℕ → ℕ → σ → Option ρ × List ο
  | 0, _, _ => (none, [])
  | fuel+1, k, s =>
    match turn k s with
    | .stop r => (some r, [])
    | .next s' out =>
      let (r, rest) := loop turn fuel (k+1) s'
      (r, out++rest)

inductive Ends (turn : ℕ → σ → Turn σ ο ρ) : ℕ → σ → ρ → List ο → Prop
  | stop {k : ℕ} {s : σ} {r : ρ} (here : turn k s = .stop r) : Ends turn k s r []
  | next {k : ℕ} {s s' : σ} {r : ρ} {out rest : List ο} (here : turn k s = .next s' out)
      (more : Ends turn (k+1) s' r rest) : Ends turn k s r (out++rest)

variable {turn : ℕ → σ → Turn σ ο ρ}

theorem ends_of_loop {fuel k : ℕ} {s : σ} {r : ρ} {out : List ο}
    (h : loop turn fuel k s = (some r, out)) : Ends turn k s r out := by
  induction fuel generalizing k s out with
  | zero => simp [loop] at h
  | succ fuel ih =>
    cases hs : turn k s with
    | stop r' =>
      simp only [loop, hs, Prod.mk.injEq, Option.some.injEq] at h
      rw [← h.1, ← h.2]
      exact .stop hs
    | next s' o =>
      simp only [loop, hs, Prod.mk.injEq] at h
      rw [← h.2]
      exact .next hs (ih (Prod.ext h.1 rfl))

theorem loop_of_ends {k : ℕ} {s : σ} {r : ρ} {out : List ο} (h : Ends turn k s r out) :
    ∃ fuel, loop turn fuel k s = (some r, out) := by
  induction h with
  | stop here => exact ⟨1, by simp [loop, here]⟩
  | next here _ ih =>
    obtain ⟨fuel, hf⟩ := ih
    exact ⟨fuel+1, by simp [loop, here, hf]⟩

theorem ends_of_stop {k : ℕ} {s : σ} {r r' : ρ} {out : List ο} (h : Ends turn k s r out)
    (here : turn k s = .stop r') : r = r' ∧ out = [] := by
  cases h with
  | stop here' =>
    rw [here] at here'
    exact ⟨(Turn.stop.inj here').symm, rfl⟩
  | next here' _ =>
    rw [here] at here'
    cases here'

theorem ends_of_next {k : ℕ} {s s' : σ} {r : ρ} {o out : List ο} (h : Ends turn k s r out)
    (here : turn k s = .next s' o) : ∃ rest, out = o++rest ∧ Ends turn (k+1) s' r rest := by
  cases h with
  | stop here' =>
    rw [here] at here'
    cases here'
  | next here' more =>
    rw [here] at here'
    injection here' with hs ho
    exact ⟨_, by rw [ho], hs ▸ more⟩

theorem ends_unique {k : ℕ} {s : σ} {r r' : ρ} {out out' : List ο} (h : Ends turn k s r out)
    (h' : Ends turn k s r' out') : r = r' ∧ out = out' := by
  induction h generalizing out' with
  | stop here =>
    cases h' with
    | stop here' =>
      rw [here] at here'
      exact ⟨Turn.stop.inj here', rfl⟩
    | next here' _ =>
      rw [here] at here'
      cases here'
  | next here _ ih =>
    cases h' with
    | stop here' =>
      rw [here] at here'
      cases here'
    | next here' more' =>
      rw [here] at here'
      injection here' with hs ho
      obtain ⟨hr, hrest⟩ := ih (hs ▸ more')
      exact ⟨hr, by rw [ho, hrest]⟩

theorem stuck_not_ends {s : σ} (h : ∀ k, ∃ out, turn k s = .next s out) {k : ℕ} {r : ρ}
    {out : List ο} : ¬ Ends turn k s r out := by
  intro he
  induction he with
  | stop here =>
    obtain ⟨out, ho⟩ := h _
    rw [here] at ho
    cases ho
  | next here _ ih =>
    obtain ⟨out, ho⟩ := h _
    rw [here] at ho
    injection ho with hs
    exact ih (hs ▸ h)

/-! ## On the way -/

/-- The loop comes to a state, after some more turns. -/
inductive Reaches (turn : ℕ → σ → Turn σ ο ρ) : ℕ → σ → ℕ → σ → Prop
  | refl {k : ℕ} {s : σ} : Reaches turn k s k s
  | next {k j : ℕ} {s s' t : σ} {out : List ο} (here : turn k s = .next s' out)
      (more : Reaches turn (k+1) s' j t) : Reaches turn k s j t

/-- What ends goes on to its end from every state on the way. -/
theorem ends_of_reaches {k j : ℕ} {s t : σ} {r : ρ} {out : List ο} (h : Reaches turn k s j t)
    (he : Ends turn k s r out) : ∃ rest, Ends turn j t r rest := by
  induction h generalizing out with
  | refl => exact ⟨out, he⟩
  | next here _ ih =>
    cases he with
    | stop here' =>
      rw [here] at here'
      cases here'
    | next here' more' =>
      rw [here] at here'
      injection here' with hs
      exact ih (hs ▸ more')

/-- The turn that stops a loop is one that it comes to. -/
theorem reaches_stop {k : ℕ} {s : σ} {r : ρ} {out : List ο} (h : Ends turn k s r out) :
    ∃ j t, Reaches turn k s j t ∧ turn j t = .stop r := by
  induction h with
  | stop here => exact ⟨_, _, .refl, here⟩
  | next here _ ih =>
    obtain ⟨j, t, hr, hstop⟩ := ih
    exact ⟨j, t, .next here hr, hstop⟩

/-- Another loop over the same states, whose turns tell less. -/
theorem ends_map {ο' ρ' : Type*} {turn' : ℕ → σ → Turn σ ο' ρ'} {f : ρ → ρ'}
    (hstop : ∀ k s r, turn k s = .stop r → turn' k s = .stop (f r))
    (hnext : ∀ k s s' out, turn k s = .next s' out → ∃ out', turn' k s = .next s' out')
    {k : ℕ} {s : σ} {r : ρ} {out : List ο} (h : Ends turn k s r out) :
    ∃ out', Ends turn' k s (f r) out' := by
  induction h with
  | stop here => exact ⟨[], .stop (hstop _ _ _ here)⟩
  | next here _ ih =>
    obtain ⟨o, ho⟩ := hnext _ _ _ _ here
    obtain ⟨rest, hrest⟩ := ih
    exact ⟨o++rest, .next ho hrest⟩

/-- Under fuel the two loops come to the same result. -/
theorem loop_map {ο' : Type*} {turn' : ℕ → σ → Turn σ ο' ρ}
    (hstop : ∀ k s r, turn k s = .stop r → turn' k s = .stop r)
    (hnext : ∀ k s s' out, turn k s = .next s' out → ∃ out', turn' k s = .next s' out')
    (fuel k : ℕ) (s : σ) : (loop turn' fuel k s).1 = (loop turn fuel k s).1 := by
  induction fuel generalizing k s with
  | zero => rfl
  | succ fuel ih =>
    cases ht : turn k s with
    | stop r => rw [loop, loop, ht, hstop k s r ht]
    | next s' out =>
      obtain ⟨o, ho⟩ := hnext k s s' out ht
      rw [loop, loop, ht, ho]
      exact ih (k+1) s'

/-- And the other way round. -/
theorem ends_of_map {ο' ρ' : Type*} {turn' : ℕ → σ → Turn σ ο' ρ'} {f : ρ → ρ'}
    (hstop : ∀ k s r, turn k s = .stop r → turn' k s = .stop (f r))
    (hnext : ∀ k s s' out, turn k s = .next s' out → ∃ out', turn' k s = .next s' out')
    {k : ℕ} {s : σ} {r' : ρ'} {out' : List ο'} (h : Ends turn' k s r' out') :
    ∃ r out, Ends turn k s r out ∧ f r = r' := by
  induction h with
  | @stop k s r' here =>
    cases ht : turn k s with
    | stop r =>
      rw [hstop k s r ht] at here
      exact ⟨r, [], .stop ht, Turn.stop.inj here⟩
    | next s' out =>
      obtain ⟨o, ho⟩ := hnext k s s' out ht
      rw [ho] at here
      cases here
  | @next k s s' r' out' rest' here _ ih =>
    cases ht : turn k s with
    | stop r =>
      rw [hstop k s r ht] at here
      cases here
    | next t out =>
      obtain ⟨o, ho⟩ := hnext k s t out ht
      rw [ho] at here
      injection here with hs
      subst hs
      obtain ⟨r, rest, hrest, hr⟩ := ih
      exact ⟨r, out++rest, .next ht hrest, hr⟩

end Lib.LoopRun
