import Mathlib.Data.List.Infix

/-!
# Runs of a machine with outputs

A machine takes an input to a new state and a list of outputs. One induction
over the inputs so far covers invariants, histories of outputs and claims
about every prefix of a run.
-/

set_option autoImplicit false

namespace Lib.Trace

variable {σ ε ο : Type*}

def run (step : σ → ε → σ × List ο) : σ → List ε → σ × List ο
  | s, [] => (s, [])
  | s, e::es => ((run step (step s e).1 es).1, (step s e).2++(run step (step s e).1 es).2)

theorem run_append (step : σ → ε → σ × List ο) (s : σ) (es fs : List ε) :
    run step s (es++fs) = ((run step (run step s es).1 fs).1,
      (run step s es).2++(run step (run step s es).1 fs).2) := by
  induction es generalizing s with
  | nil => rfl
  | cons e es ih => simp only [List.cons_append, run, ih, List.append_assoc]

theorem run_concat (step : σ → ε → σ × List ο) (s : σ) (es : List ε) (e : ε) :
    run step s (es++[e]) = ((step (run step s es).1 e).1,
      (run step s es).2++(step (run step s es).1 e).2) := by
  simp only [run_append, run, List.append_nil]

/-- What holds of the inputs so far, the state and the outputs so far. -/
theorem run_history {step : σ → ε → σ × List ο} {s : σ} {P : List ε → σ → List ο → Prop}
    (start : P [] s []) (es : List ε)
    (next : ∀ pre e t os, pre++[e] <+: es → P pre t os → P (pre++[e]) (step t e).1
      (os++(step t e).2)) :
    P es (run step s es).1 (run step s es).2 := by
  induction es using List.reverseRecOn with
  | nil => exact start
  | append_singleton es e ih =>
    rw [run_concat]
    apply next es e _ _ (List.prefix_refl _)
    exact ih fun pre x t os hpre => next pre x t os (hpre.trans (List.prefix_append _ _))

/-! ## Runs whose steps meet a condition -/

/-- Each input meets the condition in the state it comes to. -/
def Along (step : σ → ε → σ × List ο) (P : σ → ε → Prop) : σ → List ε → Prop
  | _, [] => True
  | s, e::es => P s e ∧ Along step P (step s e).1 es

theorem along_concat {step : σ → ε → σ × List ο} {P : σ → ε → Prop} (s : σ) (es : List ε) (e : ε) :
    Along step P s (es++[e]) ↔ Along step P s es ∧ P (run step s es).1 e := by
  induction es generalizing s with
  | nil => simp [Along, run]
  | cons x es ih => simp only [List.cons_append, Along, ih, run, and_assoc]

theorem along_history {step : σ → ε → σ × List ο} {P : σ → ε → Prop} {s : σ}
    {Q : List ε → σ → List ο → Prop} (start : Q [] s []) (es : List ε)
    (next : ∀ pre e t os, P t e → Q pre t os → Q (pre++[e]) (step t e).1 (os++(step t e).2))
    (h : Along step P s es) : Q es (run step s es).1 (run step s es).2 := by
  induction es using List.reverseRecOn with
  | nil => exact start
  | append_singleton es e ih =>
    rw [along_concat] at h
    rw [run_concat]
    exact next es e _ _ h.2 (ih h.1)

end Lib.Trace
