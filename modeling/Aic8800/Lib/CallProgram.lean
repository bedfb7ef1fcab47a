import Mathlib.Logic.Function.Basic
import Mathlib.Tactic.Common

/-!
# Programs that share a server

A program makes calls and goes on with the answers. Programs that run at the same
time take turns, one call a turn. What each program does under every answer that
an invariant of the server allows, it does in every order of turns.
-/

set_option autoImplicit false

namespace Lib.CallProgram

inductive Prog (κ α ρ : Type*)
  | done (r : ρ)
  | ask (c : κ) (next : α → Prog κ α ρ)

variable {κ α ρ ρ' σ τ ι : Type*}

def Prog.bind (p : Prog κ α ρ) (f : ρ → Prog κ α ρ') : Prog κ α ρ' :=
  match p with
  | .done r => f r
  | .ask c next => .ask c fun a => (next a).bind f

/-- The program without the others. There is no result where the server has none. -/
def Prog.run (serve : σ → κ → Option (σ × α)) : Prog κ α ρ → σ → Option (σ × ρ)
  | .done r, s => some (s, r)
  | .ask c next, s => (serve s c).bind fun r => (next r.2).run serve r.1

theorem run_bind (serve : σ → κ → Option (σ × α)) (p : Prog κ α ρ) (f : ρ → Prog κ α ρ') (s : σ) :
    (p.bind f).run serve s = (p.run serve s).bind fun r => (f r.2).run serve r.1 := by
  induction p generalizing s with
  | done r => rfl
  | ask c next ih =>
    simp only [Prog.bind, Prog.run, Option.bind_assoc]
    exact congrArg _ (funext fun r => ih r.2 r.1)

/-- Two servers with the same answers give a program the same result. -/
theorem run_same {serve : σ → κ → Option (σ × α)} {serve' : τ → κ → Option (τ × α)}
    {same : σ → τ → Prop}
    (h : ∀ s t c, same s t → ∃ s' t' a, serve s c = some (s', a) ∧ serve' t c = some (t', a) ∧
      same s' t') (p : Prog κ α ρ) {s : σ} {t : τ} (hst : same s t) :
    ∃ s' t' r, p.run serve s = some (s', r) ∧ p.run serve' t = some (t', r) ∧ same s' t' := by
  induction p generalizing s t with
  | done r => exact ⟨s, t, r, rfl, rfl, hst⟩
  | ask c next ih =>
    obtain ⟨s1, t1, a, hs1, ht1, hsame1⟩ := h s t c hst
    obtain ⟨s2, t2, r, hs2, ht2, hsame2⟩ := ih a hsame1
    refine ⟨s2, t2, r, ?_, ?_, hsame2⟩
    · rw [Prog.run, hs1]
      exact hs2
    · rw [Prog.run, ht1]
      exact ht2

/-! ## What holds of a program -/

/-- Every answer `tells` allows is enough for allowed calls up to a result with the property. -/
def Ends (allowed : κ → Prop) (tells : κ → α → Prop) (post : ρ → Prop) : Prog κ α ρ → Prop
  | .done r => post r
  | .ask c next => allowed c ∧ ∀ a, tells c a → Ends allowed tells post (next a)

/-- Allowed calls are answered, keep the invariant and have such answers. -/
def Serves (serve : σ → κ → Option (σ × α)) (inv : σ → Prop) (allowed : κ → Prop)
    (tells : κ → α → Prop) : Prop :=
  ∀ s c, inv s → allowed c → ∃ s' a, serve s c = some (s', a) ∧ inv s' ∧ tells c a

variable {allowed : κ → Prop} {tells : κ → α → Prop} {serve : σ → κ → Option (σ × α)}
  {inv : σ → Prop}

theorem Ends.bind {post : ρ' → Prop} {p : Prog κ α ρ} {f : ρ → Prog κ α ρ'}
    (h : Ends allowed tells (fun r => Ends allowed tells post (f r)) p) :
    Ends allowed tells post (p.bind f) := by
  induction p with
  | done r => exact h
  | ask c next ih => exact ⟨h.1, fun a ha => ih a (h.2 a ha)⟩

theorem Ends.mono {post post' : ρ → Prop} {p : Prog κ α ρ} (h : Ends allowed tells post p)
    (hpost : ∀ r, post r → post' r) : Ends allowed tells post' p := by
  induction p with
  | done r => exact hpost r h
  | ask c next ih => exact ⟨h.1, fun a ha => ih a (h.2 a ha)⟩

theorem Ends.run {post : ρ → Prop} {p : Prog κ α ρ} {s : σ}
    (hserves : Serves serve inv allowed tells) (h : Ends allowed tells post p) (hs : inv s) :
    ∃ s' r, p.run serve s = some (s', r) ∧ inv s' ∧ post r := by
  induction p generalizing s with
  | done r => exact ⟨s, r, rfl, hs, h⟩
  | ask c next ih =>
    obtain ⟨s1, a, hserve, hs1, ha⟩ := hserves s c hs h.1
    obtain ⟨s2, r, hrun, hs2, hr⟩ := ih a (h.2 a ha) hs1
    refine ⟨s2, r, ?_, hs2, hr⟩
    rw [Prog.run, hserve]
    exact hrun

/-- What a program ends with whatever it is told holds of its result under every server. -/
theorem Ends.of_run {post : ρ → Prop} {p : Prog κ α ρ} {s s' : σ} {r : ρ}
    (h : Ends (fun _ => True) (fun _ _ => True) post p) (hrun : p.run serve s = some (s', r)) :
    post r := by
  induction p generalizing s with
  | done r' =>
    obtain rfl : r' = r := congrArg Prod.snd (Option.some.inj hrun)
    exact h
  | ask c next ih =>
    obtain ⟨⟨s1, a⟩, -, hrun1⟩ := Option.bind_eq_some_iff.mp hrun
    exact ih a (h.2 a trivial) hrun1

/-! ## Turns -/

section Turns

variable [DecidableEq ι]

/-- A turn of program `i`. One that is done stays as it is. -/
def turn (serve : σ → κ → Option (σ × α)) (st : σ × (ι → Prog κ α ρ)) (i : ι) :
    Option (σ × (ι → Prog κ α ρ)) :=
  match st.2 i with
  | .done _ => some st
  | .ask c next => (serve st.1 c).map fun r => (r.1, Function.update st.2 i (next r.2))

def turns (serve : σ → κ → Option (σ × α)) (st : σ × (ι → Prog κ α ρ)) (is : List ι) :
    Option (σ × (ι → Prog κ α ρ)) := is.foldlM (turn serve) st

variable {post : ι → ρ → Prop} {st : σ × (ι → Prog κ α ρ)}

theorem turn_keeps (hserves : Serves serve inv allowed tells) (hs : inv st.1)
    (hp : ∀ i, Ends allowed tells (post i) (st.2 i)) (i : ι) :
    ∃ st', turn serve st i = some st' ∧ inv st'.1 ∧
      ∀ j, Ends allowed tells (post j) (st'.2 j) := by
  unfold turn
  cases hi : st.2 i with
  | done r => exact ⟨st, rfl, hs, hp⟩
  | ask c next =>
    have hask := hp i
    rw [hi] at hask
    obtain ⟨s', a, hserve, hs', htells⟩ := hserves st.1 c hs hask.1
    refine ⟨(s', Function.update st.2 i (next a)), by simp [hserve], hs', fun j => ?_⟩
    by_cases hj : j = i
    · subst hj
      simpa using hask.2 a htells
    · simpa [hj] using hp j

/-- In every order of turns the calls are answered, the invariant is kept, and a program that is
done has a result with its property. -/
theorem turns_keep (hserves : Serves serve inv allowed tells) (hs : inv st.1)
    (hp : ∀ i, Ends allowed tells (post i) (st.2 i)) (is : List ι) :
    ∃ st', turns serve st is = some st' ∧ inv st'.1 ∧
      ∀ j, Ends allowed tells (post j) (st'.2 j) := by
  induction is generalizing st with
  | nil => exact ⟨st, rfl, hs, hp⟩
  | cons i is ih =>
    obtain ⟨st1, hrun1, hs1, hp1⟩ := turn_keeps hserves hs hp i
    obtain ⟨st2, hrun2, hs2, hp2⟩ := ih hs1 hp1
    refine ⟨st2, ?_, hs2, hp2⟩
    rw [turns, List.foldlM_cons, hrun1]
    exact hrun2

end Turns

end Lib.CallProgram
