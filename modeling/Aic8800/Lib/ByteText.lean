import Mathlib.Data.List.Basic
import Mathlib.Data.List.TakeWhile
import Mathlib.Data.Nat.Notation

/-!
# Text as bytes

ASCII text, strings that end at a zero, and a text cut into lines.
-/

set_option autoImplicit false

namespace Lib.ByteText

/-- The bytes of an ASCII text. -/
def ascii (text : String) : List UInt8 := text.toList.map fun c => UInt8.ofNat c.toNat

/-- The string at the start of the bytes. -/
def cString (bytes : List UInt8) : List UInt8 := bytes.takeWhile (· != 0)

theorem cString_append (a b : List UInt8) (h : 0 ∉ a) : cString (a++0::b) = a := by
  have hall : ∀ x ∈ a, (x != 0) = true := fun x hx => by
    simpa using fun e : x = 0 => h (e ▸ hx)
  rw [cString, List.takeWhile_append_of_pos hall]
  simp

/-- A text with a zero in it ends the string. -/
theorem cString_of_mem {l : List UInt8} (h : 0 ∈ l) (b : List UInt8) :
    cString (l++b) = cString l := by
  induction l with
  | nil => exact absurd h List.not_mem_nil
  | cons c l ih =>
    by_cases hc : c = 0
    · simp [cString, hc]
    · have hmem : 0 ∈ l := (List.mem_cons.mp h).resolve_left (Ne.symm hc)
      have h' := ih hmem
      simp only [cString, List.cons_append] at h' ⊢
      rw [List.takeWhile_cons_of_pos (by simpa using hc), h',
        List.takeWhile_cons_of_pos (by simpa using hc)]

/-! ## Lines -/

variable {α : Type*}

/-- The lines that end in a text, and what stands behind the last end. -/
structure Lines (α : Type*) where
  complete : List (List α)
  rest : List α

variable (isEnd : α → Bool)

def lines : List α → Lines α
  | [] => ⟨[], []⟩
  | c::cs =>
    if isEnd c then ⟨[]::(lines cs).complete, (lines cs).rest⟩
    else
      match (lines cs).complete with
      | [] => ⟨[], c::(lines cs).rest⟩
      | l::ls => ⟨(c::l)::ls, (lines cs).rest⟩

/-- No byte of the line ends it. -/
def Open (l : List α) : Prop := ∀ c ∈ l, isEnd c = false

variable {isEnd} {l : List α} {c : α}

theorem Open.tail (h : Open isEnd (c::l)) : Open isEnd l :=
  fun x hx => h x (List.mem_cons_of_mem c hx)

theorem Open.head (h : Open isEnd (c::l)) : isEnd c = false := h c List.mem_cons_self

theorem lines_open (h : Open isEnd l) : lines isEnd l = ⟨[], l⟩ := by
  induction l with
  | nil => rfl
  | cons c l ih => simp [lines, h.head, ih h.tail]

theorem lines_line (h : Open isEnd l) (hc : isEnd c = true) (cs : List α) :
    lines isEnd (l++c::cs) = ⟨l::(lines isEnd cs).complete, (lines isEnd cs).rest⟩ := by
  induction l with
  | nil => simp [lines, hc]
  | cons d l ih => simp [lines, h.head, ih h.tail]

/-- A text is open, or it is an open line, its end and another text. -/
theorem open_or_line (cs : List α) : Open isEnd cs ∨
    ∃ l c rest, cs = l++c::rest ∧ Open isEnd l ∧ isEnd c = true := by
  induction cs with
  | nil => exact .inl fun c hc => absurd hc List.not_mem_nil
  | cons d cs ih =>
    cases hd : isEnd d with
    | true => exact .inr ⟨[], d, cs, rfl, fun c hc => absurd hc List.not_mem_nil, hd⟩
    | false =>
      rcases ih with h | ⟨l, c, rest, rfl, hl, hc⟩
      · exact .inl fun x hx => (List.mem_cons.mp hx).elim (fun e => e ▸ hd) (h x)
      · exact .inr ⟨d::l, c, rest, rfl,
          fun x hx => (List.mem_cons.mp hx).elim (fun e => e ▸ hd) (hl x), hc⟩

/-- A run over a text is a run line by line: what holds at the start of each line, of the lines
before it, holds of all complete lines where the rest begins. -/
theorem foldl_lines {σ : Type*} {step : σ → α → σ} {Inv : List (List α) → σ → Prop}
    (hline : ∀ ls s l c, Inv ls s → Open isEnd l → isEnd c = true →
      Inv (ls++[l]) ((l++[c]).foldl step s)) (cs : List α) (ls : List (List α)) (s : σ)
    (h : Inv ls s) : ∃ s', Inv (ls++(lines isEnd cs).complete) s' ∧
      Open isEnd (lines isEnd cs).rest ∧ cs.foldl step s = (lines isEnd cs).rest.foldl step s' := by
  induction hn : cs.length using Nat.strongRecOn generalizing cs ls s with
  | ind n ih =>
    rcases open_or_line cs with hopen | ⟨l, c, rest, rfl, hl, hc⟩
    · rw [lines_open hopen]
      exact ⟨s, by simpa using h, hopen, rfl⟩
    · rw [lines_line hl hc]
      have hlen : rest.length < n := by
        rw [← hn, List.length_append, List.length_cons]
        omega
      obtain ⟨s', hinv, hopen, hrun⟩ :=
        ih rest.length hlen rest (ls++[l]) _ (hline ls s l c h hl hc) rfl
      refine ⟨s', by simpa using hinv, hopen, ?_⟩
      rw [← hrun, ← List.foldl_append, List.append_assoc, List.singleton_append]

end Lib.ByteText
