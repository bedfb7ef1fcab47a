import Mathlib.Data.List.Basic
import Mathlib.Data.List.TakeDrop
import Mathlib.Logic.Function.Basic
import Mathlib.Order.Basic

/-!
# Command lines

`parse_line` cuts a command into its arguments, in place: the end of each argument is
overwritten and `argv` points at the beginnings.
-/

set_option autoImplicit false

namespace AIC.CommandLine

def CMD_MAXARGS : ℕ := 10

def isBlank (c : UInt8) : Bool := c == 0x20 || c == 0x09

def QUOTE : UInt8 := 0x22

/-- `*line && *line != '\"'`. -/
def inQuotes (c : UInt8) : Bool := c != 0 && c != QUOTE

/-- `*line && *line != ' ' && *line != '\t'`. -/
def inWord (c : UInt8) : Bool := c != 0 && !isBlank c

/-- A string in a buffer, with what lies behind its terminator. -/
structure CString where
  text : List UInt8
  beyond : List UInt8
  text_ne_zero : 0 ∉ text

def CString.memory (c : CString) : List UInt8 := c.text++0 :: c.beyond

/-- The string at `p`. -/
def stringAt (line : List UInt8) (p : ℕ) : List UInt8 := (line.drop p).takeWhile (· != 0)

def byteAt (line : List UInt8) (p : ℕ) : UInt8 := line.getD p 0

/-- The line while it is cut: where `line` points, the arguments found, and what was written. -/
structure Parsing where
  line : List UInt8
  pos : ℕ
  argv : ℕ → Option ℕ
  argc : ℕ
  lineWrites : List ℕ
  argvWrites : List ℕ

namespace Parsing

/-- `while (c (*line)) ++line`, from `p`. -/
def skip (s : Parsing) (c : UInt8 → Bool) (p : ℕ) : ℕ := p+((s.line.drop p).takeWhile c).length

/-- `argv[nargs] = a`. -/
def setArg (s : Parsing) (a : Option ℕ) : Parsing :=
  { s with argv := Function.update s.argv s.argc a, argvWrites := s.argvWrites++[s.argc] }

/-- `argv[nargs++] = p`. -/
def pushArg (s : Parsing) (p : ℕ) : Parsing := { s.setArg (some p) with argc := s.argc+1 }

/-- `*line++ = '\0'` at `e`. -/
def cut (s : Parsing) (e : ℕ) : Parsing :=
  { s with line := s.line.set e 0, pos := e+1, lineWrites := s.lineWrites++[e] }

/-- Where the next argument begins, and where it ends. -/
def nextArg (s : Parsing) : ℕ × ℕ :=
  let p := s.skip isBlank s.pos
  if byteAt s.line p = QUOTE then (p+1, s.skip inQuotes (p+1)) else (p, s.skip inWord p)

/-- The loop of `parse_line`, where `k` more arguments may be found. -/
def parseArgs : ℕ → Parsing → Parsing
  | 0, s => s
  | k+1, s =>
    if byteAt s.line (s.skip isBlank s.pos) = 0 then s.setArg none
    else
      let found := s.pushArg s.nextArg.1
      if byteAt s.line s.nextArg.2 = 0 then found.setArg none
      else parseArgs k (found.cut s.nextArg.2)

end Parsing

/-- `parse_line`, where `junk` is what the array held before. -/
def parseLine (junk : ℕ → Option ℕ) (line : List UInt8) : Parsing :=
  Parsing.parseArgs CMD_MAXARGS ⟨line, 0, junk, 0, [], []⟩

/-- Between arguments, or in one of which some bytes were read. -/
inductive Mode where
  | between
  | word (a : List UInt8)
  | quoted (a : List UInt8)

/-- The arguments that a text holds: separated by blanks, or in quotes, which keep the blanks. -/
def scan : Mode → List UInt8 → List (List UInt8)
  | .between, [] => []
  | .between, c :: s =>
    if isBlank c then scan .between s
    else if c = QUOTE then scan (.quoted []) s
    else scan (.word [c]) s
  | .word a, [] => [a]
  | .word a, c :: s => if isBlank c then a :: scan .between s else scan (.word (a++[c])) s
  | .quoted a, [] => [a]
  | .quoted a, c :: s =>
    if c = QUOTE then a :: scan .between s else scan (.quoted (a++[c])) s

def arguments (s : List UInt8) : List (List UInt8) := scan .between s

/-- `"SET TX" a" ""`, with a quote inside a word and an empty argument. -/
example : arguments [0x22, 83, 32, 84, 0x22, 32, 97, 0x22, 9, 0x22, 0x22] =
    [[83, 32, 84], [97, 0x22], []] := by decide

/-- From `s` to `r`, at most `k` of `args` were found, which lie in `n` bytes from `s.pos` on. -/
structure Found (k n : ℕ) (args : List (List UInt8)) (s r : Parsing) : Prop where
  length : r.line.length = s.line.length
  before : r.line.take s.pos = s.line.take s.pos
  count : r.argc = s.argc+min k args.length
  kept : ∀ i, i < s.argc → r.argv i = s.argv i
  written : ∀ q ∈ r.lineWrites, q ∈ s.lineWrites ∨ s.pos ≤ q ∧ q < s.pos+n
  slots : ∀ i ∈ r.argvWrites, i ∈ s.argvWrites ∨ i ≤ s.argc+k
  arg : ∀ i a, i < k → args[i]? = some a → ∃ p, r.argv (s.argc+i) = some p ∧ s.pos ≤ p ∧
    p+a.length ≤ s.pos+n ∧ (s.line.drop p).take a.length = a ∧
    (r.line.drop p).take (a.length+1) = a++[0]
  apart : ∀ i j p q a, i < j → args[i]? = some a → r.argv (s.argc+i) = some p →
    s.argc+j < r.argc → r.argv (s.argc+j) = some q → p+a.length < q

/-! ## What the next argument of a text is -/

/-- The arguments after the byte that ends one. -/
def after : List UInt8 → List (List UInt8)
  | [] => []
  | _ :: u => arguments u

theorem arguments_blanks (t : List UInt8) : arguments t = arguments (t.dropWhile isBlank) := by
  induction t with
  | nil => rfl
  | cons c t ih =>
    by_cases hc : isBlank c
    · rw [List.dropWhile_cons_of_pos hc, ← ih]
      simp [arguments, scan, hc]
    · rw [List.dropWhile_cons_of_neg hc]

theorem scan_word (a t : List UInt8) : scan (.word a) t =
    (a++t.takeWhile (!isBlank ·)) :: after (t.dropWhile (!isBlank ·)) := by
  induction t generalizing a with
  | nil => simp [scan, after]
  | cons c t ih => by_cases hc : isBlank c <;> simp [scan, hc, ih, after, arguments]

theorem scan_quoted (a t : List UInt8) : scan (.quoted a) t =
    (a++t.takeWhile (· != QUOTE)) :: after (t.dropWhile (· != QUOTE)) := by
  induction t generalizing a with
  | nil => simp [scan, after]
  | cons c t ih => by_cases hc : c = QUOTE <;> simp [scan, hc, ih, after, arguments]

theorem arguments_quote (m : List UInt8) : arguments (QUOTE :: m) =
    m.takeWhile (· != QUOTE) :: after (m.dropWhile (· != QUOTE)) := by
  have h : arguments (QUOTE :: m) = scan (.quoted []) m := rfl
  rw [h, scan_quoted, List.nil_append]

theorem arguments_word (c : UInt8) (m : List UInt8) (hb : isBlank c = false) (hq : c ≠ QUOTE) :
    arguments (c :: m) =
      (c :: m).takeWhile (!isBlank ·) :: after ((c :: m).dropWhile (!isBlank ·)) := by
  have h : arguments (c :: m) = scan (.word [c]) m := by simp [arguments, scan, hb, hq]
  rw [h, scan_word]
  simp [hb]

/-- Up to a terminator, a loop that stops there reads as far as it would in the text alone. -/
theorem takeWhile_text (f : UInt8 → Bool) (hf : f 0 = false) (t rest : List UInt8) :
    (t++0 :: rest).takeWhile f = t.takeWhile f := by
  induction t with
  | nil => simp [hf]
  | cons c t ih => by_cases hc : f c <;> simp [hc, ih]

theorem takeWhile_nonzero (f : UInt8 → Bool) (t : List UInt8) (h : 0 ∉ t) :
    t.takeWhile (fun c => c != 0 && f c) = t.takeWhile f := by
  induction t with
  | nil => rfl
  | cons c t ih =>
    have hc : c ≠ 0 := fun e => h (by simp [e])
    have ht : 0 ∉ t := fun m => h (by simp [m])
    simp [List.takeWhile_cons, hc, ih ht]

theorem byteAt_add (line : List UInt8) (p n : ℕ) :
    byteAt line (p+n) = byteAt (line.drop p) n := by
  simp [byteAt, List.getD_eq_getElem?_getD]

namespace Parsing

theorem skip_text (s : Parsing) (f : UInt8 → Bool) (hf : f 0 = false) (p : ℕ)
    (t rest : List UInt8) (h : s.line.drop p = t++0 :: rest) :
    s.skip f p = p+(t.takeWhile f).length := by
  rw [skip, h, takeWhile_text f hf]

/-- Behind `n` bytes of the text the rest of it lies. -/
theorem drop_text (s : Parsing) (g t rest : List UInt8)
    (h : s.line.drop s.pos = (g++t)++0 :: rest) :
    s.line.drop (s.pos+g.length) = t++0 :: rest := by
  rw [← List.drop_drop, h, List.append_assoc, List.drop_left]

/-- The text from `s.pos` on holds no argument, or one `a` after `g` and before `u`. -/
theorem nextArg_cases (s : Parsing) (t rest : List UInt8) (h0 : 0 ∉ t)
    (h : s.line.drop s.pos = t++0 :: rest) :
    (byteAt s.line (s.skip isBlank s.pos) = 0 ∧ arguments t = []) ∨
    ∃ g a u, t = g++(a++u) ∧ arguments t = a :: after u ∧
      byteAt s.line (s.skip isBlank s.pos) ≠ 0 ∧
      s.nextArg = (s.pos+g.length, s.pos+g.length+a.length) := by
  obtain ⟨b, m, hb, hm⟩ : ∃ b m, b = t.takeWhile isBlank ∧ m = t.dropWhile isBlank :=
    ⟨_, _, rfl, rfl⟩
  have ht : t = b++m := by rw [hb, hm, List.takeWhile_append_dropWhile]
  have hskip : s.skip isBlank s.pos = s.pos+b.length := by
    rw [s.skip_text isBlank rfl s.pos t rest h, hb]
  have hdrop : s.line.drop (s.pos+b.length) = m++0 :: rest := s.drop_text b m rest (ht ▸ h)
  have hat : byteAt s.line (s.pos+b.length) = byteAt (m++0 :: rest) 0 := by
    rw [← hdrop, ← byteAt_add]; rfl
  have hargs : arguments t = arguments m := by rw [arguments_blanks, hm]
  cases m with
  | nil => exact .inl ⟨by rw [hskip, hat]; rfl, hargs⟩
  | cons c m =>
    have hc : c ≠ 0 := fun e => h0 (by simp [ht, e])
    have hm0 : 0 ∉ m := fun e => h0 (by simp [ht, e])
    have hblank : isBlank c = false := by
      have := List.head?_dropWhile_not isBlank t
      rw [← hm] at this
      simpa using this
    have hfirst : byteAt s.line (s.pos+b.length) = c := hat
    refine .inr ?_
    by_cases hq : c = QUOTE
    · -- the argument starts behind the quotation mark
      have hnext : s.line.drop (s.pos+b.length+1) = m++0 :: rest := by
        rw [← List.drop_drop, hdrop]; rfl
      refine ⟨b++[c], m.takeWhile (· != QUOTE), m.dropWhile (· != QUOTE), ?_, ?_, ?_, ?_⟩
      · rw [List.takeWhile_append_dropWhile, ht]; simp
      · rw [hargs, hq, arguments_quote]
      · rwa [hskip, hfirst]
      · rw [nextArg, hskip, hfirst, if_pos hq, s.skip_text inQuotes rfl _ m rest hnext]
        unfold inQuotes
        rw [takeWhile_nonzero _ m hm0]
        simp [Nat.add_assoc]
    · refine ⟨b, (c :: m).takeWhile (!isBlank ·), (c :: m).dropWhile (!isBlank ·), ?_, ?_, ?_, ?_⟩
      · rw [List.takeWhile_append_dropWhile, ht]
      · rw [hargs, arguments_word c m hblank hq]
      · rwa [hskip, hfirst]
      · have hcm : 0 ∉ c :: m := by simp [hm0, Ne.symm hc]
        rw [nextArg, hskip, hfirst, if_neg hq, s.skip_text inWord rfl _ (c :: m) rest hdrop]
        unfold inWord
        rw [takeWhile_nonzero _ (c :: m) hcm]

end Parsing

/-! ## What the loop finds -/

theorem Found.zero (n : ℕ) (args : List (List UInt8)) (s : Parsing) : Found 0 n args s s where
  length := rfl
  before := rfl
  count := by simp
  kept _ _ := rfl
  written _ := .inl
  slots _ := .inl
  arg i a hi := absurd hi (Nat.not_lt_zero i)
  apart i j p q a _ _ _ hj := absurd hj (by omega)

theorem Found.none (k n : ℕ) (s : Parsing) : Found k n [] s (s.setArg .none) where
  length := rfl
  before := rfl
  count := by simp [Parsing.setArg]
  kept i hi := Function.update_of_ne (Nat.ne_of_lt hi) _ _
  written _ := .inl
  slots i hi := by
    rcases List.mem_append.mp hi with h | h
    · exact .inl h
    · simp at h; omega
  arg i a _ h := by simp at h
  apart i j p q a _ h := by simp at h

/-- The last argument `a`, which ends with the text. -/
theorem Found.last (k : ℕ) (g a rest : List UInt8) (s : Parsing)
    (h : s.line.drop s.pos = (g++a)++0 :: rest) :
    Found (k+1) (g++a).length [a] s ((s.pushArg (s.pos+g.length)).setArg .none) where
  length := rfl
  before := rfl
  count := by simp [Parsing.setArg, Parsing.pushArg]
  kept i hi := by
    have h1 : i ≠ s.argc+1 := by omega
    simp [Parsing.setArg, Parsing.pushArg, h1, Nat.ne_of_lt hi]
  written _ := .inl
  slots i hi := by
    simp only [Parsing.setArg, Parsing.pushArg, List.mem_append, List.mem_singleton] at hi
    rcases hi with (hi | rfl) | rfl
    · exact .inl hi
    · exact .inr (by omega)
    · exact .inr (by omega)
  arg i b _ hb := by
    obtain ⟨rfl, rfl⟩ : i = 0 ∧ a = b := by
      cases i <;> simp at hb
      exact ⟨rfl, hb⟩
    have hd := s.drop_text g a rest h
    refine ⟨s.pos+g.length, by simp [Parsing.setArg, Parsing.pushArg], by omega, ?_, ?_, ?_⟩
    · simp [Nat.add_assoc]
    · rw [hd, List.take_left]
    · change (s.line.drop (s.pos+g.length)).take (a.length+1) = a++[0]
      rw [hd, List.take_length_add_append]
      rfl
  apart i j p q b hij _ _ hj := by
    simp only [Parsing.setArg, Parsing.pushArg] at hj
    omega

/-- An argument `a` cut from the text `u` behind it, in which the others are found. -/
theorem Found.cons (k : ℕ) (g a u rest : List UInt8) (c : UInt8) (s r : Parsing)
    (h : s.line.drop s.pos = (g++(a++c :: u))++0 :: rest)
    (hr : Found k u.length (arguments u)
      ((s.pushArg (s.pos+g.length)).cut (s.pos+g.length+a.length)) r) :
    Found (k+1) (g++(a++c :: u)).length (a :: arguments u) s r := by
  obtain ⟨e, he⟩ : ∃ e, e = s.pos+g.length+a.length := ⟨_, rfl⟩
  rw [← he] at hr
  have hlen : (g++(a++c :: u)).length = g.length+a.length+1+u.length := by simp; omega
  have hd := s.drop_text g _ rest h
  have hlt : e < s.line.length := by
    have := congrArg List.length hd
    simp at this
    omega
  have hbefore : r.line.take (e+1) = (s.line.set e 0).take (e+1) := hr.before
  have hcount : r.argc = s.argc+1+min k (arguments u).length := hr.count
  have hfirst : r.argv s.argc = some (s.pos+g.length) := by
    rw [hr.kept s.argc (Nat.lt_succ_self _)]
    exact Function.update_self ..
  refine ⟨?_, ?_, ?_, ?_, ?_, ?_, ?_, ?_⟩
  · rw [hr.length]
    exact List.length_set
  · have := congrArg (List.take s.pos) hbefore
    rwa [List.take_take, List.take_take, Nat.min_eq_left (by omega),
      List.take_set_of_le (by omega)] at this
  · rw [hcount, List.length_cons]
    omega
  · intro i hi
    rw [hr.kept i (Nat.lt_succ_of_lt hi)]
    exact Function.update_of_ne (Nat.ne_of_lt hi) ..
  · intro q hq
    rcases hr.written q hq with hq | ⟨h1, h2⟩
    · rcases List.mem_append.mp hq with hq | hq
      · exact .inl hq
      · simp at hq; omega
    · simp only [Parsing.cut] at h1 h2
      omega
  · intro i hi
    rcases hr.slots i hi with hi | hi
    · rcases List.mem_append.mp hi with hi | hi
      · exact .inl hi
      · simp at hi; omega
    · simp only [Parsing.cut, Parsing.pushArg] at hi
      omega
  · rintro (_ | i) b hi hb
    · -- the argument that was cut
      obtain rfl : a = b := by simpa using hb
      refine ⟨s.pos+g.length, hfirst, by omega, by omega, ?_, ?_⟩
      · rw [hd, List.append_assoc, List.take_left]
      · have hcut : (r.line.drop (s.pos+g.length)).take (a.length+1) =
            ((s.line.set e 0).drop (s.pos+g.length)).take (a.length+1) := by
          rw [List.take_drop, List.take_drop]
          have : s.pos+g.length+(a.length+1) = e+1 := by omega
          rw [this, hbefore]
        have hsub : e-(s.pos+g.length) = a.length := by omega
        rw [hcut, List.drop_set, if_neg (by omega), hd, hsub]
        simp [List.take_append]
    · obtain ⟨p, hp, h1, h2, h3, h4⟩ := hr.arg i b (Nat.lt_of_succ_lt_succ hi) hb
      simp only [Parsing.cut, Parsing.pushArg] at hp h1 h2 h3
      refine ⟨p, ?_, by omega, by omega, ?_, h4⟩
      · rw [← hp]
        congr 1
        omega
      · rwa [List.drop_set_of_lt (by omega)] at h3
  · rintro (_ | i) j p q b hij hb hp hj hq
    · obtain rfl : a = b := by simpa using hb
      obtain ⟨j, rfl⟩ : ∃ i, j = i+1 := ⟨j-1, by omega⟩
      obtain rfl : s.pos+g.length = p := by
        rw [Nat.add_zero, hfirst] at hp
        exact Option.some.inj hp
      have hjlt : j < min k (arguments u).length := by omega
      obtain ⟨q', hq', hle, -⟩ := hr.arg j _ (by omega)
        (List.getElem?_eq_getElem (show j < (arguments u).length by omega))
      simp only [Parsing.cut, Parsing.pushArg] at hq' hle
      have hqq : q' = q := by
        have : s.argc+(j+1) = s.argc+1+j := by omega
        rw [this, hq'] at hq
        exact Option.some.inj hq
      omega
    · obtain ⟨j, rfl⟩ : ∃ i, j = i+1 := ⟨j-1, by omega⟩
      have e1 : s.argc+(i+1) = s.argc+1+i := by omega
      have e2 : s.argc+(j+1) = s.argc+1+j := by omega
      rw [e1] at hp
      rw [e2] at hj hq
      exact hr.apart i j p q b (by omega) (by simpa using hb) hp hj hq

/-- The loop finds the arguments of the text from its place on, up to the number it may find. -/
theorem Parsing.parseArgs_found (k : ℕ) (s : Parsing) (t rest : List UInt8) (h0 : 0 ∉ t)
    (h : s.line.drop s.pos = t++0 :: rest) :
    Found k t.length (arguments t) s (s.parseArgs k) := by
  induction k generalizing s t with
  | zero => exact .zero _ _ s
  | succ k ih =>
    rcases s.nextArg_cases t rest h0 h with ⟨hend, hargs⟩ | ⟨g, a, u, rfl, hargs, hne, hnext⟩
    · rw [Parsing.parseArgs, if_pos hend, hargs]
      exact .none _ _ s
    · have hu := s.drop_text (g++a) u rest (by rw [h]; simp)
      rw [List.length_append, ← Nat.add_assoc] at hu
      have hat : byteAt s.line (s.pos+g.length+a.length) = byteAt (u++0 :: rest) 0 := by
        rw [← hu, ← byteAt_add]; rfl
      rw [Parsing.parseArgs, if_neg hne, hargs, hnext]
      cases u with
      | nil =>
        rw [if_pos (by rw [hat]; rfl)]
        simp only [List.append_nil] at h ⊢
        exact .last k g a rest s h
      | cons c u =>
        have hc : c ≠ 0 := fun e => h0 (by simp [e])
        rw [if_neg (by rw [hat]; exact hc)]
        refine .cons k g a u rest c s _ h (ih _ u (fun m => h0 (by simp [m])) ?_)
        change (s.line.set _ 0).drop (s.pos+g.length+a.length+1) = _
        rw [List.drop_set_of_lt (by omega), ← List.drop_drop, hu]
        rfl

/-- What `parse_line` promises for a string: its arguments, up to the limit, as strings of their
own that follow one another in it, and nothing else written. -/
structure ParseOk (c : CString) (r : Parsing) : Prop where
  argc_le : r.argc ≤ CMD_MAXARGS
  argc_eq : r.argc = min CMD_MAXARGS (arguments c.text).length
  inString : ∀ q ∈ r.lineWrites, q < c.text.length
  inArgv : ∀ i ∈ r.argvWrites, i ≤ CMD_MAXARGS
  substring : ∀ i a, i < r.argc → (arguments c.text)[i]? = some a → ∃ p, r.argv i = some p ∧
    p+a.length ≤ c.text.length ∧ (c.text.drop p).take a.length = a ∧
    (r.line.drop p).take (a.length+1) = a++[0]
  inOrder : ∀ i j p q a, i < j → j < r.argc → (arguments c.text)[i]? = some a →
    r.argv i = some p → r.argv j = some q → p+a.length < q

/-- Every string is cut as promised. -/
theorem parseLine_ok (junk : ℕ → Option ℕ) (c : CString) :
    ParseOk c (parseLine junk c.memory) := by
  have h : Found CMD_MAXARGS c.text.length (arguments c.text)
      ⟨c.memory, 0, junk, 0, [], []⟩ (parseLine junk c.memory) :=
    Parsing.parseArgs_found _ _ c.text c.beyond c.text_ne_zero rfl
  have hcount : (parseLine junk c.memory).argc =
      min CMD_MAXARGS (arguments c.text).length := by simpa using h.count
  refine ⟨by omega, hcount, ?_, ?_, ?_, ?_⟩
  · intro q hq
    have := h.written q hq
    simpa using this
  · intro i hi
    have := h.slots i hi
    simpa using this
  · intro i a hi ha
    obtain ⟨p, hp, -, hle, hsub, hend⟩ := h.arg i a (by omega) ha
    simp only [Nat.zero_add] at hp hle
    refine ⟨p, hp, hle, ?_, hend⟩
    change (c.memory.drop p).take a.length = a at hsub
    rwa [CString.memory, List.drop_append_of_le_length (by omega),
      List.take_append_of_le_length (by rw [List.length_drop]; omega)] at hsub
  · intro i j p q a hij hj ha hp hq
    exact h.apart i j p q a hij ha (by simpa using hp) (by simpa using hj) (by simpa using hq)

end AIC.CommandLine
