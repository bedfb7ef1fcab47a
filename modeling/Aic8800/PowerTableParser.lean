import Aic8800.Lib.StringBuffer
import Aic8800.PowerTable
import Mathlib.Data.List.Induction

/-!
# The parsers of power tables

`rwnx_plat_userconfig_parsing2` and `rwnx_plat_userconfig_parsing3` read a file byte by byte into
`command` and `value` and set a field at the end of each line.
-/

set_option autoImplicit false

namespace AIC.PowerTableParser
open AIC.PowerTable Lib.CheckedBuffer Lib.StringBuffer Lib.ByteText

inductive ParseState where
  | init | cmd | print | getValue
  deriving DecidableEq

def NL : UInt8 := 0x0a
def CR : UInt8 := 0x0d
def HASH : UInt8 := 0x23
def EQUALS : UInt8 := 0x3d

def isEnd (c : UInt8) : Bool := c == NL || c == CR

/-- The size of `command`. -/
def commandSize : Version → ℕ
  | .parsing2 => 30
  | .parsing3 => 64

def VALUE_SIZE : ℕ := 100

/-- The bytes of a value that are kept: the third parser drops what is no digit and no sign. -/
def keeps (v : Version) (c : UInt8) : Bool :=
  match v with
  | .parsing2 => true
  | .parsing3 => c == 0x2D || isdigit c

/-- The variables of a parser, with the strings it has passed on. -/
structure Parser where
  command : Buffer UInt8
  value : Buffer UInt8
  state : ParseState
  counter : ℕ
  config : UserConfig
  passed : List (Buffer UInt8)

variable (v : Version)

/-- The arrays hold whatever was on the stack, and are cleared. -/
def start (config : UserConfig) (stack : ℕ → UInt8) : Parser :=
  { command := (Buffer.fresh (commandSize v) stack).clear 0
    value := (Buffer.fresh VALUE_SIZE stack).clear 0
    state := .init
    counter := 0
    config := config
    passed := [] }

/-- The line is printed, or its field set. -/
def deliver (s : Parser) : Parser :=
  if s.command.cell 0 ≠ 0 ∧ s.value.cell 0 ≠ 0 then
    match s.state with
    | .print => { s with passed := s.passed++[s.value] }
    | .getValue =>
      { s with
        passed := s.passed++[s.command, s.value]
        config := nvramSetValue v.table (str s.command) (str s.value) s.config }
    | _ => s
  else s

/-- At the end of a line. -/
def endLine (s : Parser) : Parser :=
  let s := deliver v s
  { s with command := s.command.clear 0, value := s.value.clear 0, state := .init, counter := 0 }

def fillPrint (s : Parser) (c : UInt8) : Parser :=
  { s with
    command := s.command.put 0 1
    value := s.value.put s.counter c
    counter := s.counter+1 }

def fillCmd (s : Parser) (c : UInt8) : Parser :=
  if s.command.cell 0 ≠ 0 ∧ c = EQUALS then { s with state := .getValue, counter := 0 }
  else { s with command := s.command.put s.counter c, counter := s.counter+1 }

def fillValue (s : Parser) (c : UInt8) : Parser :=
  if keeps v c then { s with value := s.value.put s.counter c, counter := s.counter+1 } else s

/-- One byte of the file. -/
def step (s : Parser) (c : UInt8) : Parser :=
  if isEnd c then endLine v s
  else
    match s.state with
    | .init => if c = HASH then { s with state := .print } else fillCmd { s with state := .cmd } c
    | .print => fillPrint s c
    | .cmd => fillCmd s c
    | .getValue => fillValue v s c

/-- The parser after the whole file. -/
def parse (config : UserConfig) (stack : ℕ → UInt8) (file : List UInt8) : Parser :=
  file.foldl (step v) (start v config stack)

/-! ## Lines -/

/-- A line is empty, a comment, an assignment, or neither: the text before a first `=` is the
key, unless it is empty or begins with a zero. -/
inductive Kind where
  | empty
  | comment (text : List UInt8)
  | other (text : List UInt8)
  | assign (key value : List UInt8)

def kind : List UInt8 → Kind
  | [] => .empty
  | c::l =>
    if c = HASH then .comment l
    else if c = 0 then .other (c::l)
    else
      match l.dropWhile (· != EQUALS) with
      | [] => .other (c::l)
      | _::value => .assign (c::l.takeWhile (· != EQUALS)) (value.filter (keeps v))

namespace Kind

/-- What `command` holds for a line. -/
def command : Kind → List UInt8
  | empty => []
  | comment text => if text = [] then [] else [1]
  | other text => text
  | assign key _ => key

def value : Kind → List UInt8
  | empty => []
  | comment text => text
  | other _ => []
  | assign _ value => value

def state : Kind → ParseState
  | empty => .init
  | comment _ => .print
  | other _ => .cmd
  | assign _ _ => .getValue

def counter : Kind → ℕ
  | empty => 0
  | comment text => text.length
  | other text => text.length
  | assign _ value => value.length

end Kind

/-- The kind of a line with one more byte. -/
def extend (k : Kind) (c : UInt8) : Kind :=
  match k with
  | .empty => if c = HASH then .comment [] else .other [c]
  | .comment text => .comment (text++[c])
  | .other text =>
    if text.headD 0 ≠ 0 ∧ c = EQUALS then .assign text [] else .other (text++[c])
  | .assign key value => .assign key (value++if keeps v c then [c] else [])

variable {v}

theorem kind_snoc (l : List UInt8) (c : UInt8) : kind v (l++[c]) = extend v (kind v l) c := by
  cases l with
  | nil =>
    by_cases hh : c = HASH
    · simp [kind, extend, hh]
    · by_cases h0 : c = 0
      · subst h0
        rfl
      · simp [kind, extend, hh, h0]
  | cons d l =>
    by_cases hh : d = HASH
    · simp [kind, extend, hh]
    · by_cases h0 : d = 0
      · simp [kind, extend, h0, HASH]
      · cases hd : l.dropWhile (· != EQUALS) with
        | nil =>
          have hall : ∀ x ∈ l, (x != EQUALS) = true := List.dropWhile_eq_nil_iff.mp hd
          have hk : kind v (d::l) = .other (d::l) := by
            simp only [kind, hd, if_neg hh, if_neg h0]
          rw [hk, List.cons_append]
          simp only [kind, if_neg hh, if_neg h0]
          rw [List.dropWhile_append_of_pos hall, List.takeWhile_append_of_pos hall]
          by_cases hc : c = EQUALS
          · subst hc
            simp [extend, h0]
          · simp [extend, hc]
        | cons e value =>
          have hk : kind v (d::l) =
              .assign (d::l.takeWhile (· != EQUALS)) (value.filter (keeps v)) := by
            simp only [kind, hd, if_neg hh, if_neg h0]
          have he : (e != EQUALS) = false := by
            have := List.head?_dropWhile_not (· != EQUALS) l
            rw [hd] at this
            simpa using this
          have hall : ∀ x ∈ l.takeWhile (· != EQUALS), (x != EQUALS) = true := fun x hx =>
            List.mem_takeWhile_imp (p := (· != EQUALS)) hx
          have hl : l++[c] = l.takeWhile (· != EQUALS)++e::(value++[c]) := by
            rw [← List.cons_append, ← hd, ← List.append_assoc, List.takeWhile_append_dropWhile]
          rw [hk, List.cons_append]
          simp only [kind, if_neg hh, if_neg h0]
          rw [hl, List.dropWhile_append_of_pos hall, List.takeWhile_append_of_pos hall]
          simp [he, extend, List.filter_append, List.filter_cons]

/-- In every kind the bytes read so far have a first one that is not zero before a `=` counts. -/
theorem kind_assign_head (l key value : List UInt8) (h : kind v l = .assign key value) :
    key.headD 0 ≠ 0 := by
  cases l with
  | nil => cases h
  | cons c l =>
    simp only [kind] at h
    split at h
    · cases h
    · split at h
      · cases h
      · next h0 =>
        split at h
        · cases h
        · cases h
          exact h0

/-! ## The parser within a line -/

/-- The parser at the start of a line. -/
structure AtStart (v : Version) (s : Parser) : Prop where
  command : s.command.Holds 0 s.command.reach []
  value : s.value.Holds 0 s.value.reach []
  commandSize : s.command.capacity = commandSize v
  valueSize : s.value.capacity = VALUE_SIZE
  state : s.state = .init
  counter : s.counter = 0

/-- The parser `s` behind the bytes `l` of a line that it began as `s₀`. -/
structure Within (v : Version) (s₀ : Parser) (l : List UInt8) (s : Parser) : Prop where
  command : s.command.Holds 0 s₀.command.reach (kind v l).command
  value : s.value.Holds 0 s₀.value.reach (kind v l).value
  commandSize : s.command.capacity = s₀.command.capacity
  valueSize : s.value.capacity = s₀.value.capacity
  state : s.state = (kind v l).state
  counter : s.counter = (kind v l).counter
  config : s.config = s₀.config
  passed : s.passed = s₀.passed

theorem Within.of_kind {s₀ s : Parser} {l : List UInt8} {k : Kind} (hk : kind v l = k)
    (command : s.command.Holds 0 s₀.command.reach k.command)
    (value : s.value.Holds 0 s₀.value.reach k.value)
    (commandSize : s.command.capacity = s₀.command.capacity)
    (valueSize : s.value.capacity = s₀.value.capacity) (state : s.state = k.state)
    (counter : s.counter = k.counter) (config : s.config = s₀.config)
    (passed : s.passed = s₀.passed) : Within v s₀ l s := by
  subst hk
  exact ⟨command, value, commandSize, valueSize, state, counter, config, passed⟩

theorem AtStart.within {s : Parser} (h : AtStart v s) : Within v s [] s :=
  ⟨h.command, h.value, rfl, rfl, h.state, h.counter, rfl, rfl⟩

theorem commandSize_pos (v : Version) : 0 < commandSize v := by
  cases v <;> decide

/-- One more byte of the line. -/
theorem Within.step {s₀ s : Parser} {l : List UInt8} {c : UInt8} (h : Within v s₀ l s)
    (hcap : s₀.command.capacity = PowerTableParser.commandSize v) (hc : isEnd c = false) :
    Within v s₀ (l++[c]) (step v s c) := by
  have hsnoc := kind_snoc (v := v) l c
  have hstate := h.state
  have hcounter := h.counter
  have hcommand := h.command
  have hvalue := h.value
  have h0 : s.command.cell 0 = (kind v l).command.headD 0 := by
    have hpos : 0 < s.command.capacity := by
      rw [h.commandSize, hcap]
      exact commandSize_pos v
    rw [hcommand.cell 0 hpos]
    cases (kind v l).command <;> rfl
  have hstep : PowerTableParser.step v s c = match s.state with
      | .init => if c = HASH then { s with state := .print } else fillCmd { s with state := .cmd } c
      | .print => fillPrint s c
      | .cmd => fillCmd s c
      | .getValue => fillValue v s c := by
    simp only [PowerTableParser.step, hc, Bool.false_eq_true, if_false]
  rw [hstep]
  generalize kind v l = k at *
  rw [hstate]
  cases k with
  | empty =>
    by_cases hh : c = HASH
    · simp only [extend, if_pos hh] at hsnoc
      simp only [Kind.state, if_pos hh]
      exact .of_kind hsnoc hcommand hvalue h.commandSize h.valueSize rfl hcounter h.config h.passed
    · have hzero : ¬ (s.command.cell 0 ≠ 0 ∧ c = EQUALS) := fun hn => hn.1 h0
      simp only [extend, if_neg hh] at hsnoc
      simp only [Kind.state, if_neg hh, fillCmd, if_neg hzero]
      have hput := hcommand.put (c := c)
      have h0' : s.counter = 0 := hcounter
      rw [h0']
      exact .of_kind hsnoc hput hvalue h.commandSize h.valueSize rfl rfl h.config h.passed
  | comment text =>
    simp only [extend] at hsnoc
    have hput := hvalue.put (c := c)
    have hlen : s.counter = text.length := hcounter
    have hone : (s.command.put 0 1).Holds 0 s₀.command.reach [1] := by
      by_cases ht : text = []
      · have hnil : s.command.Holds 0 s₀.command.reach [] := by
          simpa [Kind.command, ht] using hcommand
        exact hnil.put
      · have hfirst : s.command.Holds 0 s₀.command.reach [1] := by
          simpa [Kind.command, ht] using hcommand
        exact hfirst.put_first
    simp only [Kind.state, fillPrint, hlen]
    exact .of_kind hsnoc (by simpa [Kind.command] using hone) hput h.commandSize h.valueSize
      hstate (by simp [Kind.counter]) h.config h.passed
  | other text =>
    have hlen : s.counter = text.length := hcounter
    simp only [Kind.state, fillCmd, h0, Kind.command]
    by_cases heq : text.headD 0 ≠ 0 ∧ c = EQUALS
    · simp only [extend, if_pos heq] at hsnoc
      rw [if_pos heq]
      exact .of_kind hsnoc hcommand hvalue h.commandSize h.valueSize rfl rfl h.config h.passed
    · simp only [extend, if_neg heq] at hsnoc
      rw [if_neg heq, hlen]
      exact .of_kind hsnoc hcommand.put hvalue h.commandSize h.valueSize hstate
        (by simp [Kind.counter]) h.config h.passed
  | assign key value =>
    have hlen : s.counter = value.length := hcounter
    simp only [Kind.state, fillValue]
    cases hkeep : keeps v c with
    | true =>
      simp only [extend, hkeep, if_true] at hsnoc
      rw [if_pos rfl, hlen]
      exact .of_kind hsnoc hcommand hvalue.put h.commandSize h.valueSize hstate
        (by simp [Kind.counter]) h.config h.passed
    | false =>
      simp only [extend, hkeep, Bool.false_eq_true, if_false, List.append_nil] at hsnoc
      simp only [Bool.false_eq_true, if_false]
      exact .of_kind hsnoc hcommand hvalue h.commandSize h.valueSize hstate hlen h.config h.passed

/-- The whole line. -/
theorem AtStart.run {s : Parser} {l : List UInt8} (h : AtStart v s) (hl : Open isEnd l) :
    Within v s l (l.foldl (step v) s) := by
  induction l using List.reverseRecOn with
  | nil => exact h.within
  | append_singleton l c ih =>
    have hopen : Open isEnd l := fun x hx => hl x (List.mem_append_left _ hx)
    have hc : isEnd c = false := hl c (List.mem_append_right _ List.mem_cons_self)
    rw [List.foldl_append]
    exact (ih hopen).step h.commandSize hc

/-! ## The end of a line -/

/-- A line that leaves room in both arrays. -/
def Fits (v : Version) (l : List UInt8) : Prop :=
  (kind v l).command.length ≤ commandSize v ∧ (kind v l).value.length ≤ VALUE_SIZE

/-- A line that fits, and whose strings end in their arrays if they are passed on. -/
def LineSafe (v : Version) (l : List UInt8) : Prop :=
  Fits v l ∧ ((kind v l).value.headD 0 ≠ 0 →
    EndsIn (commandSize v) (kind v l).command ∧ EndsIn VALUE_SIZE (kind v l).value)

instance (l : List UInt8) : Decidable (Fits v l) := inferInstanceAs (Decidable (_ ∧ _))

instance (l : List UInt8) : Decidable (LineSafe v l) := inferInstanceAs (Decidable (_ ∧ _))

/-- What a line assigns, as its callee reads it. -/
structure Assignment where
  key : List UInt8
  value : List UInt8
  deriving DecidableEq

def assignment (v : Version) (l : List UInt8) : Option Assignment :=
  match kind v l with
  | .assign key value => if value.headD 0 ≠ 0 then some ⟨cString key, cString value⟩ else none
  | _ => none

def sets (table : List Row) (a : Assignment) (f : Field) : Bool := f ∈ fieldsOf table a.key

def amount (a : Assignment) : UInt8 := number a.value

theorem nvramSetValue_eq (table : List Row) (a : Assignment) (config : UserConfig) :
    nvramSetValue table a.key a.value config =
      Lib.LastWrite.apply (sets table) amount config a := by
  funext f
  simp [nvramSetValue, Lib.LastWrite.apply, sets, amount, rwnxAtoi_number]

end AIC.PowerTableParser
