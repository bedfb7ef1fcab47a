import Aic8800.PowerTableParser

/-!
# The file of a power table

What the parsers of power tables do with a whole file.
-/

set_option autoImplicit false

namespace AIC.PowerTableFile
open AIC.PowerTable AIC.PowerTableParser Lib.CheckedBuffer Lib.StringBuffer Lib.ByteText
open Lib.LastWrite

variable {v : Version} {s₀ s : Parser} {l : List UInt8}

/-! ## One line -/

theorem command_capacity (h : Within v s₀ l s) (h₀ : AtStart v s₀) :
    s.command.capacity = commandSize v := h.commandSize.trans h₀.commandSize

theorem value_capacity (h : Within v s₀ l s) (h₀ : AtStart v s₀) :
    s.value.capacity = VALUE_SIZE := h.valueSize.trans h₀.valueSize

theorem value_cell (h : Within v s₀ l s) (h₀ : AtStart v s₀) :
    s.value.cell 0 = (kind v l).value.headD 0 := by
  have hpos : 0 < s.value.capacity := by
    rw [value_capacity h h₀]
    decide
  rw [h.value.cell 0 hpos]
  cases (kind v l).value <;> rfl

theorem command_cell (h : Within v s₀ l s) (h₀ : AtStart v s₀) :
    s.command.cell 0 = (kind v l).command.headD 0 := by
  have hpos : 0 < s.command.capacity := by
    rw [command_capacity h h₀]
    exact commandSize_pos v
  rw [h.command.cell 0 hpos]
  cases (kind v l).command <;> rfl

/-- A line that has a value has something in `command`. -/
theorem command_head (v : Version) (l : List UInt8) (h : (kind v l).value.headD 0 ≠ 0) :
    (kind v l).command.headD 0 ≠ 0 := by
  cases hk : kind v l with
  | empty => simp [hk, Kind.value] at h
  | comment text =>
    have ht : text ≠ [] := by
      rintro rfl
      simp [hk, Kind.value] at h
    simp [Kind.command, ht]
  | other text => simp [hk, Kind.value] at h
  | assign key value => exact kind_assign_head l key value hk

/-- Without a value nothing is delivered. -/
theorem deliver_empty (h : Within v s₀ l s) (h₀ : AtStart v s₀)
    (hv : (kind v l).value.headD 0 = 0) : deliver v s = s := by
  rw [deliver, if_neg]
  rw [value_cell h h₀, hv]
  exact fun hn => hn.2 rfl

theorem deliver_comment (h : Within v s₀ l s) (h₀ : AtStart v s₀) {text : List UInt8}
    (hk : kind v l = .comment text) (hv : (kind v l).value.headD 0 ≠ 0) :
    deliver v s = { s with passed := s.passed++[s.value] } := by
  have hstate : s.state = .print := by rw [h.state, hk]; rfl
  rw [deliver, if_pos ⟨by rw [command_cell h h₀]; exact command_head v l hv,
    by rw [value_cell h h₀]; exact hv⟩, hstate]

theorem deliver_assign (h : Within v s₀ l s) (h₀ : AtStart v s₀) {key value : List UInt8}
    (hk : kind v l = .assign key value) (hv : (kind v l).value.headD 0 ≠ 0) :
    deliver v s =
      { s with
        passed := s.passed++[s.command, s.value]
        config := nvramSetValue v.table (str s.command) (str s.value) s.config } := by
  have hstate : s.state = .getValue := by rw [h.state, hk]; rfl
  rw [deliver, if_pos ⟨by rw [command_cell h h₀]; exact command_head v l hv,
    by rw [value_cell h h₀]; exact hv⟩, hstate]

theorem deliver_frame (v : Version) (s : Parser) :
    (deliver v s).command = s.command ∧ (deliver v s).value = s.value := by
  unfold deliver
  split
  · split <;> exact ⟨rfl, rfl⟩
  · exact ⟨rfl, rfl⟩

/-- Behind a line the parser stands at the start of the next one. -/
theorem endLine_atStart (h : Within v s₀ l s) (h₀ : AtStart v s₀) : AtStart v (endLine v s) := by
  obtain ⟨hcommand, hvalue⟩ := deliver_frame v s
  exact ⟨Buffer.holds_clear .., Buffer.holds_clear ..,
    by rw [← h₀.commandSize, ← h.commandSize, ← hcommand]; rfl,
    by rw [← h₀.valueSize, ← h.valueSize, ← hvalue]; rfl, rfl, rfl⟩

/-- The arrays were kept if they were so before and the line fits. -/
theorem within_inside (h : Within v s₀ l s) (h₀ : AtStart v s₀) :
    s.command.Inside ∧ s.value.Inside ↔
      (s₀.command.Inside ∧ s₀.value.Inside) ∧ Fits v l := by
  rw [h.command.inside, h.value.inside, h.commandSize, h.valueSize, Fits]
  unfold Buffer.Inside
  rw [← h₀.commandSize, ← h₀.valueSize]
  tauto

theorem endLine_inside (v : Version) (s : Parser) :
    (endLine v s).command.Inside ∧ (endLine v s).value.Inside ↔
      s.command.Inside ∧ s.value.Inside := by
  obtain ⟨hcommand, hvalue⟩ := deliver_frame v s
  change ((deliver v s).command.clear 0).Inside ∧ ((deliver v s).value.clear 0).Inside ↔ _
  rw [Buffer.inside_clear, Buffer.inside_clear, hcommand, hvalue]

/-- The strings of a line that fits end in their arrays if they are passed on. -/
theorem endLine_passed (h : Within v s₀ l s) (h₀ : AtStart v s₀) (hfits : Fits v l) :
    (∀ b ∈ (endLine v s).passed, NulTerminated b) ↔
      (∀ b ∈ s₀.passed, NulTerminated b) ∧ ((kind v l).value.headD 0 ≠ 0 →
        EndsIn (commandSize v) (kind v l).command ∧ EndsIn VALUE_SIZE (kind v l).value) := by
  have hcommand : NulTerminated s.command ↔ EndsIn (commandSize v) (kind v l).command := by
    rw [← command_capacity h h₀]
    exact nulTerminated_iff h.command (by rw [command_capacity h h₀]; exact hfits.1)
  have hvalue : NulTerminated s.value ↔ EndsIn VALUE_SIZE (kind v l).value := by
    rw [← value_capacity h h₀]
    exact nulTerminated_iff h.value (by rw [value_capacity h h₀]; exact hfits.2)
  change (∀ b ∈ (deliver v s).passed, NulTerminated b) ↔ _
  by_cases hv : (kind v l).value.headD 0 = 0
  · rw [deliver_empty h h₀ hv, h.passed]
    exact ⟨fun hp => ⟨hp, fun hn => absurd hv hn⟩, And.left⟩
  · cases hk : kind v l with
    | empty => simp [hk, Kind.value] at hv
    | comment text =>
      rw [deliver_comment h h₀ hk hv, h.passed]
      have hshort : EndsIn (commandSize v) (Kind.comment text).command := by
        have htwo : 1 < commandSize v := by cases v <;> decide
        refine .inl ?_
        simp only [Kind.command]
        split
        · exact Nat.lt_trans Nat.zero_lt_one htwo
        · exact htwo
      rw [hk] at hv hvalue
      rw [List.forall_mem_append, List.forall_mem_singleton, hvalue]
      exact ⟨fun hp => ⟨hp.1, fun _ => ⟨hshort, hp.2⟩⟩, fun hp => ⟨hp.1, (hp.2 hv).2⟩⟩
    | other text => simp [hk, Kind.value] at hv
    | assign key value =>
      rw [deliver_assign h h₀ hk hv, h.passed]
      rw [hk] at hv hvalue hcommand
      rw [List.forall_mem_append, List.forall_mem_cons, List.forall_mem_singleton, hvalue,
        hcommand]
      exact ⟨fun hp => ⟨hp.1, fun _ => hp.2⟩, fun hp => ⟨hp.1, hp.2 hv⟩⟩

/-- A safe line does its assignment and nothing else. -/
theorem endLine_config (h : Within v s₀ l s) (h₀ : AtStart v s₀) (hsafe : LineSafe v l) :
    (endLine v s).config =
      applyAll (sets v.table) amount s₀.config (assignment v l).toList := by
  change (deliver v s).config = _
  by_cases hv : (kind v l).value.headD 0 = 0
  · have hnone : assignment v l = none := by
      unfold assignment
      split
      · next key value hk =>
        rw [hk] at hv
        exact if_neg (not_not.mpr hv)
      · rfl
    rw [deliver_empty h h₀ hv, hnone]
    exact h.config
  · cases hk : kind v l with
    | empty => simp [hk, Kind.value] at hv
    | comment text =>
      rw [deliver_comment h h₀ hk hv, assignment, hk]
      exact h.config
    | other text => simp [hk, Kind.value] at hv
    | assign key value =>
      obtain ⟨hfits, hends⟩ := hsafe
      have hcommand : str s.command = cString (kind v l).command := by
        have hsize := command_capacity h h₀
        exact str_eq h.command (by rw [hsize]; exact hfits.1) (by rw [hsize]; exact (hends hv).1)
      have hvalue : str s.value = cString (kind v l).value := by
        have hsize := value_capacity h h₀
        exact str_eq h.value (by rw [hsize]; exact hfits.2) (by rw [hsize]; exact (hends hv).2)
      have hsome : assignment v l = some ⟨cString key, cString value⟩ := by
        rw [hk] at hv
        simp only [assignment, hk]
        exact if_pos hv
      rw [deliver_assign h h₀ hk hv, hsome, hcommand, hvalue, hk, h.config]
      exact nvramSetValue_eq v.table ⟨cString key, cString value⟩ s₀.config

/-! ## All lines -/

def assignments (v : Version) (ls : List (List UInt8)) : List Assignment :=
  ls.filterMap (assignment v)

/-- The parser behind the lines `ls`. -/
structure Behind (v : Version) (config : UserConfig) (ls : List (List UInt8)) (s : Parser) :
    Prop where
  atStart : AtStart v s
  safe : ((s.command.Inside ∧ s.value.Inside) ∧ ∀ b ∈ s.passed, NulTerminated b) ↔
    ∀ l ∈ ls, LineSafe v l
  config : (∀ l ∈ ls, LineSafe v l) →
    s.config = applyAll (sets v.table) amount config (assignments v ls)

variable {config : UserConfig} {stack : ℕ → UInt8} {ls : List (List UInt8)}

theorem behind_start : Behind v config [] (start v config stack) where
  atStart := ⟨Buffer.holds_clear .., Buffer.holds_clear .., rfl, rfl, rfl, rfl⟩
  safe := by
    refine iff_of_true ⟨⟨?_, ?_⟩, fun b hb => absurd hb List.not_mem_nil⟩
      fun l hl => absurd hl List.not_mem_nil
    · exact Buffer.inside_clear.mpr Buffer.inside_fresh
    · exact Buffer.inside_clear.mpr Buffer.inside_fresh
  config _ := rfl

/-- One more line. -/
theorem Behind.line (h : Behind v config ls s) (hl : Open isEnd l) {c : UInt8}
    (hc : isEnd c = true) : Behind v config (ls++[l]) ((l++[c]).foldl (step v) s) := by
  have hw := h.atStart.run hl
  have hrun : (l++[c]).foldl (step v) s = endLine v (l.foldl (step v) s) := by
    rw [List.foldl_append]
    exact if_pos hc
  have hsafe : ((∀ l' ∈ ls++[l], LineSafe v l') ↔ (∀ l' ∈ ls, LineSafe v l') ∧ LineSafe v l) := by
    rw [List.forall_mem_append, List.forall_mem_singleton]
  rw [hrun]
  refine ⟨endLine_atStart hw h.atStart, ?_, fun hall => ?_⟩
  · rw [hsafe, endLine_inside, within_inside hw h.atStart, ← h.safe]
    constructor
    · rintro ⟨⟨hin, hfits⟩, hpassed⟩
      have hp := (endLine_passed hw h.atStart hfits).mp hpassed
      exact ⟨⟨hin, hp.1⟩, hfits, hp.2⟩
    · rintro ⟨⟨hin, hpassed⟩, hfits, hends⟩
      exact ⟨⟨hin, hfits⟩, (endLine_passed hw h.atStart hfits).mpr ⟨hpassed, hends⟩⟩
  · obtain ⟨hbefore, hline⟩ := hsafe.mp hall
    have happ : assignments v (ls++[l]) = assignments v ls++(assignment v l).toList := by
      rw [assignments, List.filterMap_append, assignments]
      cases hx : assignment v l <;> simp [hx]
    rw [endLine_config hw h.atStart hline, h.config hbefore, happ, applyAll_append]

/-- The lines of a file that end, and what stands behind them. -/
def linesOf (file : List UInt8) : Lines UInt8 := lines isEnd file

/-- The complete lines are safe, and the rest leaves room. -/
def FileSafe (v : Version) (file : List UInt8) : Prop :=
  (∀ l ∈ (linesOf file).complete, LineSafe v l) ∧ Fits v (linesOf file).rest

/-- A run is a run over the complete lines, and over the rest of the file. -/
theorem parse_lines (v : Version) (config : UserConfig) (stack : ℕ → UInt8)
    (file : List UInt8) : ∃ s, Behind v config (linesOf file).complete s ∧
      Within v s (linesOf file).rest (parse v config stack file) := by
  have hline : ∀ ls s l c, Behind v config ls s → Open isEnd l → isEnd c = true →
      Behind v config (ls++[l]) ((l++[c]).foldl (step v) s) := fun _ _ _ _ h hl hc => h.line hl hc
  have hstart : Behind v config [] (start v config stack) := behind_start
  obtain ⟨s, hs, hopen, hrun⟩ := foldl_lines hline file [] _ hstart
  refine ⟨s, hs, ?_⟩
  rw [parse, hrun]
  exact hs.atStart.run hopen

/-- The arrays are kept and the strings end in them just for the safe files. -/
theorem parse_safe (v : Version) (config : UserConfig) (stack : ℕ → UInt8) (file : List UInt8) :
    (((parse v config stack file).command.Inside ∧ (parse v config stack file).value.Inside) ∧
      ∀ b ∈ (parse v config stack file).passed, NulTerminated b) ↔ FileSafe v file := by
  obtain ⟨s, hs, hw⟩ := parse_lines v config stack file
  rw [within_inside hw hs.atStart, hw.passed, FileSafe, ← hs.safe]
  tauto

/-- A safe file does the assignments of its complete lines. -/
theorem parse_config (v : Version) (config : UserConfig) (stack : ℕ → UInt8)
    {file : List UInt8} (hsafe : FileSafe v file) : (parse v config stack file).config =
      applyAll (sets v.table) amount config (assignments v (linesOf file).complete) := by
  obtain ⟨s, hs, hw⟩ := parse_lines v config stack file
  rw [hw.config, hs.config hsafe.1]

/-! ## What the fields hold -/

def Short (v : Version) : Kind → Prop
  | .assign key value => key.length < commandSize v ∧ value.length < VALUE_SIZE
  | _ => True

instance (k : Kind) : Decidable (Short v k) :=
  match k with
  | .assign key value =>
    inferInstanceAs (Decidable (key.length < commandSize v ∧ value.length < VALUE_SIZE))
  | .empty | .comment _ | .other _ => isTrue trivial

/-- Every key and every value fits with the zero behind it. -/
def AssignmentsFit (v : Version) (file : List UInt8) : Prop :=
  ∀ l ∈ (linesOf file).complete++[(linesOf file).rest], Short v (kind v l)

instance (file : List UInt8) : Decidable (AssignmentsFit v file) :=
  inferInstanceAs (Decidable (∀ _ ∈ _, _))

/-- The assignments that are carried out. -/
def done (v : Version) (file : List UInt8) : List Assignment :=
  assignments v (linesOf file).complete

/-- The assignments of all lines, the one without an end included. -/
def written (v : Version) (file : List UInt8) : List Assignment :=
  done v file++(assignment v (linesOf file).rest).toList

/-- Every field holds the number of the last line that names it, and two keys set no field
together. -/
def FieldsRight (v : Version) (file : List UInt8) (before after : UserConfig) : Prop :=
  (∀ f, after f = ((last (sets v.named) f (written v file)).map amount).getD (before f)) ∧
  ∀ a ∈ done v file, ∀ b ∈ done v file, a.key ≠ b.key → ∀ f, sets v.table a f →
    ¬ sets v.table b f

/-- The parser keeps to its arrays, passes on strings that end in them, and sets the fields of
every file whose keys and values fit. -/
def ParsesRight (v : Version) (file : List UInt8) (config : UserConfig) (stack : ℕ → UInt8) :
    Prop :=
  ((parse v config stack file).command.Inside ∧ (parse v config stack file).value.Inside) ∧
  (∀ b ∈ (parse v config stack file).passed, NulTerminated b) ∧
  (AssignmentsFit v file → FieldsRight v file config (parse v config stack file).config)

/-- No line has the key whose field is another one, and a last line without its end assigns
nothing that was not assigned before. -/
def Harmless (v : Version) (file : List UInt8) : Prop :=
  (∀ a ∈ written v file, ¬ Misnamed v a.key) ∧
  ∀ u ∈ assignment v (linesOf file).rest, ∀ f ∈ fieldsOf v.named u.key,
    ∃ a ∈ last (sets v.named) f (done v file), amount a = amount u

theorem sets_named {a : Assignment} (h : ¬ Misnamed v a.key) (f : Field) :
    sets v.table a f = sets v.named a f := by
  unfold sets
  rw [fieldsOf_named h]

/-- Two optional values are the same if they are so with every default. -/
theorem eq_of_getD {x y : Option UInt8} (h : ∀ d, x.getD d = y.getD d) : x = y := by
  have hne (a : UInt8) : a+1 ≠ a := by
    intro he
    simp at he
  cases x with
  | none =>
    cases y with
    | none => rfl
    | some b => exact absurd (h (b+1)) (hne b)
  | some a =>
    cases y with
    | none => exact absurd (h (a+1)).symm (hne a)
    | some b => exact congrArg some (h 0)

/-- A key that sets another field leaves the field that it names as it was. -/
theorem misnamed_last {a : Assignment} {file : List UInt8} (ha : a ∈ written v file)
    (hmis : Misnamed v a.key) : last (sets v.table) namedField (done v file) = none ∧
      last (sets v.named) namedField (written v file) ≠ none := by
  obtain ⟨hversion, hkey⟩ := hmis
  subst hversion
  constructor
  · rw [last_eq_none]
    intro b _
    exact decide_eq_false (namedField_unset b.key)
  · intro hnone
    have hset := last_eq_none.mp hnone a ha
    have hmem : namedField ∈ fieldsOf (Version.named .parsing3) a.key := by
      rw [hkey]
      exact (fieldsOf_lowrate namedField).symm ▸ List.mem_singleton_self _
    exact absurd hmem (of_decide_eq_false hset)

theorem written_unfinished {file : List UInt8} {u : Assignment}
    (hu : assignment v (linesOf file).rest = some u) : written v file = done v file++[u] := by
  rw [written, hu]
  rfl

/-- Where the assignments set the fields that they name, the last one of a field is the same. -/
theorem last_done {file : List UInt8} (h : ∀ a ∈ written v file, ¬ Misnamed v a.key) (f : Field) :
    last (sets v.table) f (done v file) = last (sets v.named) f (done v file) :=
  last_congr fun a ha => sets_named (h a (List.mem_append_left _ ha)) f

/-- The fields are right for all old values just where the file is harmless. -/
theorem fields_right_iff (v : Version) (file : List UInt8) :
    (∀ config, FieldsRight v file config (applyAll (sets v.table) amount config (done v file))) ↔
      Harmless v file := by
  constructor
  · intro h
    have hfield (f : Field) : (last (sets v.table) f (done v file)).map amount =
        (last (sets v.named) f (written v file)).map amount := by
      refine eq_of_getD fun d => ?_
      have hd := (h fun _ => d).1 f
      rwa [applyAll_eq] at hd
    have hnamed : ∀ a ∈ written v file, ¬ Misnamed v a.key := by
      intro a ha hmis
      obtain ⟨hnone, hsome⟩ := misnamed_last ha hmis
      have hn := hfield namedField
      rw [hnone, Option.map_none] at hn
      exact hsome (Option.map_eq_none_iff.mp hn.symm)
    refine ⟨hnamed, fun u hu f hf => ?_⟩
    have hset : sets v.named u f = true := decide_eq_true hf
    have hlast : last (sets v.named) f (written v file) = some u := by
      rw [written_unfinished hu, last_append_singleton, if_pos hset]
    have hn := hfield f
    rw [hlast, last_done hnamed] at hn
    obtain ⟨a, ha, hamount⟩ := Option.map_eq_some_iff.mp hn
    exact ⟨a, ha, hamount⟩
  · rintro ⟨hnamed, hrest⟩ config
    constructor
    · intro f
      rw [applyAll_eq, last_done hnamed]
      cases hu : assignment v (linesOf file).rest with
      | none => rw [written, hu, Option.toList_none, List.append_nil]
      | some u =>
        rw [written_unfinished hu, last_append_singleton]
        split
        · next hset =>
          obtain ⟨a, ha, hamount⟩ := hrest u hu f (of_decide_eq_true hset)
          rw [Option.mem_def.mp ha]
          exact hamount
        · rfl
    · intro a ha b hb hne f hfa hfb
      have hmem {c : Assignment} (hc : c ∈ done v file) (hset : sets v.table c f = true) :
          f ∈ fieldsOf v.named c.key := by
        rw [sets_named (hnamed c (List.mem_append_left _ hc))] at hset
        exact of_decide_eq_true hset
      exact fieldsOf_disjoint (named_nodup v) hne (hmem ha hfa) (hmem hb hfb)

/-- A file is parsed right from every state and stack just where all of its lines are safe and,
if its keys and values fit, it is harmless. -/
theorem file_parsed_iff (v : Version) (file : List UInt8) :
    (∀ config stack, ParsesRight v file config stack) ↔
      FileSafe v file ∧ (AssignmentsFit v file → Harmless v file) := by
  constructor
  · intro h
    have hsafe : FileSafe v file := by
      obtain ⟨hinside, hpassed, -⟩ := h (fun _ => 0) fun _ => 0
      exact (parse_safe v _ _ file).mp ⟨hinside, hpassed⟩
    refine ⟨hsafe, fun hfit => (fields_right_iff v file).mp fun config => ?_⟩
    obtain ⟨-, -, hfields⟩ := h config fun _ => 0
    rw [parse_config v config _ hsafe] at hfields
    exact hfields hfit
  · rintro ⟨hsafe, hharmless⟩ config stack
    obtain ⟨hinside, hpassed⟩ := (parse_safe v config stack file).mpr hsafe
    refine ⟨hinside, hpassed, fun hfit => ?_⟩
    rw [parse_config v config stack hsafe]
    exact (fields_right_iff v file).mpr (hharmless hfit) config

/-- A comment of 101 bytes is written behind `value`, the last line is lost without its end, and
the low rates of the channels 10 to 13 are stored for the channels 1 to 4. -/
theorem lines_lost_and_misplaced :
    ¬ ParsesRight .parsing2 (HASH::List.replicate 101 0x78) (fun _ => 0) (fun _ => 0) ∧
    ¬ ParsesRight .parsing2 (ascii "dsss=5") (fun _ => 0) (fun _ => 0) ∧
    ¬ ParsesRight .parsing3 (lowrateKey++ascii "=5\n") (fun _ => 0) (fun _ => 0) := by
  refine ⟨fun h => ?_, fun h => ?_, fun h => ?_⟩
  · obtain ⟨⟨-, hvalue⟩, -⟩ := h
    exact absurd hvalue (by decide +kernel)
  · obtain ⟨hfield, -⟩ := h.2.2 (by decide +kernel)
    exact absurd (hfield (.txpwrLvl .dsss)) (by decide +kernel)
  · obtain ⟨hfield, -⟩ := h.2.2 (by decide +kernel)
    exact absurd (hfield namedField) (by decide +kernel)

end AIC.PowerTableFile
