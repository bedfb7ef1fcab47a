import Aic8800.ModuleConfigFields

/-!
# The file of a module configuration

What `rwnx_plat_userconfig_parsing` does with a whole file.
-/

set_option autoImplicit false

namespace AIC.ModuleConfigFile
open AIC.ModuleConfig AIC.ModuleConfigFields AIC.KeyValue AIC.PowerTableParser
open Lib.CheckedBuffer Lib.ByteText

/-! ## The loops over the bytes -/

/-- A byte of a line. -/
def inLine (c : UInt8) : Bool := !(isEnd c || c == 0)

variable {data before text ends after : List UInt8} {c : UInt8} {k buffer len size : ℕ}

theorem stops (hc : inLine c = false) : (isEnd c || c == 0) = true := by
  cases h : isEnd c || c == 0 with
  | true => rfl
  | false =>
    rw [inLine, h] at hc
    cases hc

theorem findEnd_stop (h : data[buffer]? = some c) (hc : inLine c = false) :
    findEnd data k buffer len = some (buffer, len) := by
  have hstop := stops hc
  cases k <;>
    simp only [findEnd, h, hstop, Option.bind_eq_bind, Option.bind_some, if_true, Option.pure_def]

/-- At the end of the copy `len` may still be counted up. -/
theorem findEnd_zero (h : data[buffer]? = some c) (len : ℕ) :
    ∃ len' ≥ len, findEnd data 0 buffer len = some (buffer, len') := by
  refine ⟨if isEnd c || c == 0 then len else len+1, ?_, by rw [findEnd, h]; rfl⟩
  split
  · exact Nat.le_refl _
  · exact Nat.le_succ _

/-- The pointer goes over a line as long as `len` may be counted up. -/
theorem findEnd_line (before after : List UInt8) (k n : ℕ) (htext : ∀ c ∈ text, inLine c = true)
    (hk : text.length ≤ k) : findEnd (before++(text++after)) k before.length n =
      findEnd (before++(text++after)) (k-text.length) (before.length+text.length)
        (n+text.length) := by
  induction text generalizing before k n with
  | nil => rfl
  | cons c text ih =>
    obtain ⟨hc, hrest⟩ := List.forall_mem_cons.mp htext
    have hgo : (isEnd c || c == 0) = false := by simpa [inLine] using hc
    obtain ⟨k, rfl⟩ : ∃ j, k = j+1 := ⟨k-1, by rw [List.length_cons] at hk; omega⟩
    have hat : (before++(c::text++after))[before.length]? = some c := by simp
    have hmem : before++(c::text++after) = before++[c]++(text++after) := by simp
    rw [findEnd, hat]
    simp only [Option.bind_eq_bind, Option.bind_some, hgo, Bool.false_eq_true, if_false]
    have hnext := ih (before++[c]) k (n+1) hrest (Nat.le_of_succ_le_succ hk)
    rw [List.length_append, List.length_singleton] at hnext
    rw [hmem, hnext, List.length_cons]
    congr 1 <;> omega

theorem clearEnds_stop (h : data[buffer]? = some c) (hc : isEnd c = false) :
    clearEnds data k buffer len = some (data, buffer, len) := by
  cases k <;> simp [clearEnds, h, hc]

theorem clearEnds_zero (h : data[buffer]? = some c) (len : ℕ) :
    ∃ len' ≥ len, clearEnds data 0 buffer len = some (data, buffer, len') := by
  refine ⟨if isEnd c then len+1 else len, ?_, by rw [clearEnds, h]; rfl⟩
  split
  · exact Nat.le_succ _
  · exact Nat.le_refl _

/-- The line ends are overwritten. -/
theorem clearEnds_ends (before after : List UInt8) (k n : ℕ)
    (hends : ∀ c ∈ ends, isEnd c = true) (hk : ends.length ≤ k) :
    clearEnds (before++(ends++after)) k before.length n =
      clearEnds (before++(List.replicate ends.length 0++after)) (k-ends.length)
        (before.length+ends.length) (n+ends.length) := by
  induction ends generalizing before k n with
  | nil => rfl
  | cons c ends ih =>
    obtain ⟨hc, hrest⟩ := List.forall_mem_cons.mp hends
    obtain ⟨k, rfl⟩ : ∃ j, k = j+1 := ⟨k-1, by rw [List.length_cons] at hk; omega⟩
    have hat : (before++(c::ends++after))[before.length]? = some c := by simp
    have hset : (before++(c::ends++after)).set before.length 0 =
        before++[0]++(ends++after) := by simp
    rw [clearEnds, hat]
    simp only [Option.bind_eq_bind, Option.bind_some, hc, if_true]
    have hnext := ih (before++[0]) k (n+1) hrest (Nat.le_of_succ_le_succ hk)
    rw [List.length_append, List.length_singleton] at hnext
    have hzero : before++[0]++(List.replicate ends.length 0++after) =
        before++(List.replicate (c::ends).length 0++after) := by
      simp [List.replicate_succ]
    rw [hset, hnext, List.length_cons, hzero]
    congr 1 <;> omega

/-! ## One turn -/

/-- In front of the `rest` of the file, or at the zero that ends it. -/
structure At (size : ℕ) (data : List UInt8) (buffer len : ℕ) (rest : List UInt8) : Prop where
  atEnd : rest = [] → data[buffer]? = some 0
  inFile : rest ≠ [] → ∃ before spare, data = before++(rest++[spare]) ∧
    buffer = before.length ∧ len = before.length ∧ size = before.length+rest.length

/-- The line at the pointer. -/
def lineOf (rest : List UInt8) : List UInt8 := rest.takeWhile inLine

def endsOf (rest : List UInt8) : List UInt8 := (rest.dropWhile inLine).takeWhile isEnd

/-- What is left behind the line and its ends. -/
def restOf (rest : List UInt8) : List UInt8 := (rest.dropWhile inLine).dropWhile isEnd

theorem rest_split (rest : List UInt8) : rest = lineOf rest++(endsOf rest++restOf rest) := by
  rw [endsOf, restOf, List.takeWhile_append_dropWhile, lineOf, List.takeWhile_append_dropWhile]

theorem lineOf_inLine (rest : List UInt8) : ∀ c ∈ lineOf rest, inLine c = true :=
  fun _ hc => List.mem_takeWhile_imp (p := inLine) hc

theorem endsOf_isEnd (rest : List UInt8) : ∀ c ∈ endsOf rest, isEnd c = true :=
  fun _ hc => List.mem_takeWhile_imp (p := isEnd) hc

/-- What follows a line and its ends is a zero, or another line. -/
theorem restOf_head (rest : List UInt8) : ∀ c ∈ (restOf rest).head?, isEnd c = false ∧
    (endsOf rest = [] → c = 0) := by
  intro c hc
  have hhead : ((rest.dropWhile inLine).dropWhile isEnd).head? = some c := hc
  have hend : isEnd c = false := by
    have h := List.head?_dropWhile_not isEnd (rest.dropWhile inLine)
    rw [hhead] at h
    simpa using h
  refine ⟨hend, fun hnil => ?_⟩
  have hsame : (rest.dropWhile inLine).dropWhile isEnd = rest.dropWhile inLine := by
    have hsplit := List.takeWhile_append_dropWhile (p := isEnd) (l := rest.dropWhile inLine)
    rwa [← endsOf, hnil, List.nil_append] at hsplit
  have hline : inLine c = false := by
    have h := List.head?_dropWhile_not inLine rest
    rw [← hsame, hhead] at h
    simpa using h
  have hstop := stops hline
  rw [hend, Bool.false_or] at hstop
  exact beq_iff_eq.mp hstop

variable {rest : List UInt8}

/-- The end of the line is found. -/
theorem findEnd_at (spare : UInt8) (hsize : size = before.length+rest.length) : ∃ len,
    findEnd (before++(rest++[spare])) (size-before.length) before.length before.length =
      some (before.length+(lineOf rest).length, len) ∧
    (endsOf rest++restOf rest ≠ [] → len = before.length+(lineOf rest).length) ∧
    (endsOf rest++restOf rest = [] → size ≤ len) := by
  have hsplit := rest_split rest
  have hlen := congrArg List.length hsplit
  rw [List.length_append] at hlen
  have hmem : before++(rest++[spare]) =
      before++(lineOf rest++(endsOf rest++restOf rest++[spare])) := by
    nth_rewrite 1 [hsplit]
    simp
  have hgo := findEnd_line before (endsOf rest++restOf rest++[spare]) (size-before.length)
    before.length (lineOf_inLine rest) (by omega)
  have hat : (before++(lineOf rest++(endsOf rest++restOf rest++[spare])))[before.length+
      (lineOf rest).length]? = (endsOf rest++restOf rest++[spare])[0]? := by
    rw [← List.append_assoc, ← List.length_append, List.getElem?_append_right (Nat.le_refl _),
      Nat.sub_self]
  rw [hmem, hgo]
  cases hbehind : endsOf rest++restOf rest with
  | nil =>
    rw [hbehind, List.length_nil] at hlen
    rw [hbehind] at hat
    have hk : size-before.length-(lineOf rest).length = 0 := by omega
    rw [hk]
    obtain ⟨len', hge, hrun⟩ := findEnd_zero hat (before.length+(lineOf rest).length)
    exact ⟨len', hrun, fun hn => absurd rfl hn, fun _ => by omega⟩
  | cons c t =>
    rw [hbehind] at hat
    have hdrop : rest.dropWhile inLine = c::t := by
      rw [← hbehind]
      exact List.takeWhile_append_dropWhile.symm
    have hline : inLine c = false := by
      have h := List.head?_dropWhile_not inLine rest
      rw [hdrop] at h
      simpa using h
    exact ⟨_, findEnd_stop hat hline, fun _ => rfl, fun hn => absurd hn (List.cons_ne_nil c t)⟩

/-- The copy when the ends of the line are overwritten. -/
def cleared (before rest : List UInt8) (spare : UInt8) : List UInt8 :=
  before++lineOf rest++(List.replicate (endsOf rest).length 0++(restOf rest++[spare]))

theorem clearEnds_at (spare : UInt8) (hsize : size = before.length+rest.length)
    (hlen : endsOf rest++restOf rest ≠ [] → len = before.length+(lineOf rest).length)
    (hfull : endsOf rest++restOf rest = [] → size ≤ len) : ∃ len',
    clearEnds (before++(rest++[spare])) (size-len) (before.length+(lineOf rest).length) len =
      some (cleared before rest spare,
        before.length+(lineOf rest).length+(endsOf rest).length, len') ∧
    (restOf rest ≠ [] → len' = before.length+(lineOf rest).length+(endsOf rest).length) ∧
    (restOf rest = [] → size ≤ len') := by
  have hsplit := rest_split rest
  have hcount := congrArg List.length hsplit
  simp only [List.length_append] at hcount
  have hmem : before++(rest++[spare]) =
      before++lineOf rest++(endsOf rest++(restOf rest++[spare])) := by
    nth_rewrite 1 [hsplit]
    simp
  have hat : (cleared before rest spare)[before.length+(lineOf rest).length+
      (endsOf rest).length]? = (restOf rest++[spare])[0]? := by
    have hpos : before.length+(lineOf rest).length+(endsOf rest).length =
        (before++lineOf rest++List.replicate (endsOf rest).length 0).length := by
      simp [Nat.add_assoc]
    rw [cleared, ← List.append_assoc, hpos, List.getElem?_append_right (Nat.le_refl _),
      Nat.sub_self]
  have hroom : (endsOf rest).length ≤ size-len := by
    by_cases hnil : endsOf rest++restOf rest = []
    · rw [(List.append_eq_nil_iff.mp hnil).1]
      exact Nat.zero_le _
    · rw [hlen hnil]
      omega
  have hgo := clearEnds_ends (before++lineOf rest) (restOf rest++[spare]) (size-len) len
    (endsOf_isEnd rest) hroom
  rw [List.length_append] at hgo
  rw [hmem, hgo]
  change ∃ len', clearEnds (cleared before rest spare) _ _ _ = _ ∧ _
  cases hrest : restOf rest with
  | nil =>
    rw [hrest] at hat
    have hk : size-len-(endsOf rest).length = 0 := by
      by_cases hnil : endsOf rest = []
      · have := hfull (by rw [hnil, hrest]; rfl)
        omega
      · rw [hlen (by rw [hrest, List.append_nil]; exact hnil)]
        rw [hrest, List.length_nil] at hcount
        omega
    rw [hk]
    obtain ⟨len', hge, hrun⟩ := clearEnds_zero hat (len+(endsOf rest).length)
    exact ⟨len', hrun, fun hn => absurd rfl hn, fun _ => by omega⟩
  | cons c t =>
    rw [hrest] at hat
    have hend : isEnd c = false := (restOf_head rest c (by rw [hrest]; rfl)).1
    have hl := hlen fun hn => by
      rw [hrest] at hn
      exact List.cons_ne_nil c t (List.append_eq_nil_iff.mp hn).2
    exact ⟨_, clearEnds_stop hat hend, fun _ => by rw [hl],
      fun hn => absurd hn (List.cons_ne_nil c t)⟩

/-- Behind its line the copy has a zero. -/
theorem cleared_line (before : List UInt8) {spare : UInt8}
    (hrest : restOf rest = [] → spare = 0) : ∃ beyond,
    (cleared before rest spare).drop before.length = lineOf rest++0::beyond := by
  have hdrop : (cleared before rest spare).drop before.length =
      lineOf rest++(List.replicate (endsOf rest).length 0++(restOf rest++[spare])) := by
    rw [cleared, List.append_assoc, List.drop_left]
  rw [hdrop]
  cases hends : endsOf rest with
  | cons c t => exact ⟨List.replicate t.length 0++(restOf rest++[spare]), rfl⟩
  | nil =>
    cases hr : restOf rest with
    | nil => exact ⟨[], by rw [hrest hr]; rfl⟩
    | cons c t =>
      have hzero : c = 0 := (restOf_head rest c (by rw [hr]; rfl)).2 hends
      exact ⟨t++[spare], by rw [hzero]; rfl⟩

/-- The line at the pointer ends with a zero, and behind it the file goes on. -/
theorem cutLine_at (h : At size data buffer len rest) (hne : rest ≠ []) :
    ∃ data' buffer' len' beyond, cutLine size data buffer len = some (data', buffer', len') ∧
      At size data' buffer' len' (restOf rest) ∧
      data'.drop buffer = lineOf rest++0::beyond := by
  obtain ⟨before, spare, rfl, rfl, rfl, hsize⟩ := h.inFile hne
  obtain ⟨len₁, hfind, hl, hfull⟩ := findEnd_at spare hsize
  obtain ⟨len₂, hclear, hl', hfull'⟩ := clearEnds_at spare hsize hl hfull
  have hcount := congrArg List.length (rest_split rest)
  simp only [List.length_append] at hcount
  have hpos : before.length+(lineOf rest).length+(endsOf rest).length =
      (before++lineOf rest++List.replicate (endsOf rest).length (0 : UInt8)).length := by
    simp [Nat.add_assoc]
  unfold cutLine
  simp only [hfind, hclear, Option.bind_eq_bind, Option.bind_some]
  by_cases hr : restOf rest = []
  · have hlast (g : UInt8) : cleared before rest g =
        before++lineOf rest++List.replicate (endsOf rest).length 0++[g] := by
      rw [cleared, hr, List.nil_append, ← List.append_assoc]
    have hset : (cleared before rest spare).set
        (before.length+(lineOf rest).length+(endsOf rest).length) 0 = cleared before rest 0 := by
      rw [hlast, hlast, hpos, List.set_append_right _ _ (Nat.le_refl _), Nat.sub_self]
      rfl
    have hinside : before.length+(lineOf rest).length+(endsOf rest).length <
        (cleared before rest spare).length := by
      rw [hlast, hpos]
      simp
    obtain ⟨beyond, hline⟩ := cleared_line before fun (_ : restOf rest = []) =>
      (rfl : (0 : UInt8) = 0)
    refine ⟨_, _, _, beyond, by rw [if_pos (hfull' hr), if_pos hinside, hset],
      ⟨fun _ => ?_, fun hn => absurd hr hn⟩, hline⟩
    rw [hlast, hpos, List.getElem?_append_right (Nat.le_refl _), Nat.sub_self]
    rfl
  · have hless : ¬ size ≤ len₂ := by
      have hlen : 0 < (restOf rest).length := List.length_pos_of_ne_nil hr
      rw [hl' hr]
      omega
    obtain ⟨beyond, hline⟩ := cleared_line before fun hn => (absurd hn hr : spare = 0)
    refine ⟨_, _, _, beyond, by rw [if_neg hless], ⟨fun hn => absurd hn hr, fun _ =>
      ⟨before++lineOf rest++List.replicate (endsOf rest).length 0, spare, ?_, hpos,
        (hl' hr).trans hpos, ?_⟩⟩, hline⟩
    · rw [cleared, ← List.append_assoc]
    · rw [← hpos]
      omega

/-! ## The whole file -/

/-- The lines of a file, up to its first zero. -/
def textLines (file : List UInt8) : List (List UInt8) :=
  (lines isEnd (cString file)).complete++[(lines isEnd (cString file)).rest]

/-- The lines with a key. -/
def matchesOf (keyPrefix file : List UInt8) : List Match :=
  (textLines file).filterMap (matchLine keyPrefix parseMatchTab)

variable {keyPrefix : List UInt8}

theorem matchLine_nil : matchLine keyPrefix parseMatchTab [] = none := by
  rw [matchLine, List.findSome?_eq_none_iff]
  intro r _
  rw [behindKey_short (Nat.zero_le _)]
  rfl

theorem lineOf_open (rest : List UInt8) : Open isEnd (lineOf rest) := by
  intro c hc
  have h := lineOf_inLine rest c hc
  cases he : isEnd c with
  | false => rfl
  | true =>
    rw [inLine, he] at h
    cases h

theorem lineOf_nonzero (rest : List UInt8) : 0 ∉ lineOf rest := fun h =>
  absurd (lineOf_inLine rest 0 h) (by decide)

/-- The ends of a line make no lines with a key. -/
theorem matches_ends {ends : List UInt8} (hends : ∀ c ∈ ends, isEnd c = true)
    (file : List UInt8) : matchesOf keyPrefix (ends++file) = matchesOf keyPrefix file := by
  induction ends with
  | nil => rfl
  | cons c ends ih =>
    obtain ⟨hc, hrest⟩ := List.forall_mem_cons.mp hends
    have hnonzero : c ≠ 0 := by
      rintro rfl
      cases hc
    have hstring : cString (c::ends++file) = c::cString (ends++file) :=
      List.takeWhile_cons_of_pos (by simpa using hnonzero)
    have hlines := lines_line (l := []) (fun _ h => absurd h List.not_mem_nil) hc
      (cString (ends++file))
    rw [List.nil_append] at hlines
    rw [← ih hrest, matchesOf, textLines, hstring, hlines, matchesOf, textLines, List.cons_append,
      List.filterMap_cons, matchLine_nil]

/-- At a zero the file has no more lines. -/
theorem matches_end (h : ∀ c ∈ rest.head?, c = 0) : matchesOf keyPrefix rest = [] := by
  have hstring : cString rest = [] := by
    cases rest with
    | nil => rfl
    | cons c t =>
      rw [h c rfl]
      rfl
  rw [matchesOf, textLines, hstring]
  simp [lines, matchLine_nil]

/-- The lines with a key are the first one, if it has one, and those behind it. -/
theorem matches_split (rest : List UInt8) :
    matchesOf keyPrefix rest = (matchLine keyPrefix parseMatchTab (lineOf rest)).toList++
      matchesOf keyPrefix (restOf rest) := by
  have hsplit := rest_split rest
  have hstring : cString rest = lineOf rest++cString (endsOf rest++restOf rest) := by
    have hall : ∀ x ∈ lineOf rest, (x != 0) = true := fun x hx => by
      simpa using fun e : x = 0 => lineOf_nonzero rest (e ▸ hx)
    conv_lhs => rw [hsplit]
    exact List.takeWhile_append_of_pos hall
  have hfirst (ls : List (List UInt8)) :
      (lineOf rest::ls).filterMap (matchLine keyPrefix parseMatchTab) =
        (matchLine keyPrefix parseMatchTab (lineOf rest)).toList++
          ls.filterMap (matchLine keyPrefix parseMatchTab) := by
    rw [List.filterMap_cons]
    cases matchLine keyPrefix parseMatchTab (lineOf rest) <;> rfl
  have hends := endsOf_isEnd rest
  cases he : endsOf rest with
  | nil =>
    have hnone : cString (restOf rest) = [] := by
      cases hr : restOf rest with
      | nil => rfl
      | cons c t =>
        have hzero : c = 0 := (restOf_head rest c (by rw [hr]; rfl)).2 he
        rw [hzero]
        rfl
    have hrest : matchesOf keyPrefix (restOf rest) = [] :=
      matches_end fun c hc => (restOf_head rest c hc).2 he
    rw [hrest, matchesOf, textLines, hstring, he, List.nil_append, hnone, List.append_nil,
      lines_open (lineOf_open rest), List.nil_append, hfirst]
    rfl
  | cons c t =>
    rw [he] at hends hstring
    obtain ⟨hc, ht⟩ := List.forall_mem_cons.mp hends
    have hnonzero : c ≠ 0 := by
      rintro rfl
      cases hc
    have hcons : cString (c::t++restOf rest) = c::cString (t++restOf rest) :=
      List.takeWhile_cons_of_pos (by simpa using hnonzero)
    rw [matchesOf, textLines, hstring, hcons, lines_line (lineOf_open rest) hc, List.cons_append,
      hfirst, ← matches_ends ht]
    rfl

/-- The keys of the table fit into `keyname`. -/
theorem keysFit (vendorInfo : UInt8) : KeysFit (parseKeyPrefix vendorInfo) parseMatchTab := by
  unfold parseKeyPrefix
  split
  · decide +kernel
  · split <;> decide +kernel

variable (kstrtol : List UInt8 → Option UInt32)

/-- One turn looks up one line. -/
theorem turn_at {s : Parsing} (h : At size s.data s.buffer s.len rest) (hne : rest ≠ [])
    (hfit : KeysFit keyPrefix parseMatchTab) (hs : Sized s.config) :
    ∃ s', turn kstrtol keyPrefix size s = some s' ∧
      At size s'.data s'.buffer s'.len (restOf rest) ∧ Sized s'.config ∧
      Follows kstrtol (matchLine keyPrefix parseMatchTab (lineOf rest)).toList s.config
        s'.config := by
  obtain ⟨data, buffer, len, beyond, hcut, hat, hline⟩ := cutLine_at h hne
  obtain ⟨config, hrun, hsized, hfollows⟩ :=
    matchKeys_follows (lineOf_nonzero rest) (lineOf_open rest) beyond hfit hs
  refine ⟨⟨data, buffer, len, config⟩, ?_, hat, hsized, hfollows⟩
  simp only [turn, hcut, hline, hrun, Option.bind_eq_bind, Option.bind_some, Option.pure_def]

theorem restOf_length {c : UInt8} {t : List UInt8} (hc : c ≠ 0) :
    (restOf (c::t)).length < (c::t).length := by
  have hcount := congrArg List.length (rest_split (c::t))
  simp only [List.length_append] at hcount
  cases hline : inLine c with
  | true =>
    have hl : lineOf (c::t) = c::t.takeWhile inLine := List.takeWhile_cons_of_pos hline
    have hpos : 0 < (lineOf (c::t)).length := by
      rw [hl]
      exact Nat.succ_pos _
    omega
  | false =>
    have hstop := stops hline
    have hend : isEnd c = true := by simpa [hc] using hstop
    have he : endsOf (c::t) = c::t.takeWhile isEnd := by
      rw [endsOf, List.dropWhile_cons_of_neg (by simp [hline]), List.takeWhile_cons_of_pos hend]
    have hpos : 0 < (endsOf (c::t)).length := by
      rw [he]
      exact Nat.succ_pos _
    omega

/-- The loop comes to the end of the file, and has looked up every line. -/
theorem parseLines_at (hfit : KeysFit keyPrefix parseMatchTab) {fuel : ℕ} {s : Parsing}
    (h : At size s.data s.buffer s.len rest) (hs : Sized s.config) (hfuel : rest.length < fuel) :
    ∃ s', parseLines kstrtol keyPrefix size fuel s = some s' ∧
      Follows kstrtol (matchesOf keyPrefix rest) s.config s'.config := by
  induction fuel generalizing rest s with
  | zero => exact absurd hfuel (Nat.not_lt_zero _)
  | succ fuel ih =>
    have hstop (hat : s.data[s.buffer]? = some 0) (hend : ∀ c ∈ rest.head?, c = 0) :
        ∃ s', parseLines kstrtol keyPrefix size (fuel+1) s = some s' ∧
          Follows kstrtol (matchesOf keyPrefix rest) s.config s'.config := by
      refine ⟨s, ?_, ?_⟩
      · simp only [parseLines, hat, Option.bind_eq_bind, Option.bind_some, if_true,
          Option.pure_def]
      · rw [matches_end hend]
        exact fun more => Iff.rfl
    cases rest with
    | nil => exact hstop (h.atEnd rfl) fun c hc => by cases hc
    | cons c t =>
      obtain ⟨before, spare, hdata, hbuffer, -, -⟩ := h.inFile (List.cons_ne_nil c t)
      have hat : s.data[s.buffer]? = some c := by
        rw [hdata, hbuffer, List.getElem?_append_right (Nat.le_refl _), Nat.sub_self]
        rfl
      by_cases hc : c = 0
      · subst hc
        exact hstop hat fun c hc => (Option.some.inj hc).symm
      · obtain ⟨s₁, hturn, hat₁, hs₁, hfollows⟩ := turn_at kstrtol h (List.cons_ne_nil c t) hfit hs
        have hless := restOf_length (t := t) hc
        obtain ⟨s', hrun, hrest⟩ := ih hat₁ hs₁ (by omega)
        refine ⟨s', ?_, ?_⟩
        · simp only [parseLines, hat, Option.bind_eq_bind, Option.bind_some, if_neg hc, hturn, hrun]
        · rw [matches_split]
          exact hfollows.trans hrest

/-! ## The function -/

/-- The variables before the loop, with whatever stands on the stack. -/
structure Before where
  conf : ℕ → UInt8
  keyname : ℕ → UInt8
  val : UInt32
  nvram : ℕ → UInt8

def Before.config (b : Before) : Config where
  conf := .fresh CONF_SIZE b.conf
  keyname := .fresh KEYNAME_SIZE b.keyname
  val := b.val
  nvram := .fresh NVRAM_SIZE b.nvram
  stored := []

/-- The function ends without a look outside the copy of the file, and everything it did was
right. -/
def ParsesRight (vendorInfo : UInt8) (file : List UInt8) (spare : Option UInt8) (b : Before) :
    Prop :=
  ∃ o, userconfigParsing kstrtol vendorInfo file spare b.config = some o ∧ Good kstrtol o.config

theorem sized_config (b : Before) : Sized b.config := ⟨rfl, rfl, rfl⟩

theorem good_config (b : Before) : Good kstrtol b.config :=
  ⟨Buffer.inside_fresh, Buffer.inside_fresh, Buffer.inside_fresh,
    fun _ h => absurd h List.not_mem_nil⟩

/-- A file is parsed right just where every line with a key is quiet when it is met. -/
theorem config_parsed_iff (vendorInfo : UInt8) (file : List UInt8) (spare : Option UInt8)
    (b : Before) :
    ParsesRight kstrtol vendorInfo file spare b ↔ (spare.isSome → Quiet kstrtol
      (matchesOf (parseKeyPrefix (usedVendor vendorInfo)) file) b.val b.nvram) := by
  by_cases hfile : file = []
  · have hrun : userconfigParsing kstrtol vendorInfo file spare b.config =
        some ⟨vendorInfo, b.config⟩ := if_pos hfile
    have hnone : matchesOf (parseKeyPrefix (usedVendor vendorInfo)) file = [] :=
      matches_end (hfile ▸ fun c hc => by cases hc)
    rw [hnone]
    exact iff_of_true ⟨_, hrun, good_config kstrtol b⟩ fun _ => trivial
  · cases spare with
    | none =>
      have hrun : userconfigParsing kstrtol vendorInfo file none b.config =
          some ⟨usedVendor vendorInfo, b.config⟩ := if_neg hfile
      exact iff_of_true ⟨_, hrun, good_config kstrtol b⟩ fun h => by cases h
    | some g =>
      have hat : At file.length (file++[g]) 0 0 file :=
        ⟨fun hn => absurd hn hfile, fun _ => ⟨[], g, rfl, rfl, rfl, (Nat.zero_add _).symm⟩⟩
      obtain ⟨s', hparse, hfollows⟩ := parseLines_at kstrtol (s := ⟨file++[g], 0, 0, b.config⟩)
        (keysFit (usedVendor vendorInfo)) hat (sized_config b) (Nat.lt_succ_self _)
      have hrun : userconfigParsing kstrtol vendorInfo file (some g) b.config =
          some ⟨usedVendor vendorInfo, s'.config⟩ := by
        rw [userconfigParsing, if_neg hfile]
        simp only [hparse, Option.bind_eq_bind, Option.bind_some, Option.pure_def]
      have hgood := hfollows.good
      rw [and_iff_right (good_config kstrtol b)] at hgood
      constructor
      · rintro ⟨o, ho, hright⟩ -
        rw [hrun] at ho
        cases ho
        exact hgood.mp hright
      · intro hquiet
        exact ⟨_, hrun, hgood.mpr (hquiet rfl)⟩

/-- The variables before the loop, with `nvram_info` as it is initialised. -/
def atStart : Before where
  conf _ := 0
  keyname _ := 0
  val := 0
  nvram i := [1, 9, 8, 8, 8, 8, 11, 10, 9, 9, 1, 0, 0, 0, 0, 0, 0, 0, 0, 24, 31].getD i 0

/-- What `kstrtol` gives for one digit. -/
def oneDigit : List UInt8 → Option UInt32
  | [c] => if 48 ≤ c ∧ c ≤ 57 then some (c.toUInt32-48) else none
  | _ => none

/-- The level of one rate clears those of the next three, the last field is written beyond
`nvram_info`, and the pointer leaves a value of blanks. -/
theorem neighbours_lost :
    ¬ ParsesRight oneDigit 0x01 (ascii "module0_dsss=7\n") (some 0) atStart ∧
    ¬ ParsesRight oneDigit 0x01 (ascii "module0_xtal_cap_fine=7\n") (some 0) atStart ∧
    ¬ ParsesRight oneDigit 0x01 (ascii "module0_dsss= \n") (some 0) atStart := by
  refine ⟨?_, ?_, ?_⟩
  · rintro ⟨o, ho, hgood⟩
    have hrun : (userconfigParsing oneDigit 0x01 (ascii "module0_dsss=7\n") (some 0)
        atStart.config).map (fun o => o.config.stored.map fun w =>
          (w.offset, w.before 2, w.after 2)) = some [(1, 8, 0)] := by decide +kernel
    rw [ho] at hrun
    obtain ⟨w, hw, hfields⟩ := List.mem_map.mp
      ((Option.some.inj hrun).symm ▸ List.mem_singleton_self ((1 : ℕ), (8 : UInt8), (0 : UInt8)))
    simp only [Prod.mk.injEq] at hfields
    obtain ⟨hoffset, hbefore, hafter⟩ := hfields
    have hsame := (hgood.stored w hw).others 2 (by decide) (by rw [hoffset]; decide)
    rw [hbefore, hafter] at hsame
    exact absurd hsame (by decide)
  · rintro ⟨o, ho, hgood⟩
    have hrun : (userconfigParsing oneDigit 0x01 (ascii "module0_xtal_cap_fine=7\n") (some 0)
        atStart.config).map (fun o => decide o.config.nvram.Inside) = some false := by
      decide +kernel
    rw [ho] at hrun
    exact absurd hgood.nvram (of_decide_eq_false (Option.some.inj hrun))
  · rintro ⟨o, ho, hgood⟩
    have hrun : (userconfigParsing oneDigit 0x01 (ascii "module0_dsss= \n") (some 0)
        atStart.config).map (fun o => decide o.config.conf.Inside) = some false := by
      decide +kernel
    rw [ho] at hrun
    exact absurd hgood.conf (of_decide_eq_false (Option.some.inj hrun))

end AIC.ModuleConfigFile
