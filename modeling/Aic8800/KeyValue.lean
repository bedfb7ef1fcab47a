import Aic8800.Lib.PointerScan
import Aic8800.PowerTableParser
import Mathlib.Algebra.Group.Int.Defs

/-!
# The value of a key

`parse_key_val` looks for a key at the start of a line and copies what is assigned to it.
-/

set_option autoImplicit false

namespace AIC.KeyValue
open AIC.PowerTableParser Lib.CheckedBuffer Lib.StringBuffer Lib.ByteText Lib.PointerScan
open Lib.FlatMemory

def isBlank (c : UInt8) : Bool := c == 0x20
def QUOTE : UInt8 := 0x22

/-- `str` is the memory from the line on, and a key that is not found gives no position. There is
no result at all where another memory is looked at. -/
def findValue (str key : List UInt8) : Option (Option ℕ) := do
  let bufsize ← scan str (· != 0) 0
  if bufsize ≤ key.length then
    return none
  let p ← scan str isBlank 0
  if (← str[p]?) = HASH then
    return none
  if bufsize-p ≤ key.length then
    return none
  if (str.drop p).take key.length ≠ key then
    return none
  let p ← scan str isBlank (p+key.length)
  if (← str[p]?) ≠ EQUALS then
    return none
  let p ← scan str isBlank (p+1)
  return some (if (← str[p]?) = QUOTE then p+1 else p)

/-- Where the pointer is at last when it comes back from the end of the value. -/
def findLast (str : List UInt8) (dst : ℕ) : Option ℕ := do
  let p ← scan str (· != 0) dst
  let p ← back str isBlank (← pred p)
  let p ← if (← str[p]?) = QUOTE then pred p else some p
  back str isEnd p

/-- A pointer difference as a `size_t`. -/
def toSize (d : ℤ) : ℕ := if d < 0 then (d+2^32).toNat else d.toNat

/-- `strncpy` from `dst` up to `last`, and the zero behind. -/
def copyValue (str : List UInt8) (dst last : ℕ) (val : Buffer UInt8) : Buffer UInt8 :=
  let n := toSize ((last : ℤ)+1-dst)
  (val.copyAt 0 0 n fun i => (cString (str.drop dst)).getD i 0).put n 0

/-- What `parse_key_val` did with a key that it found. -/
structure Value where
  dst : ℕ
  last : ℕ
  val : Buffer UInt8

def parseKeyVal (str key : List UInt8) (val : Buffer UInt8) : Option (Option Value) := do
  match ← findValue str key with
  | none => return none
  | some dst =>
    let last ← findLast str dst
    return some ⟨dst, last, copyValue str dst last val⟩

/-! ## What a line says -/

/-- The text behind the `=` of a line that assigns to the key. -/
def behindKey (key line : List UInt8) : Option (List UInt8) :=
  let l := line.dropWhile isBlank
  if l.head? = some HASH ∨ l.take key.length ≠ key then none
  else
    match (l.drop key.length).dropWhile isBlank with
    | [] => none
    | c::text => if c = EQUALS then some text else none

def unquoteFirst : List UInt8 → List UInt8
  | [] => []
  | c::l => if c = QUOTE then l else c::l

def unquoteLast (l : List UInt8) : List UInt8 :=
  if l.getLast? = some QUOTE then l.dropLast else l

/-- A text without the blanks around it, and then without a quote at each end. -/
def trimmed (text : List UInt8) : List UInt8 :=
  unquoteLast (unquoteFirst ((text.dropWhile isBlank).rdropWhile isBlank))

/-- `a = " 5" ` -/
example : (behindKey [0x61] [0x61, 0x20, 0x3d, 0x20, 0x22, 0x20, 0x35, 0x22, 0x20]).map trimmed =
    some [0x20, 0x35] := by decide

/-- What the pointer has in front of it when it comes to the value. -/
def opening (text : List UInt8) : List UInt8 := unquoteFirst (text.dropWhile isBlank)

/-! ## What the loops find -/

variable {key line beyond text : List UInt8}

theorem blank_split (l : List UInt8) : l = l.takeWhile isBlank++l.dropWhile isBlank :=
  List.takeWhile_append_dropWhile.symm

/-- What the pointer meets behind `a`. -/
theorem at_pointer (a l beyond : List UInt8) :
    (a++(l++0::beyond))[a.length]? = some (l.headD 0) := by
  cases l <;> simp

theorem takeWhile_string (h0 : 0 ∉ line) : line.takeWhile (· != 0) = line :=
  List.takeWhile_eq_self_iff.mpr fun x hx => by
    simpa using fun e : x = 0 => h0 (e ▸ hx)

/-- A key as long as the line assigns nothing. -/
theorem behindKey_short (h : (line.dropWhile isBlank).length ≤ key.length) :
    behindKey key line = none := by
  simp only [behindKey]
  rw [List.drop_eq_nil_of_le h]
  split
  · rfl
  · rfl

/-- A line that assigns to a key is the key, blanks, the `=` and a text, behind blanks. -/
theorem behindKey_eq_some (h : behindKey key line = some text) : ∃ b,
    line = line.takeWhile isBlank++key++b++EQUALS::text ∧ (∀ c ∈ b, isBlank c = true) := by
  simp only [behindKey] at h
  split at h
  · cases h
  · next hne =>
    rw [not_or, not_not] at hne
    split at h
    · cases h
    · next c t ht =>
      split at h
      · next hc =>
        obtain rfl := Option.some.inj h
        subst hc
        refine ⟨((line.dropWhile isBlank).drop key.length).takeWhile isBlank, ?_, fun c hc =>
          List.mem_takeWhile_imp (p := isBlank) hc⟩
        have hl : line.dropWhile isBlank =
            key++((line.dropWhile isBlank).drop key.length).takeWhile isBlank++EQUALS::t := by
          rw [← ht, List.append_assoc, List.takeWhile_append_dropWhile]
          exact (hne.2 ▸ List.take_append_drop key.length _).symm
        rw [List.append_assoc, List.append_assoc, ← List.append_assoc key, ← hl]
        exact blank_split line
      · cases h

theorem unquoteFirst_suffix (l : List UInt8) : unquoteFirst l <:+ l := by
  cases l with
  | nil => exact List.suffix_refl _
  | cons c l =>
    simp only [unquoteFirst]
    split
    · exact List.suffix_cons c l
    · exact List.suffix_refl _

/-- What the pointer has in front of it is the end of what stands behind the `=`. -/
theorem opening_suffix (text : List UInt8) : opening text <:+ text :=
  (unquoteFirst_suffix _).trans (List.dropWhile_suffix isBlank)

theorem unquoteFirst_length (l : List UInt8) :
    l.length-(unquoteFirst l).length = if l.headD 0 = QUOTE then 1 else 0 := by
  cases l with
  | nil => rfl
  | cons c l =>
    by_cases hc : c = QUOTE <;> simp [unquoteFirst, hc]

/-- Behind the `=` the pointer goes to the start of the value. -/
theorem open_value (a text beyond : List UInt8) :
    (do
      let p ← scan (a++(text++0::beyond)) isBlank a.length
      return some (if (← (a++(text++0::beyond))[p]?) = QUOTE then p+1 else p)) =
    some (some (a.length+text.length-(opening text).length)) := by
  have hsplit := blank_split text
  have hlen : text.length = (text.takeWhile isBlank).length+(text.dropWhile isBlank).length := by
    rw [← List.length_append, ← hsplit]
  have hmem : a++(text++0::beyond) =
      (a++text.takeWhile isBlank)++(text.dropWhile isBlank++0::beyond) := by
    rw [List.append_assoc, ← List.append_assoc (text.takeWhile isBlank), ← hsplit]
  rw [scan_eq a text beyond rfl]
  have hat := at_pointer (a++text.takeWhile isBlank) (text.dropWhile isBlank) beyond
  rw [← hmem, List.length_append] at hat
  have hquote := unquoteFirst_length (text.dropWhile isBlank)
  have hle := (unquoteFirst_suffix (text.dropWhile isBlank)).length_le
  have hpos : (if (text.dropWhile isBlank).headD 0 = QUOTE then
        a.length+(text.takeWhile isBlank).length+1 else a.length+(text.takeWhile isBlank).length) =
      a.length+text.length-(opening text).length := by
    unfold opening
    split
    · next hq =>
      rw [if_pos hq] at hquote
      omega
    · next hq =>
      rw [if_neg hq] at hquote
      omega
  simp only [Option.bind_eq_bind, Option.bind_some, hat, Option.pure_def, hpos]

/-- Behind a key the pointer goes to the value, if nothing but blanks stands before the `=`. -/
theorem open_key (a r beyond : List UInt8) :
    (do
      let p ← scan (a++(r++0::beyond)) isBlank a.length
      if (← (a++(r++0::beyond))[p]?) ≠ EQUALS then
        return none
      let p ← scan (a++(r++0::beyond)) isBlank (p+1)
      return some (if (← (a++(r++0::beyond))[p]?) = QUOTE then p+1 else p)) =
    some ((match r.dropWhile isBlank with
      | [] => none
      | c::text => if c = EQUALS then some text else none).map fun text =>
        a.length+r.length-(opening text).length) := by
  have hat := at_pointer (a++r.takeWhile isBlank) (r.dropWhile isBlank) beyond
  rw [List.length_append, List.append_assoc, ← List.append_assoc (r.takeWhile isBlank),
    ← blank_split] at hat
  rw [scan_eq a r beyond rfl]
  simp only [Option.bind_eq_bind, Option.bind_some, hat, Option.pure_def]
  cases ht : r.dropWhile isBlank with
  | nil =>
    have hz : (0 : UInt8) ≠ EQUALS := by decide
    rw [List.headD_nil, if_pos hz]
    rfl
  | cons c t =>
    rw [List.headD_cons]
    by_cases hc : c = EQUALS
    · subst hc
      have hvalue := open_value (a++r.takeWhile isBlank++[EQUALS]) t beyond
      have hrt : r = r.takeWhile isBlank++EQUALS::t := by rw [← ht, ← blank_split]
      have hline : a++r.takeWhile isBlank++[EQUALS]++(t++0::beyond) = a++(r++0::beyond) := by
        nth_rewrite 2 [hrt]
        simp
      have hcount : a.length+r.length =
          (a++r.takeWhile isBlank++[EQUALS]).length+t.length := by
        nth_rewrite 1 [hrt]
        simp
        omega
      rw [hline, ← hcount] at hvalue
      rw [if_neg (not_not.mpr rfl)]
      simp only [Option.bind_eq_bind, Option.pure_def, List.length_append, List.length_singleton,
        if_pos, Option.map_some] at hvalue ⊢
      exact hvalue
    · simp only [if_pos hc, if_neg hc]
      rfl

/-- The position of the value is that of the text behind its blanks and its first quote. -/
theorem findValue_eq (h0 : 0 ∉ line) : findValue (line++0::beyond) key =
    some ((behindKey key line).map fun text => line.length-(opening text).length) := by
  obtain ⟨w, l, rfl, hw, hl⟩ : ∃ w l, line = w++l ∧ line.takeWhile isBlank = w ∧
      line.dropWhile isBlank = l := ⟨_, _, blank_split line, rfl, rfl⟩
  have hlen : scan (w++l++0::beyond) (· != 0) 0 = some (w++l).length := by
    have h := scan_eq [] (w++l) beyond (c := (· != 0)) (z := 0) rfl
    rwa [takeWhile_string h0, List.length_nil, Nat.zero_add] at h
  have hblank : scan (w++l++0::beyond) isBlank 0 = some w.length := by
    have h := scan_eq [] (w++l) beyond (c := isBlank) (z := 0) rfl
    rwa [hw, List.length_nil, Nat.zero_add] at h
  have hhead : (w++l++0::beyond)[w.length]? = some (l.headD 0) := by
    rw [List.append_assoc]
    exact at_pointer w l beyond
  have hdrop : (w++l++0::beyond).drop w.length = l++0::beyond := by
    rw [List.append_assoc, List.drop_left]
  have hsub : (w++l).length-w.length = l.length := by simp
  unfold findValue
  simp only [hlen, hblank, hhead, hdrop, hsub, Option.bind_eq_bind, Option.bind_some,
    Option.pure_def]
  by_cases hshort : (w++l).length ≤ key.length
  · have hk : (l.length ≤ key.length) := by
      rw [List.length_append] at hshort
      omega
    rw [if_pos hshort, behindKey_short (by rwa [hl])]
    rfl
  by_cases hhash : l.headD 0 = HASH
  · have hh : l.head? = some HASH := by
      cases l with
      | nil => exact absurd hhash (by decide)
      | cons c l => exact congrArg some hhash
    rw [if_neg hshort, if_pos hhash, behindKey, hl, if_pos (.inl hh)]
    rfl
  by_cases hrest : l.length ≤ key.length
  · rw [if_neg hshort, if_neg hhash, if_pos hrest, behindKey_short (by rwa [hl])]
    rfl
  have hhead' : l.head? ≠ some HASH := by
    intro hh
    cases l with
    | nil => cases hh
    | cons c l => exact hhash (Option.some.inj hh)
  have htake : (l++0::beyond).take key.length = l.take key.length :=
    List.take_append_of_le_length (Nat.le_of_lt (Nat.lt_of_not_le hrest))
  rw [if_neg hshort, if_neg hhash, if_neg hrest, htake]
  by_cases hkey : l.take key.length = key
  swap
  · rw [if_pos hkey, behindKey, hl, if_pos (.inr hkey)]
    rfl
  rw [if_neg (not_not.mpr hkey), behindKey, hl, if_neg (not_or.mpr ⟨hhead', not_not.mpr hkey⟩)]
  -- `r` stands behind the key
  obtain ⟨r, hr⟩ : ∃ r, l.drop key.length = r := ⟨_, rfl⟩
  have hlr : l = key++r := by rw [← hr, ← List.take_append_drop key.length l, hkey]; simp
  have hmem : w++l++0::beyond = (w++key)++(r++0::beyond) := by
    rw [hlr]
    simp
  have hcount : (w++l).length = (w++key).length+r.length := by
    rw [hlr]
    simp [Nat.add_assoc]
  have hopen := open_key (w++key) r beyond
  have hkeyEnd : (w++key).length = w.length+key.length := List.length_append
  rw [← hmem, ← hcount, hkeyEnd] at hopen
  rw [hr]
  exact hopen

/-! ## The end of the value -/

/-- What is left in front of the pointer when it has come back. -/
def trimEnd (line : List UInt8) : List UInt8 :=
  (unquoteLast (line.rdropWhile isBlank)).rdropWhile isEnd

theorem unquoteLast_start (l : List UInt8) : unquoteLast l <+: l := by
  unfold unquoteLast
  split
  · exact List.dropLast_prefix l
  · exact List.prefix_refl l

theorem mem_unquoteLast {l : List UInt8} {x : UInt8} (h : x ∈ l) (hx : x ≠ QUOTE) :
    x ∈ unquoteLast l := by
  unfold unquoteLast
  split
  · next hq =>
    have hl : l ≠ [] := List.ne_nil_of_mem h
    rw [← List.dropLast_append_getLast hl, List.mem_append, List.mem_singleton] at h
    refine h.resolve_right fun he => hx ?_
    rw [List.getLast?_eq_some_getLast hl] at hq
    exact he.trans (Option.some.inj hq)
  · exact h

/-- The `=` holds the pointer. -/
theorem equals_mem_trimEnd (h : EQUALS ∈ line) : EQUALS ∈ trimEnd line :=
  mem_rdropWhile (mem_unquoteLast (mem_rdropWhile h rfl) (by decide)) rfl

/-- The pointer meets the last byte of what is left. -/
theorem at_last {l m : List UInt8} (hl : l ≠ []) (h : l <+: m) :
    m[l.length-1]? = some (l.getLast hl) := by
  obtain ⟨t, rfl⟩ := h
  have hpos : l.length-1 < l.length := Nat.sub_lt (List.length_pos_of_ne_nil hl) Nat.one_pos
  rw [List.getElem?_append_left hpos, List.getElem?_eq_getElem hpos, List.getLast_eq_getElem]

theorem back_start {c : UInt8 → Bool} {l m : List UInt8} (hl : l.rdropWhile c ≠ [])
    (h : l <+: m) : back m c (l.length-1) = some ((l.rdropWhile c).length-1) := by
  obtain ⟨t, rfl⟩ := h
  exact back_eq t hl

theorem findLast_eq {dst : ℕ} (h : EQUALS ∈ line) (h0 : 0 ∉ line) (hdst : dst ≤ line.length) :
    findLast (line++0::beyond) dst = some ((trimEnd line).length-1) := by
  have hend : scan (line++0::beyond) (· != 0) dst = some line.length := by
    have hdrop : 0 ∉ line.drop dst := fun hm => h0 (List.mem_of_mem_drop hm)
    have hs := scan_eq (line.take dst) (line.drop dst) beyond (c := (· != 0)) (z := 0) rfl
    rw [takeWhile_string hdrop, ← List.append_assoc, List.take_append_drop, List.length_take,
      List.length_drop] at hs
    have h1 : min dst line.length = dst := Nat.min_eq_left hdst
    have h2 : dst+(line.length-dst) = line.length := by omega
    rwa [h1, h2] at hs
  have hpos : 0 < line.length := List.length_pos_of_mem h
  have hblank := mem_rdropWhile (c := isBlank) h rfl
  have hne := List.ne_nil_of_mem hblank
  have hwhole : line <+: line++0::beyond := List.prefix_append line _
  have hleft : line.rdropWhile isBlank <+: line++0::beyond :=
    ( List.rdropWhile_prefix isBlank line).trans hwhole
  unfold findLast
  simp only [hend, pred_pos hpos, back_start hne hwhole, at_last hne hleft, Option.bind_eq_bind,
    Option.bind_some]
  have hunquoted := mem_unquoteLast hblank (by decide)
  have hstop := back_start (List.ne_nil_of_mem (mem_rdropWhile (c := isEnd) hunquoted rfl))
    ((unquoteLast_start _).trans hleft)
  have hlast := List.getLast?_eq_some_getLast hne
  split
  · next hq =>
    have hdrop : unquoteLast (line.rdropWhile isBlank) = (line.rdropWhile isBlank).dropLast :=
      if_pos (by rw [hlast, hq])
    rw [hdrop] at hunquoted
    have hlong : 0 < (line.rdropWhile isBlank).length-1 := by
      rw [← List.length_dropLast]
      exact List.length_pos_of_mem hunquoted
    rw [pred_pos hlong, Option.bind_some, ← List.length_dropLast, ← hdrop]
    exact hstop
  · next hq =>
    have hkeep : unquoteLast (line.rdropWhile isBlank) = line.rdropWhile isBlank :=
      if_neg fun he => hq (Option.some.inj (hlast ▸ he))
    rw [hkeep] at hstop
    rw [hstop, trimEnd, hkeep]

/-- The first quote may be taken away before the blanks at the end or after them. -/
theorem unquoteFirst_rdropWhile {l : List UInt8} (h : ∀ c ∈ l.head?, isBlank c = false) :
    unquoteFirst (l.rdropWhile isBlank) = (unquoteFirst l).rdropWhile isBlank := by
  cases l with
  | nil => rfl
  | cons c l =>
    have hc : isBlank c = false := h c rfl
    rw [rdropWhile_cons hc, unquoteFirst, unquoteFirst]
    split
    · rfl
    · rw [rdropWhile_cons hc]

theorem trimmed_eq (text : List UInt8) :
    trimmed text = unquoteLast ((opening text).rdropWhile isBlank) := by
  rw [trimmed, opening, unquoteFirst_rdropWhile]
  intro c hc
  have h := List.head?_dropWhile_not isBlank text
  rw [Option.mem_def.mp hc] at h
  simpa using h

theorem unquoteLast_append {a l : List UInt8} (h : l ≠ []) :
    unquoteLast (a++l) = a++unquoteLast l := by
  unfold unquoteLast
  rw [List.getLast?_append_of_ne_nil a h, List.dropLast_append_of_ne_nil h]
  split <;> rfl

/-- A line without a line end is cut to the value if that is not empty, and before it otherwise. -/
theorem trimEnd_append {a l : List UInt8} (hopen : Open isEnd (a++l)) :
    trimEnd (a++l) = a++unquoteLast (l.rdropWhile isBlank) ∨
      unquoteLast (l.rdropWhile isBlank) = [] ∧ (trimEnd (a++l)).length ≤ a.length := by
  unfold trimEnd
  by_cases hl : l.rdropWhile isBlank = []
  · refine .inr ⟨by rw [hl]; rfl, ?_⟩
    rw [rdropWhile_append, if_pos hl]
    exact ((( List.rdropWhile_prefix isEnd _).trans (unquoteLast_start _)).trans
      ( List.rdropWhile_prefix isBlank a)).length_le
  · refine .inl ?_
    rw [rdropWhile_append, if_neg hl, unquoteLast_append hl, List.rdropWhile_eq_self_iff]
    intro hne hend
    have hstart : a++unquoteLast (l.rdropWhile isBlank) <+: a++l :=
      (List.prefix_append_right_inj a).mpr
        ((unquoteLast_start _).trans ( List.rdropWhile_prefix isBlank l))
    have hopen' := hopen _ (hstart.subset (List.getLast_mem hne))
    rw [hend] at hopen'
    cases hopen'

/-! ## What the function does -/

/-- What is read of a line is that of its string. -/
theorem parseKeyVal_none (h0 : 0 ∉ line) (h : behindKey key line = none) (val : Buffer UInt8) :
    parseKeyVal (line++0::beyond) key val = some none := by
  simp [parseKeyVal, findValue_eq h0, h]

/-- The value of a key, between its start and the last byte that the pointer comes back to. -/
structure Found (line text : List UInt8) (dst last : ℕ) : Prop where
  start : dst ≤ line.length
  rest : line.drop dst = opening text
  inside : dst ≤ last ↔ trimmed text ≠ []
  length : dst ≤ last → last+1-dst = (trimmed text).length

theorem parseKeyVal_some (h0 : 0 ∉ line) (hopen : Open isEnd line)
    (h : behindKey key line = some text) (beyond : List UInt8) (val : Buffer UInt8) :
    ∃ dst last, parseKeyVal (line++0::beyond) key val =
        some (some ⟨dst, last, copyValue (line++0::beyond) dst last val⟩) ∧
      Found line text dst last := by
  obtain ⟨b, hline, -⟩ := behindKey_eq_some h
  have hequals : EQUALS ∈ line := by
    rw [hline]
    exact List.mem_append_right _ List.mem_cons_self
  have hsuffix : opening text <:+ line := by
    refine (opening_suffix text).trans ?_
    rw [hline]
    exact (List.suffix_cons EQUALS text).trans (List.suffix_append _ _)
  obtain ⟨a, ha⟩ := hsuffix
  have hdst : line.length-(opening text).length = a.length := by
    rw [← ha]
    simp
  have hle : a.length ≤ line.length := by
    rw [← ha]
    simp
  have htrim := trimEnd_append (ha ▸ hopen)
  rw [ha, ← trimmed_eq] at htrim
  have hpos : 0 < (trimEnd line).length := List.length_pos_of_mem (equals_mem_trimEnd hequals)
  refine ⟨a.length, (trimEnd line).length-1, ?_, hle, ?_, ?_, ?_⟩
  · simp [parseKeyVal, findValue_eq h0, h, hdst, findLast_eq hequals h0 hle]
  · rw [← ha, List.drop_left]
  · rcases htrim with he | ⟨he, hlen⟩
    · rw [he] at hpos ⊢
      rw [List.length_append] at hpos ⊢
      rw [← List.length_pos_iff]
      omega
    · rw [he]
      exact iff_of_false (by omega) fun hn => hn rfl
  · intro hin
    rcases htrim with he | ⟨he, hlen⟩
    · rw [he, List.length_append] at hin hpos ⊢
      omega
    · omega

theorem toSize_sub {dst last : ℕ} (h : dst ≤ last) :
    toSize ((last : ℤ)+1-dst) = last+1-dst := by
  have hnn : ¬ (last : ℤ)+1-dst < 0 := by omega
  rw [toSize, if_neg hnn]
  omega

/-- A value that was found is copied as it is, if it fits with the zero behind it. -/
theorem copyValue_inside {dst last : ℕ} (h : Found line text dst last) (hin : dst ≤ last)
    (val : Buffer UInt8) : (copyValue (line++0::beyond) dst last val).Inside ↔
      val.Inside ∧ (trimmed text).length < val.capacity := by
  rw [copyValue, toSize_sub hin, h.length hin, Buffer.inside_put, Buffer.inside_copyAt,
    Nat.zero_add]
  exact ⟨fun hi => ⟨hi.1.1, hi.2⟩, fun hi => ⟨⟨hi.1, .inr (Nat.le_of_lt hi.2)⟩, hi.2⟩⟩

theorem copyValue_str {dst last : ℕ} (h : Found line text dst last) (hin : dst ≤ last)
    (h0 : 0 ∉ line) {val : Buffer UInt8} (hfit : (trimmed text).length < val.capacity) :
    str (copyValue (line++0::beyond) dst last val) = trimmed text := by
  have hstart : trimmed text <+: opening text := by
    rw [trimmed_eq]
    exact (unquoteLast_start _).trans ( List.rdropWhile_prefix isBlank _)
  have hmem {x : UInt8} (hx : x ∈ opening text) : x ∈ line := by
    rw [← h.rest] at hx
    exact List.mem_of_mem_drop hx
  have hsource : cString ((line++0::beyond).drop dst) = opening text := by
    rw [List.drop_append_of_le_length h.start, h.rest]
    exact cString_append _ _ fun hz => h0 (hmem hz)
  have hcell : ∀ i < (trimmed text).length,
      (copyValue (line++0::beyond) dst last val).cell i = (trimmed text).getD i 0 := by
    intro i hi
    rw [copyValue, toSize_sub hin, h.length hin, hsource]
    change fill (trimmed text).length 1 0 (copy 0 0 (trimmed text).length
      (fun i => (opening text).getD i 0) val.cell) i = _
    have hcopy : copy 0 0 (trimmed text).length (fun i => (opening text).getD i 0) val.cell (0+i) =
        (opening text).getD (0+i) 0 := copy_inside hi
    rw [Nat.zero_add] at hcopy
    rw [fill_outside (.inl hi), hcopy]
    obtain ⟨t, ht⟩ := hstart
    rw [← ht, List.getD_eq_getElem?_getD, List.getElem?_append_left hi, List.getD_eq_getElem?_getD]
  refine str_of_cells hcell ?_ hfit fun hz => h0 (hmem (hstart.subset hz))
  rw [copyValue, toSize_sub hin, h.length hin]
  exact if_pos ⟨Nat.le_refl _, Nat.lt_succ_self _⟩

end AIC.KeyValue
