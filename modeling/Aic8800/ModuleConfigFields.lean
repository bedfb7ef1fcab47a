import Aic8800.ModuleConfig
import Mathlib.Logic.Function.Basic

/-!
# The fields that a line of a module configuration changes

A number is stored over four fields, of which a line names the first.
-/

set_option autoImplicit false

namespace AIC.ModuleConfigFields
open AIC.ModuleConfig AIC.KeyValue AIC.PowerTableParser Lib.CheckedBuffer Lib.StringBuffer
open Lib.ByteText Lib.FlatMemory

/-! ## What is right -/

/-- What a line assigns: the field of its key, and the text behind the `=`. -/
structure Match where
  offset : ℕ
  text : List UInt8

def matchLine (keyPrefix : List UInt8) (rs : List MatchNode) (line : List UInt8) : Option Match :=
  rs.findSome? fun r => (behindKey (keyPrefix++r.keyname) line).map fun text => ⟨r.offset, text⟩

variable (kstrtol : List UInt8 → Option UInt32)

/-- The pointer stayed behind the start of the value, the value was read without the blanks and
quotes around it, and no field but that of the key changed. -/
structure RightStore (w : Stored) : Prop where
  pointer : w.dst ≤ w.last
  value : ∃ text, behindKey w.key w.line = some text ∧ w.conf = trimmed text
  field : ∀ n, kstrtol w.conf = some n → w.after w.offset = n.toUInt8
  others : ∀ i < NVRAM_SIZE, i ≠ w.offset → w.after i = w.before i

/-- Nothing was written outside the buffers, and every line with a key was right. -/
structure Good (s : Config) : Prop where
  conf : s.conf.Inside
  keyname : s.keyname.Inside
  nvram : s.nvram.Inside
  stored : ∀ w ∈ s.stored, RightStore kstrtol w

/-- The sizes of the buffers. -/
structure Sized (s : Config) : Prop where
  conf : s.conf.capacity = CONF_SIZE
  keyname : s.keyname.capacity = KEYNAME_SIZE
  nvram : s.nvram.capacity = NVRAM_SIZE

/-- Every value is neither empty nor too long, and the bytes of its number behind the first one
are inside `nvram_info` and stand there already. -/
def Quiet : List Match → UInt32 → (ℕ → UInt8) → Prop
  | [], _, _ => True
  | m::ms, val, fields =>
    let n := (kstrtol (trimmed m.text)).getD val
    (trimmed m.text ≠ [] ∧ (trimmed m.text).length < CONF_SIZE ∧ m.offset+4 ≤ NVRAM_SIZE ∧
      cells fields (m.offset+1) 3 = (longBytes n).tail) ∧
    Quiet ms n (Function.update fields m.offset n.toUInt8)

/-- From `s` to `s'` the matches were met: whatever more is met, all is right at the end just
where it was so at the start and the matches are quiet. -/
def Follows (ms : List Match) (s s' : Config) : Prop :=
  ∀ more, Good kstrtol s' ∧ Quiet kstrtol more s'.val s'.nvram.cell ↔
    Good kstrtol s ∧ Quiet kstrtol (ms++more) s.val s.nvram.cell

variable {kstrtol} {s s' s'' : Config}

theorem Follows.trans {ms ms' : List Match} (h : Follows kstrtol ms s s')
    (h' : Follows kstrtol ms' s' s'') : Follows kstrtol (ms++ms') s s'' := by
  intro more
  rw [h' more, h (ms'++more), List.append_assoc]

theorem Follows.good {ms : List Match} (h : Follows kstrtol ms s s') :
    Good kstrtol s' ↔ Good kstrtol s ∧ Quiet kstrtol ms s.val s.nvram.cell := by
  have hnil := h []
  rw [List.append_nil] at hnil
  rw [← hnil]
  exact (and_iff_left trivial).symm

/-! ## The store -/

/-- Four bytes change only the first field if the others hold the rest of them. -/
theorem store_update {fields : ℕ → UInt8} {offset : ℕ} {n : UInt32}
    (h : cells fields (offset+1) 3 = (longBytes n).tail) :
    store offset (longBytes n) fields = Function.update fields offset n.toUInt8 := by
  have hcells : fields (offset+1) = (n >>> 8).toUInt8 ∧
      fields (offset+2) = (n >>> 16).toUInt8 ∧ fields (offset+3) = (n >>> 24).toUInt8 := by
    simpa [cells, longBytes, List.range_succ] using h
  obtain ⟨h1, h2, h3⟩ := hcells
  funext i
  by_cases hin : offset ≤ i ∧ i < offset+4
  · obtain ⟨j, rfl⟩ : ∃ j, i = offset+j := ⟨i-offset, by omega⟩
    have hj : j < (longBytes n).length := by
      change j < 4
      omega
    rw [store_inside hj]
    have hcases : j = 0 ∨ j = 1 ∨ j = 2 ∨ j = 3 := by
      change j < 4 at hj
      omega
    rcases hcases with rfl | rfl | rfl | rfl
    · exact (Function.update_self offset n.toUInt8 fields).symm
    · rw [Function.update_of_ne (by omega), h1]
      rfl
    · rw [Function.update_of_ne (by omega), h2]
      rfl
    · rw [Function.update_of_ne (by omega), h3]
      rfl
  · have hout : i < offset ∨ offset+(longBytes n).length ≤ i := by
      change i < offset ∨ offset+4 ≤ i
      omega
    rw [store_outside hout, Function.update_of_ne (by omega)]

/-- And only then. -/
theorem cells_of_store {fields : ℕ → UInt8} {offset : ℕ} {n : UInt32}
    (hfit : offset+4 ≤ NVRAM_SIZE) (h : ∀ i < NVRAM_SIZE, i ≠ offset →
      store offset (longBytes n) fields i = fields i) :
    cells fields (offset+1) 3 = (longBytes n).tail := by
  refine List.ext_getElem rfl fun j hj hj' => ?_
  have hlt : j < 3 := by simpa [cells] using hj
  have hcell : (cells fields (offset+1) 3)[j] = fields (offset+(j+1)) := by
    simp [cells]
    congr 1
    omega
  have hin : j+1 < (longBytes n).length := by
    change j+1 < 4
    omega
  have hstore := h (offset+(j+1)) (by omega) (by omega)
  rw [store_inside hin] at hstore
  exact hcell.trans (hstore.symm.trans (List.getElem_tail _).symm)

/-! ## One line -/

variable {line beyond key text keyPrefix : List UInt8} {dst last : ℕ}

theorem storeVal_sized (hs : Sized s) {v : Value} (hv : v.val.capacity = s.conf.capacity)
    (r : MatchNode) : Sized (storeVal kstrtol line key r v s) :=
  ⟨hv.trans hs.conf, hs.keyname, hs.nvram⟩

/-- A line with a key is right just where its match is quiet. -/
theorem storeVal_follows (hs : Sized s) (h0 : 0 ∉ line) (hkey : behindKey key line = some text)
    (hfound : Found line text dst last) (beyond : List UInt8) (r : MatchNode) :
    Follows kstrtol [⟨r.offset, text⟩] s
      (storeVal kstrtol line key r ⟨dst, last, copyValue (line++0::beyond) dst last s.conf⟩ s) := by
  have hstr (hin : dst ≤ last) (hfit : (trimmed text).length < CONF_SIZE) :
      str (copyValue (line++0::beyond) dst last s.conf) = trimmed text :=
    copyValue_str hfound hin h0 (hs.conf.symm ▸ hfit)
  intro more
  constructor
  · rintro ⟨hgood, hquiet⟩
    have hright := hgood.stored _ (List.mem_append_right _ List.mem_cons_self)
    have hin : dst ≤ last := hright.pointer
    obtain ⟨hconf, hfit⟩ := (copyValue_inside hfound hin s.conf).mp hgood.conf
    rw [hs.conf] at hfit
    obtain ⟨hnvram, hoffset⟩ := Buffer.inside_storeAt.mp hgood.nvram
    have hfield : r.offset+4 ≤ NVRAM_SIZE :=
      hs.nvram ▸ hoffset.resolve_left (Nat.succ_ne_zero 3)
    have hcells := cells_of_store hfield hright.others
    rw [hstr hin hfit] at hcells
    refine ⟨⟨hconf, hgood.keyname, hnvram, fun w hw => hgood.stored w (List.mem_append_left _ hw)⟩,
      ⟨hfound.inside.mp hin, hfit, hfield, hcells⟩, ?_⟩
    rw [← store_update hcells]
    simp only [storeVal, hstr hin hfit] at hquiet
    exact hquiet
  · rintro ⟨hgood, ⟨hne, hfit, hfield, hcells⟩, hquiet⟩
    have hin : dst ≤ last := hfound.inside.mpr hne
    have hcell : (storeVal kstrtol line key r
        ⟨dst, last, copyValue (line++0::beyond) dst last s.conf⟩ s).nvram.cell =
        Function.update s.nvram.cell r.offset
          ((kstrtol (trimmed text)).getD s.val).toUInt8 := by
      rw [← store_update hcells, ← hstr hin hfit]
      rfl
    refine ⟨⟨?_, hgood.keyname, ?_, fun w hw => ?_⟩, ?_⟩
    · exact (copyValue_inside hfound hin s.conf).mpr ⟨hgood.conf, hs.conf.symm ▸ hfit⟩
    · exact Buffer.inside_storeAt.mpr ⟨hgood.nvram, .inr (hs.nvram.symm ▸ hfield)⟩
    · rcases List.mem_append.mp hw with hw | hw
      · exact hgood.stored w hw
      · obtain rfl := List.mem_singleton.mp hw
        refine ⟨hin, ⟨text, hkey, hstr hin hfit⟩, fun n hn => ?_, fun i _ hi => ?_⟩
        · have hnum : kstrtol (trimmed text) = some n := hstr hin hfit ▸ hn
          rw [hnum, Option.getD_some] at hcell
          exact (congrFun hcell r.offset).trans (Function.update_self ..)
        · exact (congrFun hcell i).trans (Function.update_of_ne hi ..)
    · rw [hcell]
      simp only [storeVal, hstr hin hfit]
      exact hquiet

/-- `sprintf` writes the key into `keyname`, where it fits. -/
theorem keyname_str {b : Buffer UInt8} (hlen : key.length < b.capacity) (h0 : 0 ∉ key) :
    str (b.storeAt 0 (key++[0])) = key := by
  have hcell (i : ℕ) (hi : i < (key++[0]).length) :
      (b.storeAt 0 (key++[0])).cell i = (key++[0])[i] := by
    have h : store 0 (key++[0]) b.cell (0+i) = (key++[0])[i] := store_inside hi
    rwa [Nat.zero_add] at h
  refine str_of_cells (fun i hi => ?_) ?_ hlen h0
  · rw [hcell i (by simp; omega), List.getElem_append_left hi, List.getD_eq_getElem?_getD,
      List.getElem?_eq_getElem hi, Option.getD_some]
  · rw [hcell key.length (by simp)]
    simp

/-- Keys that `keyname` has room for. -/
def KeysFit (keyPrefix : List UInt8) (rs : List MatchNode) : Prop :=
  ∀ r ∈ rs, (keyPrefix++r.keyname).length < KEYNAME_SIZE ∧ 0 ∉ keyPrefix++r.keyname

instance (rs : List MatchNode) : Decidable (KeysFit keyPrefix rs) :=
  inferInstanceAs (Decidable (∀ _ ∈ _, _))

/-- Writing a key changes nothing else. -/
theorem keyname_follows (hs : Sized s) (hlen : key.length < KEYNAME_SIZE) :
    Follows kstrtol [] s { s with keyname := s.keyname.storeAt 0 (key++[0]) } := by
  intro more
  have hinside : (s.keyname.storeAt 0 (key++[0])).Inside ↔ s.keyname.Inside := by
    rw [Buffer.inside_storeAt, hs.keyname, List.length_append, List.length_singleton]
    exact and_iff_left (.inr (by omega))
  constructor
  · rintro ⟨hgood, hquiet⟩
    exact ⟨⟨hgood.conf, hinside.mp hgood.keyname, hgood.nvram, hgood.stored⟩, hquiet⟩
  · rintro ⟨hgood, hquiet⟩
    exact ⟨⟨hgood.conf, hinside.mpr hgood.keyname, hgood.nvram, hgood.stored⟩, hquiet⟩

/-- A line is looked up in the table and stored under the first key that it assigns to. -/
theorem matchKeys_follows (h0 : 0 ∉ line) (hopen : Open isEnd line) (beyond : List UInt8)
    {rs : List MatchNode} (hfit : KeysFit keyPrefix rs) (hs : Sized s) :
    ∃ s', matchKeys kstrtol keyPrefix (line++0::beyond) rs s = some s' ∧ Sized s' ∧
      Follows kstrtol (matchLine keyPrefix rs line).toList s s' := by
  induction rs generalizing s with
  | nil => exact ⟨s, rfl, hs, fun more => Iff.rfl⟩
  | cons r rs ih =>
    obtain ⟨⟨hlen, hzero⟩, hrest⟩ := List.forall_mem_cons.mp hfit
    have hkeyname := keyname_str (b := s.keyname) (hs.keyname.symm ▸ hlen) hzero
    have hwrite : Follows kstrtol [] s
        { s with keyname := s.keyname.storeAt 0 (keyPrefix++r.keyname++[0]) } :=
      keyname_follows hs hlen
    have hsized : Sized { s with keyname := s.keyname.storeAt 0 (keyPrefix++r.keyname++[0]) } :=
      ⟨hs.conf, hs.keyname, hs.nvram⟩
    cases hkey : behindKey (keyPrefix++r.keyname) line with
    | none =>
      obtain ⟨s', hrun, hs', hfollows⟩ := ih hrest hsized
      refine ⟨s', ?_, hs', ?_⟩
      · rw [matchKeys, hkeyname, parseKeyVal_none h0 hkey]
        exact hrun
      · have hmatch : matchLine keyPrefix (r::rs) line = matchLine keyPrefix rs line := by
          simp [matchLine, hkey]
        rw [hmatch]
        exact hwrite.trans hfollows
    | some text =>
      obtain ⟨dst, last, hparse, hfound⟩ := parseKeyVal_some h0 hopen hkey beyond s.conf
      have hmatch : matchLine keyPrefix (r::rs) line = some ⟨r.offset, text⟩ := by
        simp [matchLine, hkey]
      rw [hmatch]
      refine ⟨_, ?_, storeVal_sized hsized ?_ r,
        hwrite.trans (storeVal_follows hsized h0 hkey hfound beyond r)⟩
      · rw [matchKeys, hkeyname, hparse, cString_append line beyond h0]
        rfl
      · rfl

end AIC.ModuleConfigFields
