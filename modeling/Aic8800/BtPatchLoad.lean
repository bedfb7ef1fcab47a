import Aic8800.BtPatchTable

/-!
# When the patch table is read and used as it should be

A file with the tag has to consist of whole records. Then the list is what the
file encodes, and it is used inside its memory where the records of the three
types that are treated in a way of their own have the sizes they are taken to
have.
-/

set_option autoImplicit false

namespace AIC.BtPatchTable

/-! ## The format -/

/-- A record as it stands in the file. With a type of 1000 or more its length says nothing. -/
def RecordBytes (p : PatchTable) (bs : Bytes) : Prop :=
  p.name.length = 16 ∧
    ∃ t0 t1 t2 t3 l0 l1 l2 l3, bs = p.name++[t0, t1, t2, t3, l0, l1, l2, l3]++p.data ∧
    p.type = le32 t0 t1 t2 t3 ∧
    if 1000#32 ≤ p.type then p.len = 0 ∧ p.data = []
    else p.len = le32 l0 l1 l2 l3 ∧ p.data.length = p.len.toNat*8

/-- The tag, of which three bytes are not compared, and the records. -/
def Encodes (ps : List PatchTable) (file : Bytes) : Prop :=
  ∃ pad parts, pad.length = 3 ∧ file = AICBT_PT_TAG++pad++parts.flatten ∧
    List.Forall₂ RecordBytes ps parts

/-- The pairs of a record, those of a BTMODE record with the configured values. -/
def configured : List Word → List (Word × Word) → List (Word × Word)
  | v::vs, (a, _)::data => (a, v)::configured vs data
  | _, data => data

def Skipped (chip : Chip) (p : PatchTable) : Prop :=
  p.type = AICBT_PT_VER ∨ chip = .aic8800DC ∧ p.type = AICBT_PT_INF

instance (chip : Chip) (p : PatchTable) : Decidable (Skipped chip p) :=
  inferInstanceAs (Decidable (_ ∨ _))

def recordPairs (cfg : Config) (chip : Chip) (p : PatchTable) : List (Word × Word) :=
  if Skipped chip p then []
  else if p.type = AICBT_PT_BTMODE then configured (btmodeValues cfg chip) (words p.data)
  else words p.data

/-- What the list is used for stays inside its memory, and where every write succeeds, the pairs of
the records are written, each once and in order. -/
structure Used (cfg : Config) (chip : Chip) (head : List PatchTable) : Prop where
  unpack : ∀ p ∈ head.head?, ∀ info, ∃ info', aicbtPatchInfoUnpack info p = some info'
  inside : ∀ ret, ∃ r, aicbtPatchTableLoad cfg chip ret head = some r
  written : aicbtPatchTableLoad cfg chip (fun _ => 0) head =
    some (0, head.flatMap (recordPairs cfg chip))

def Handled (cfg : Config) (chip : Chip) (file : Firmware) : Prop :=
  ∃ a, aicbtPatchTableAlloc file = some a ∧ (a.head = [] → a.held = 0) ∧
    (a.head ≠ [] → Encodes a.head file.bytes ∧ Used cfg chip a.head)

/-! ## The condition -/

/-- Room for the addresses of the first record, for the configured values and for a string. The
AIC8800DW is written nothing. -/
structure Usable (chip : Chip) (ps : List PatchTable) : Prop where
  info : ∀ p ∈ ps.head?, p.type = AICBT_PT_INF → p.len.toNat ≤ 4
  btmode : chip ≠ .aic8800DW → ∀ p ∈ ps, p.type = AICBT_PT_BTMODE → 9 ≤ p.len.toNat
  string : chip ≠ .aic8800DW → ∀ p ∈ ps, p.type = AICBT_PT_VER → p.data = [] ∨ 0 ∈ p.data
  silent : chip = .aic8800DW → ∀ p ∈ ps, p.type = AICBT_PT_VER ∨ p.len = 0

def Loadable (chip : Chip) (bs : Bytes) : Prop :=
  bs = [] ∨ 13 ≤ bs.length ∧
    (bs.take 13 ≠ AICBT_PT_TAG ∨ bs.length ≤ 16 ∨ ∃ ps, Encodes ps bs ∧ Usable chip ps)

/-! ## Reading -/

section Reading
variable {p : PatchTable} {bs rest : Bytes} {ps : List PatchTable}

/-- The size of data that fits a file is not cut off. -/
theorem size_eq {len : Word} {data : Bytes} (hdata : data.length = len.toNat*8)
    (hint : data.length < 2^31) : (len*8#32).toNat = data.length := by
  have h8 : (8#32).toNat = 8 := rfl
  rw [BitVec.toNat_mul, h8, ← hdata]
  exact Nat.mod_eq_of_lt (by omega)

/-- A whole record is read as what it encodes. -/
theorem takeRecord_append (h : RecordBytes p bs) (hint : bs.length < 2^31) (rest : Bytes) :
    takeRecord (bs++rest) = some (p, rest) := by
  obtain ⟨name, type, len, data⟩ := p
  obtain ⟨hname, t0, t1, t2, t3, l0, l1, l2, l3, rfl, htype, hlen⟩ := h
  dsimp only at hname htype hlen
  have hdrop : (name++[t0, t1, t2, t3, l0, l1, l2, l3]++data++rest).drop 16 =
      [t0, t1, t2, t3, l0, l1, l2, l3]++data++rest := by
    rw [← hname]
    simp
  have htake : (name++[t0, t1, t2, t3, l0, l1, l2, l3]++data++rest).take 16 = name := by
    rw [← hname]
    simp
  rw [takeRecord, hdrop, htake]
  simp only [List.cons_append, List.nil_append]
  rw [← htype]
  split_ifs at hlen ⊢ with hbig hzero
  · obtain ⟨rfl, rfl⟩ := hlen
    rfl
  · obtain ⟨rfl, hdata⟩ := hlen
    rw [hzero] at hdata ⊢
    have hnil : data = [] := List.length_eq_zero_iff.mp hdata
    rw [hnil]
    rfl
  · rename_i hshort
    obtain ⟨rfl, hdata⟩ := hlen
    simp only [List.length_append] at hint
    rw [size_eq hdata (by omega)] at hshort
    simp at hshort
  · obtain ⟨rfl, hdata⟩ := hlen
    simp only [List.length_append] at hint
    rw [size_eq hdata (by omega)]
    simp

theorem recordBytes_pos (h : RecordBytes p bs) : 24 ≤ bs.length := by
  obtain ⟨hname, t0, t1, t2, t3, l0, l1, l2, l3, rfl, -⟩ := h
  simp [hname]
  omega

theorem readRecords_succ (fuel : ℕ) (h : bs ≠ []) : readRecords (fuel+1) bs =
    (takeRecord bs).bind fun (p, rest) => (readRecords fuel rest).map (p::·) := by
  cases bs with
  | nil => exact absurd rfl h
  | cons b bs => rfl

/-- Whole records are read as the list that they encode. -/
theorem readRecords_flatten {parts : List Bytes} (h : List.Forall₂ RecordBytes ps parts) {fuel : ℕ}
    (hfuel : parts.flatten.length ≤ fuel) (hint : parts.flatten.length < 2^31) :
    readRecords fuel parts.flatten = some ps := by
  induction h generalizing fuel with
  | nil => cases fuel <;> rfl
  | @cons p bs ps parts hp _ ih =>
    have hpos := recordBytes_pos hp
    rw [List.flatten_cons, List.length_append] at hfuel hint
    obtain ⟨fuel, rfl⟩ := Nat.exists_eq_succ_of_ne_zero (n := fuel) (by omega)
    have hne : (bs++parts.flatten) ≠ [] := by
      intro hnil
      rw [(List.append_eq_nil_iff.mp hnil).1] at hpos
      simp at hpos
    rw [List.flatten_cons, Nat.succ_eq_add_one, readRecords_succ fuel hne,
      takeRecord_append hp (by omega) parts.flatten, Option.bind_some]
    dsimp only
    rw [ih (by omega) (by omega)]
    rfl

theorem readRecords_nil {fuel : ℕ} (h : readRecords fuel bs = some []) : bs = [] := by
  cases bs with
  | nil => rfl
  | cons b bs =>
    cases fuel with
    | zero => cases h
    | succ fuel =>
      rw [readRecords_succ fuel (List.cons_ne_nil b bs)] at h
      obtain ⟨⟨p, rest⟩, -, hmap⟩ := Option.bind_eq_some_iff.mp h
      obtain ⟨ps, -, hcons⟩ := Option.map_eq_some_iff.mp hmap
      cases hcons

end Reading

/-! ## Using the list -/

section Using
variable {cfg : Config} {chip : Chip} {ret : ℕ → ℤ} {p : PatchTable}

/-- Data and length of a record agree. -/
def Sized (p : PatchTable) : Prop := p.data.length = p.len.toNat*8

theorem sized_of_bytes {bs : Bytes} (h : RecordBytes p bs) : Sized p := by
  obtain ⟨-, t0, t1, t2, t3, l0, l1, l2, l3, -, -, hlen⟩ := h
  split_ifs at hlen with hbig
  · rw [Sized, hlen.1, hlen.2]
    rfl
  · exact hlen.2

theorem words_length (n : ℕ) {bs : Bytes} (h : bs.length = n*8) : (words bs).length = n := by
  induction n generalizing bs with
  | zero =>
    obtain rfl := List.length_eq_zero_iff.mp (by omega : bs.length = 0)
    rfl
  | succ n ih =>
    match bs, h with
    | a0::a1::a2::a3::v0::v1::v2::v3::bs, h =>
      rw [words, List.length_cons, ih (by simp at h; omega)]
    | [], h | [_], h | [_, _], h | [_, _, _], h | [_, _, _, _], h | [_, _, _, _, _], h
    | [_, _, _, _, _, _], h | [_, _, _, _, _, _, _], h =>
      simp at h <;> omega

theorem storeValues_configured {vs : List Word} {data : List (Word × Word)}
    (h : vs.length ≤ data.length) : storeValues vs data = some (configured vs data) := by
  induction vs generalizing data with
  | nil => rfl
  | cons v vs ih =>
    cases data with
    | nil => simp at h
    | cons x data =>
      rw [storeValues, ih (by simpa using h)]
      rfl

theorem storeValues_short {vs : List Word} {data : List (Word × Word)}
    (h : data.length < vs.length) : storeValues vs data = none := by
  induction vs generalizing data with
  | nil => simp at h
  | cons v vs ih =>
    cases data with
    | nil => rfl
    | cons x data =>
      rw [storeValues, ih (by simpa using h)]
      rfl

theorem configured_length (vs : List Word) (data : List (Word × Word)) :
    (configured vs data).length = data.length := by
  induction vs generalizing data with
  | nil => rfl
  | cons v vs ih =>
    cases data with
    | nil => rfl
    | cons x data => simp [configured, ih]

theorem btmodeValues_length (cfg : Config) (chip : Chip) :
    (btmodeValues cfg chip).length = 9 := by
  cases chip <;> rfl

theorem writePairs_inside (n : ℕ) {data : List (Word × Word)} (h : n ≤ data.length) (k : ℕ) :
    ∃ r, writePairs ret n data k = some r := by
  induction n generalizing data k with
  | zero => exact ⟨_, rfl⟩
  | succ n ih =>
    cases data with
    | nil => simp at h
    | cons x data =>
      rw [writePairs]
      split_ifs
      · exact ⟨_, rfl⟩
      · obtain ⟨r, hr⟩ := ih (by simpa using h) (k+1)
        exact ⟨_, by rw [hr]; rfl⟩

theorem writePairs_all {data : List (Word × Word)} (k : ℕ) :
    writePairs (fun _ => 0) data.length data k = some (0, data) := by
  induction data generalizing k with
  | nil => rfl
  | cons x data ih =>
    rw [List.length_cons, writePairs, if_neg (by simp), ih]
    rfl

/-- What is needed of one record. -/
structure RecordUsable (p : PatchTable) : Prop where
  btmode : p.type = AICBT_PT_BTMODE → 9 ≤ p.len.toNat
  string : p.type = AICBT_PT_VER → p.data = [] ∨ 0 ∈ p.data

variable (cfg chip) in
/-- The words that a record is written with. -/
theorem record_words (hs : Sized p) (hu : RecordUsable p) :
    ∃ data, (if p.type = AICBT_PT_BTMODE then storeValues (btmodeValues cfg chip) (words p.data)
        else some (words p.data)) = some data ∧ data.length = p.len.toNat ∧
      data = if p.type = AICBT_PT_BTMODE then configured (btmodeValues cfg chip) (words p.data)
        else words p.data := by
  have hlen := words_length p.len.toNat hs
  split_ifs with hbt
  · have hroom := hu.btmode hbt
    refine ⟨_, storeValues_configured ?_, ?_, rfl⟩
    · rw [btmodeValues_length, hlen]
      exact hroom
    · rw [configured_length, hlen]
  · exact ⟨_, rfl, hlen, rfl⟩

variable (cfg chip ret) in
theorem loadRecord_inside (hs : Sized p) (hu : RecordUsable p) (k : ℕ) :
    ∃ r, loadRecord cfg chip ret p k = some r := by
  obtain ⟨data, hdata, hlen, -⟩ := record_words cfg chip hs hu
  rw [loadRecord, hdata, Option.bind_some]
  split_ifs with hinf hver hstr
  · exact ⟨_, rfl⟩
  · exact ⟨_, rfl⟩
  · exact absurd (hu.string hver) hstr
  · exact writePairs_inside p.len.toNat hlen.ge k

theorem loadRecord_all (hs : Sized p) (hu : RecordUsable p) (k : ℕ) :
    loadRecord cfg chip (fun _ => 0) p k = some (0, recordPairs cfg chip p) := by
  obtain ⟨data, hdata, hlen, heq⟩ := record_words cfg chip hs hu
  rw [loadRecord, hdata, Option.bind_some, recordPairs, ← heq]
  by_cases hinf : chip = .aic8800DC ∧ p.type = AICBT_PT_INF
  · rw [if_pos hinf, if_pos (show Skipped chip p from Or.inr hinf)]
  · rw [if_neg hinf]
    by_cases hver : p.type = AICBT_PT_VER
    · rw [if_pos hver, if_pos (hu.string hver),
        if_pos (show Skipped chip p from Or.inl hver)]
    · have hskip : ¬ Skipped chip p := not_or.mpr ⟨hver, hinf⟩
      rw [if_neg hver, if_neg hskip, ← hlen, writePairs_all]

theorem recordUsable_of_load {k : ℕ} {r : ℤ × List (Word × Word)} (hs : Sized p)
    (h : loadRecord cfg chip ret p k = some r) : RecordUsable p := by
  obtain ⟨data, hdata, hrest⟩ := Option.bind_eq_some_iff.mp h
  constructor
  · intro hbt
    rw [if_pos hbt] at hdata
    by_contra hshort
    rw [storeValues_short] at hdata
    · cases hdata
    · rw [btmodeValues_length, words_length p.len.toNat hs]
      omega
  · intro hver
    have hinf : ¬ (chip = .aic8800DC ∧ p.type = AICBT_PT_INF) := by
      rw [hver]
      exact fun hno => absurd hno.2 (by decide)
    rw [if_neg hinf, if_pos hver] at hrest
    split_ifs at hrest with hstr
    exact hstr

theorem loadRecords_inside {ps : List PatchTable} (hs : ∀ p ∈ ps, Sized p)
    (hu : ∀ p ∈ ps, RecordUsable p) (k : ℕ) : ∃ r, loadRecords cfg chip ret ps k = some r := by
  induction ps generalizing k with
  | nil => exact ⟨_, rfl⟩
  | cons p ps ih =>
    obtain ⟨r, hr⟩ := loadRecord_inside cfg chip ret
      (hs p List.mem_cons_self) (hu p List.mem_cons_self) k
    rw [loadRecords, hr, Option.bind_some]
    dsimp only
    split_ifs
    · exact ⟨_, rfl⟩
    · obtain ⟨r', hr'⟩ := ih (fun p hp => hs p (List.mem_cons_of_mem _ hp))
        (fun p hp => hu p (List.mem_cons_of_mem _ hp)) (k+r.2.length)
      exact ⟨_, by rw [hr']; rfl⟩

theorem loadRecords_all {ps : List PatchTable} (hs : ∀ p ∈ ps, Sized p)
    (hu : ∀ p ∈ ps, RecordUsable p) (k : ℕ) : loadRecords cfg chip (fun _ => 0) ps k =
      some (0, ps.flatMap (recordPairs cfg chip)) := by
  induction ps generalizing k with
  | nil => rfl
  | cons p ps ih =>
    rw [loadRecords, loadRecord_all (hs p List.mem_cons_self) (hu p List.mem_cons_self) k,
      Option.bind_some]
    dsimp only
    rw [if_neg (by simp), ih (fun p hp => hs p (List.mem_cons_of_mem _ hp))
      (fun p hp => hu p (List.mem_cons_of_mem _ hp))]
    rfl

/-- Where every write succeeds every record is come to. -/
theorem usable_of_loadRecords {ps : List PatchTable} (hs : ∀ p ∈ ps, Sized p) {k : ℕ}
    {r : ℤ × List (Word × Word)} (h : loadRecords cfg chip (fun _ => 0) ps k = some r) :
    ∀ p ∈ ps, RecordUsable p := by
  induction ps generalizing k r with
  | nil => exact fun p hp => absurd hp List.not_mem_nil
  | cons p ps ih =>
    have hsp := hs p List.mem_cons_self
    obtain ⟨r1, hr1, hrest⟩ := Option.bind_eq_some_iff.mp h
    have hup := recordUsable_of_load hsp hr1
    rw [loadRecord_all hsp hup] at hr1
    obtain rfl := Option.some.inj hr1
    dsimp only at hrest
    rw [if_neg (by simp)] at hrest
    obtain ⟨r2, hr2, -⟩ := Option.map_eq_some_iff.mp hrest
    intro q hq
    rcases List.mem_cons.mp hq with rfl | hq
    · exact hup
    · exact ih (fun p hp => hs p (List.mem_cons_of_mem _ hp)) hr2 q hq

end Using

/-! ## The whole -/

section Whole
variable {cfg : Config} {chip : Chip} {ps : List PatchTable}

theorem sized_of_encodes {bs : Bytes} (h : Encodes ps bs) : ∀ p ∈ ps, Sized p := by
  obtain ⟨pad, parts, -, -, hall⟩ := h
  intro p hp
  induction hall with
  | nil => cases hp
  | cons hrec _ ih =>
    rcases List.mem_cons.mp hp with rfl | hp
    · exact sized_of_bytes hrec
    · exact ih hp

theorem unpack_iff {p : PatchTable} (hs : Sized p) :
    (∀ info, ∃ info', aicbtPatchInfoUnpack info p = some info') ↔
      (p.type = AICBT_PT_INF → p.len.toNat ≤ 4) := by
  unfold aicbtPatchInfoUnpack
  rw [Sized] at hs
  by_cases hinf : p.type = AICBT_PT_INF
  · by_cases hzero : p.len = 0
    · have hlen : p.len.toNat = 0 := by
        rw [hzero]
        rfl
      simp [hinf, hzero]
    · have hroom : (p.data.length < p.len.toNat*8 ∨ PatchInfo.bodySize < p.len.toNat*8) ↔
          ¬ p.len.toNat ≤ 4 := by
        rw [hs, PatchInfo.bodySize]
        omega
      simp only [if_neg hzero, if_congr hroom rfl rfl, hinf, true_imp_iff]
      by_cases hle : p.len.toNat ≤ 4
      · simp [hle]
      · simp only [hle, not_false_eq_true, if_true, iff_false]
        intro hall
        obtain ⟨_, hno⟩ := hall ⟨0, []⟩
        cases hno
  · simp [hinf]

theorem records_usable (hu : Usable chip ps) (hchip : chip ≠ .aic8800DW) :
    ∀ p ∈ ps, RecordUsable p :=
  fun p hp => ⟨hu.btmode hchip p hp, hu.string hchip p hp⟩

theorem load_eq (hne : ps ≠ []) (hchip : chip ≠ .aic8800DW) (ret : ℕ → ℤ) :
    aicbtPatchTableLoad cfg chip ret ps = loadRecords cfg chip ret ps 0 := by
  unfold aicbtPatchTableLoad
  cases chip with
  | aic8800DW => exact absurd rfl hchip
  | _ => exact if_neg hne

/-- The AIC8800DW has nothing to be written where every record is a version or empty. -/
theorem silent_pairs (hs : ∀ p ∈ ps, Sized p) : ps.flatMap (recordPairs cfg .aic8800DW) = [] ↔
    ∀ p ∈ ps, p.type = AICBT_PT_VER ∨ p.len = 0 := by
  rw [List.flatMap_eq_nil_iff]
  refine forall₂_congr fun p hp => ?_
  have hlen := words_length p.len.toNat (hs p hp)
  have hzero : p.len.toNat = 0 ↔ p.len = 0 := by
    rw [← BitVec.toNat_inj]
    rfl
  have hskip : Skipped .aic8800DW p ↔ p.type = AICBT_PT_VER := by simp [Skipped]
  rw [recordPairs, if_congr hskip rfl rfl]
  split_ifs with hver hbt
  · simp [hver]
  · rw [← List.length_eq_zero_iff, configured_length, hlen, hzero]
    simp [hver]
  · rw [← List.length_eq_zero_iff, hlen, hzero]
    simp [hver]

theorem used_iff (hne : ps ≠ []) (hs : ∀ p ∈ ps, Sized p) : Used cfg chip ps ↔ Usable chip ps := by
  constructor
  · intro h
    refine ⟨?_, ?_, ?_, ?_⟩
    · intro p hp
      exact (unpack_iff (hs p (List.mem_of_head? hp))).mp (h.unpack p hp)
    · intro hchip p hp
      have hload := h.written
      rw [load_eq hne hchip] at hload
      exact (usable_of_loadRecords hs hload p hp).btmode
    · intro hchip p hp
      have hload := h.written
      rw [load_eq hne hchip] at hload
      exact (usable_of_loadRecords hs hload p hp).string
    · rintro rfl
      have hload := h.written
      rw [aicbtPatchTableLoad, if_neg hne] at hload
      exact (silent_pairs hs).mp (Prod.mk.inj (Option.some.inj hload)).2.symm
  · intro h
    by_cases hchip : chip = .aic8800DW
    · subst hchip
      refine ⟨fun p hp => (unpack_iff (hs p (List.mem_of_head? hp))).mpr (h.info p hp), ?_, ?_⟩
      · intro ret
        exact ⟨_, if_neg hne⟩
      · rw [(silent_pairs hs).mpr (h.silent rfl)]
        exact if_neg hne
    · have hrec := records_usable h hchip
      refine ⟨fun p hp => (unpack_iff (hs p (List.mem_of_head? hp))).mpr (h.info p hp), ?_, ?_⟩
      · intro ret
        rw [load_eq hne hchip]
        exact loadRecords_inside hs hrec 0
      · rw [load_eq hne hchip]
        exact loadRecords_all hs hrec 0

/-- The file that encodes a list is read as that list. -/
theorem alloc_of_encodes {file : Firmware} (h : Encodes ps file.bytes) :
    aicbtPatchTableAlloc file = some ⟨ps, (ps.map PatchTable.blocks).sum⟩ := by
  obtain ⟨pad, parts, hpad, hbytes, hall⟩ := h
  have hint := file.int
  have htag : AICBT_PT_TAG.length = 13 := rfl
  have hlength : file.bytes.length = 16+parts.flatten.length := by
    rw [hbytes]
    simp [htag, hpad]
    omega
  have hdrop : file.bytes.drop 16 = parts.flatten := by
    have h16 : (AICBT_PT_TAG++pad).length = 16 := by simp [htag, hpad]
    rw [hbytes, ← h16, List.drop_left]
  have htake : file.bytes.take AICBT_PT_TAG.length = AICBT_PT_TAG := by
    rw [hbytes, List.append_assoc, List.take_left]
  have hne : file.bytes ≠ [] := by
    intro hnil
    rw [hnil] at hlength
    simp at hlength
    omega
  rw [aicbtPatchTableAlloc, if_neg hne, if_neg (by omega)]
  dsimp only
  rw [if_neg (not_not.mpr htake), hdrop, readRecords_flatten hall (by omega) (by omega)]
  simp

end Whole

/-- The table is handled as it should be exactly if the file is empty, or has at least the 13 bytes
that are compared and another tag, or nothing behind the tag, or consists of whole records that can
be used. -/
theorem handled_iff (cfg : Config) (chip : Chip) (file : Firmware) :
    Handled cfg chip file ↔ Loadable chip file.bytes := by
  have htag : AICBT_PT_TAG.length = 13 := rfl
  constructor
  · rintro ⟨a, halloc, -, hlist⟩
    by_cases hnil : file.bytes = []
    · exact Or.inl hnil
    · rw [aicbtPatchTableAlloc, if_neg hnil] at halloc
      split_ifs at halloc with hshort hother
      · exact Or.inr ⟨by omega, Or.inl hother⟩
      · refine Or.inr ⟨by omega, Or.inr ?_⟩
        obtain ⟨ps, hps, rfl⟩ := Option.map_eq_some_iff.mp halloc
        by_cases hempty : ps = []
        · subst hempty
          have hrest := readRecords_nil hps
          rw [List.drop_eq_nil_iff] at hrest
          exact Or.inl hrest
        · obtain ⟨hencodes, hused⟩ := hlist hempty
          exact Or.inr ⟨ps, hencodes, (used_iff hempty (sized_of_encodes hencodes)).mp hused⟩
  · intro h
    have hnothing : aicbtPatchTableAlloc file = some ⟨[], 0⟩ → Handled cfg chip file :=
      fun halloc => ⟨⟨[], 0⟩, halloc, fun _ => rfl, fun hno => absurd rfl hno⟩
    have hlong : 13 ≤ file.bytes.length → file.bytes ≠ [] ∧
        ¬ file.bytes.length < AICBT_PT_TAG.length := by
      intro hle
      refine ⟨?_, by omega⟩
      intro hnil
      rw [hnil] at hle
      simp at hle
    rcases h with hnil | ⟨hle, hother | hbare | ⟨ps, hencodes, husable⟩⟩
    · exact hnothing (if_pos hnil)
    · apply hnothing
      rw [aicbtPatchTableAlloc, if_neg (hlong hle).1, if_neg (hlong hle).2]
      exact if_pos hother
    · apply hnothing
      have hrest : file.bytes.drop 16 = [] := List.drop_eq_nil_iff.mpr hbare
      rw [aicbtPatchTableAlloc, if_neg (hlong hle).1, if_neg (hlong hle).2, hrest]
      dsimp only
      split_ifs
      · rfl
      · cases file.bytes.length <;> rfl
    · refine ⟨_, alloc_of_encodes hencodes, ?_, ?_⟩
      · intro hempty
        dsimp only at hempty ⊢
        rw [hempty]
        rfl
      · intro hne
        exact ⟨hencodes, (used_iff hne (sized_of_encodes hencodes)).mpr husable⟩

/-- A record that is cut off behind its name. -/
def cutOff : Firmware where
  bytes := AICBT_PT_TAG++List.replicate 19 0
  int := by decide

def sampleConfig : Config where
  hwinfo := -1
  cpmode := 0
  aicbtInfo := ⟨0, 2, 1500000, 1, 0, 0x6020⟩
  aicbtInfo8800dc := ⟨1, 2, 1500000, 1, 0, 0x6f2f⟩

/-- Its type and its length are read outside the file. -/
theorem cut_off_read : aicbtPatchTableAlloc cutOff = none ∧
    ¬ Handled sampleConfig .aic8801 cutOff := by
  have hnone : aicbtPatchTableAlloc cutOff = none := by decide
  refine ⟨hnone, ?_⟩
  rintro ⟨a, halloc, -⟩
  rw [hnone] at halloc
  cases halloc

end AIC.BtPatchTable
