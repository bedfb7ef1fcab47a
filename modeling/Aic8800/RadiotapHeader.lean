import Aic8800.Lib.AlignedFields
import Mathlib.Data.List.Basic
import Mathlib.Tactic.FinCases

/-!
# The radiotap header of a monitor frame

`rwnx_rx_rtap_hdrlen` computes the length that `rwnx_rx_add_rtap_hdr` is to fill. A
write is recorded with the field that it is for; the values are left out. A reader
finds the fields by the words of `it_present` alone.
-/

set_option autoImplicit false

namespace AIC.RadiotapHeader
open Lib.AlignedFields

def FORMATMOD_NON_HT_DUP_OFDM : ℕ := 1
def FORMATMOD_HT_MF : ℕ := 2
def FORMATMOD_HT_GF : ℕ := 3
def FORMATMOD_VHT : ℕ := 4
def FORMATMOD_HE_SU : ℕ := 5
def PHY_CHNL_BW_40 : ℕ := 1
def IEEE80211_MAX_CHAINS : ℕ := 4

/-- The fields that the driver knows, in the order of their bits. -/
inductive Field where
  | tsft | flags | rate | channel | dbmAntsignal | antenna | rxFlags | mcs | ampduStatus | vht | he
  deriving DecidableEq

namespace Field

def all : List Field :=
  [tsft, flags, rate, channel, dbmAntsignal, antenna, rxFlags, mcs, ampduStatus, vht, he]

def align : Field → ℕ
  | tsft => 8
  | flags => 1
  | rate => 1
  | channel => 2
  | dbmAntsignal => 1
  | antenna => 1
  | rxFlags => 2
  | mcs => 1
  | ampduStatus => 4
  | vht => 2
  | he => 2

def size : Field → ℕ
  | tsft => 8
  | flags => 1
  | rate => 1
  | channel => 4
  | dbmAntsignal => 1
  | antenna => 1
  | rxFlags => 2
  | mcs => 3
  | ampduStatus => 8
  | vht => 12
  | he => 12

theorem align_pos (f : Field) : 0 < f.align := by
  cases f <;> decide

end Field

/-- Of `struct rx_vector_1`. -/
structure RxVector1 where
  formatMod : ℕ
  chBw : ℕ
  antennaSet : BitVec 8
  htAggregation : Bool

namespace RxVector1
variable (v : RxVector1)

/-- `hweight32` and `hweight8`. -/
def hweight : ℕ := (List.range 8).countP v.antennaSet.getLsbD

/-- `for_each_set_bit`. -/
def chains : List ℕ := (List.range IEEE80211_MAX_CHAINS).filter v.antennaSet.getLsbD

def isHt : Bool := v.formatMod = FORMATMOD_HT_MF || v.formatMod = FORMATMOD_HT_GF

/-- Both functions take the bit from the vector of HT frames only. -/
def aggregation : Bool :=
  FORMATMOD_VHT ≤ v.formatMod || FORMATMOD_NON_HT_DUP_OFDM < v.formatMod && v.htAggregation

end RxVector1

/-! ## The length -/

def sizeofRadiotapHeader : ℕ := 8

/-- A u8 holds it at every step. -/
def rtapHdrlen (v : RxVector1) (hasVendRtap : Bool) : ℕ :=
  let len := sizeofRadiotapHeader+8
  let len := if 1 < v.hweight then len+4*v.hweight else len
  let len := if hasVendRtap then len else alignUp len 8+8
  let len := len+1
  let len := if v.hweight = 1 then len+1 else len
  let len := alignUp len 2
  let len := if v.isHt then len+3 else len
  let len := if !hasVendRtap && v.aggregation then alignUp len 4+8 else len
  let len := if v.formatMod = FORMATMOD_VHT then alignUp len 2+12 else len
  let len := if v.formatMod = FORMATMOD_HE_SU then alignUp len 2+Field.he.size else len
  let len := if 1 < v.hweight then len+2*v.hweight else len
  if hasVendRtap then alignUp (len+4) 2 else len

/-! ## The bytes -/

/-- A field of one of the present words. -/
abbrev Key := ℕ × Field

def keyAlign (k : Key) : ℕ := k.2.align
def keySize (k : Key) : ℕ := k.2.size

/-- The bytes from `sub` on of the field, or bytes that are no field's. -/
structure Write where
  what : Option (Key × ℕ)
  pos : ℕ
  len : ℕ

/-- `present` are the fields of the first present word. -/
structure Cursor where
  pos : ℕ
  present : List Field
  writes : List Write

namespace Cursor
variable (c : Cursor)

def mark (f : Field) : Cursor := { c with present := c.present++[f] }

def put (key : Key) (sub len : ℕ) : Cursor :=
  { c with
    pos := c.pos+len
    writes := c.writes++[⟨some (key, sub), c.pos, len⟩] }

def zeros (len : ℕ) : Cursor :=
  { c with
    pos := c.pos+len
    writes := c.writes++[⟨none, c.pos, len⟩] }

def skip (len : ℕ) : Cursor := { c with pos := c.pos+len }

end Cursor

/-- The present words behind the first one. -/
def extraWords (v : RxVector1) : ℕ := if 1 < v.hweight then v.chains.length else 0

/-- `it_version`, `it_pad`, `it_len` and the present words. -/
def start (v : RxVector1) : Cursor where
  pos := sizeofRadiotapHeader+4*extraWords v
  present := []
  writes := [⟨none, 0, 1⟩, ⟨none, 1, 1⟩, ⟨none, 2, 2⟩, ⟨none, 4, 4*(extraWords v+1)⟩]

def addTsft (c : Cursor) : Cursor :=
  ((c.mark .tsft).zeros (alignUp c.pos 8-c.pos)).put (0, .tsft) 0 8

def addFlags (c : Cursor) : Cursor := (c.mark .flags).put (0, .flags) 0 1

/-- Only a legacy rate is a field. -/
def addRate (v : RxVector1) (c : Cursor) : Cursor :=
  if FORMATMOD_NON_HT_DUP_OFDM < v.formatMod then c.zeros 1
  else (c.mark .rate).put (0, .rate) 0 1

def addChannel (c : Cursor) : Cursor :=
  ((c.mark .channel).put (0, .channel) 0 2).put (0, .channel) 2 2

def addSignal (v : RxVector1) (c : Cursor) : Cursor :=
  if v.hweight = 1 then
    (((c.mark .dbmAntsignal).put (0, .dbmAntsignal) 0 1).mark .antenna).put (0, .antenna) 0 1
  else c

def addRxFlags (c : Cursor) : Cursor :=
  let c := c.mark .rxFlags
  (if c.pos % 2 = 1 then c.zeros 1 else c).put (0, .rxFlags) 0 2

def addMcs (v : RxVector1) (c : Cursor) : Cursor :=
  if v.isHt then
    (((c.mark .mcs).put (0, .mcs) 0 1).put (0, .mcs) 1 1).put (0, .mcs) 2 1
  else c

def addAmpdu (v : RxVector1) (c : Cursor) : Cursor :=
  if v.aggregation then
    (((c.skip (alignUp c.pos 4-c.pos)).mark .ampduStatus).put (0, .ampduStatus) 0 4).put
      (0, .ampduStatus) 4 4
  else c

/-- The test for 80 MHz and the others is not behind an `else`, and each of its branches writes. -/
def addBandwidth (v : RxVector1) (c : Cursor) : Cursor :=
  (if v.chBw = PHY_CHNL_BW_40 then c.put (0, .vht) 3 1 else c).put (0, .vht) 3 1

def addVht (v : RxVector1) (c : Cursor) : Cursor :=
  if v.formatMod = FORMATMOD_VHT then
    let c := ((c.mark .vht).put (0, .vht) 0 2).put (0, .vht) 2 1
    let c := ((addBandwidth v c).put (0, .vht) 4 1).skip 3
    ((c.put (0, .vht) 8 1).skip 1).skip 2
  else c

def addHe (v : RxVector1) (c : Cursor) : Cursor :=
  if v.formatMod = FORMATMOD_HE_SU then
    ((c.skip (alignUp c.pos 2-c.pos)).mark .he).put (0, .he) 0 12
  else c

/-- The signals of `n` chains, each for a present word of its own. -/
def addSignals : ℕ → Cursor → Cursor
  | 0, c => c
  | n+1, c =>
    let c := addSignals n c
    (c.put (n+1, .dbmAntsignal) 0 1).put (n+1, .antenna) 0 1

def addRxChains (v : RxVector1) (c : Cursor) : Cursor :=
  if 1 < v.hweight then addSignals v.chains.length c else c

/-- Up to the flags of the receiver. -/
def addCommon (v : RxVector1) : Cursor :=
  addRxFlags (addSignal v (addChannel (addRate v (addFlags (addTsft (start v))))))

/-- What depends on the format. -/
def addFormat (v : RxVector1) (c : Cursor) : Cursor :=
  addRxChains v (addHe v (addVht v (addAmpdu v (addMcs v c))))

/-- With a hardware vector and no vendor data, as `rwnx_rx_monitor` asks for it. -/
def addRtapHdr (v : RxVector1) : Cursor := addFormat v (addCommon v)

/-! ## What a reader finds -/

/-- The fields in the order of the present words and of the bits in each. -/
def presentFields (v : RxVector1) : List Key :=
  (Field.all.filter fun f => f ∈ (addRtapHdr v).present).map (Prod.mk 0)++
    (List.range (extraWords v)).flatMap fun i => [(i+1, .dbmAntsignal), (i+1, .antenna)]

def dictated (v : RxVector1) : List (Key × ℕ) :=
  place keyAlign keySize (sizeofRadiotapHeader+4*extraWords v) (presentFields v)

/-- The header is as long as computed, its fields stand where a reader looks for them, and
nothing is written outside. -/
structure Agrees (v : RxVector1) : Prop where
  length : (addRtapHdr v).pos = rtapHdrlen v false
  placed : ∀ w ∈ (addRtapHdr v).writes, ∀ x ∈ w.what, ∃ p ∈ dictated v,
    p.1 = x.1 ∧ w.pos = p.2+x.2 ∧ x.2+w.len ≤ x.1.2.size
  aligned : ∀ w ∈ (addRtapHdr v).writes, ∀ x ∈ w.what, x.2 = 0 → x.1.2.align ∣ w.pos
  complete : ∀ p ∈ dictated v, ∃ w ∈ (addRtapHdr v).writes, w.what = some (p.1, 0)
  inside : ∀ w ∈ (addRtapHdr v).writes, w.pos+w.len ≤ rtapHdrlen v false

/-- One antenna, and no VHT frame of 40 MHz. -/
def Regular (v : RxVector1) : Prop :=
  v.hweight = 1 ∧ ¬ (v.formatMod = FORMATMOD_VHT ∧ v.chBw = PHY_CHNL_BW_40)

/-! ## The regular headers -/

/-- What the functions look at. -/
structure Alike (v w : RxVector1) : Prop where
  one : v.hweight = 1 ∧ w.hweight = 1
  legacy : FORMATMOD_NON_HT_DUP_OFDM < v.formatMod ↔ FORMATMOD_NON_HT_DUP_OFDM < w.formatMod
  ht : v.isHt = w.isHt
  aggregation : v.aggregation = w.aggregation
  vht : v.formatMod = FORMATMOD_VHT ↔ w.formatMod = FORMATMOD_VHT
  he : v.formatMod = FORMATMOD_HE_SU ↔ w.formatMod = FORMATMOD_HE_SU
  bw : addVht v = addVht w

variable {v w : RxVector1}

theorem Alike.extraWords (h : Alike v w) : extraWords v = extraWords w := by
  unfold RadiotapHeader.extraWords
  rw [h.one.1, h.one.2]
  rfl

theorem Alike.header (h : Alike v w) : addRtapHdr v = addRtapHdr w := by
  have hstart : start v = start w := by rw [start, start, h.extraWords]
  have hrate (c : Cursor) : addRate v c = addRate w c := by simp only [addRate, h.legacy]
  have hsignal (c : Cursor) : addSignal v c = addSignal w c := by
    rw [addSignal, addSignal, h.one.1, h.one.2]
  have hmcs (c : Cursor) : addMcs v c = addMcs w c := by rw [addMcs, addMcs, h.ht]
  have hampdu (c : Cursor) : addAmpdu v c = addAmpdu w c := by
    rw [addAmpdu, addAmpdu, h.aggregation]
  have hhe (c : Cursor) : addHe v c = addHe w c := by simp only [addHe, h.he]
  have hchains (c : Cursor) : addRxChains v c = addRxChains w c := by
    rw [addRxChains, addRxChains, h.one.1, h.one.2, if_neg (lt_irrefl 1), if_neg (lt_irrefl 1)]
  rw [addRtapHdr, addRtapHdr, addFormat, addFormat, addCommon, addCommon, hstart, hrate, hsignal,
    hmcs, hampdu, h.bw, hhe, hchains]

theorem Alike.length (h : Alike v w) : rtapHdrlen v false = rtapHdrlen w false := by
  unfold rtapHdrlen
  simp only [h.one.1, h.one.2, h.ht, h.aggregation, h.vht, h.he]

theorem Alike.agrees (h : Alike v w) (hw : Agrees w) : Agrees v := by
  have hdict : dictated v = dictated w := by
    unfold dictated presentFields
    rw [h.extraWords, h.header]
  obtain ⟨hlen, hplaced, haligned, hcomplete, hinside⟩ := hw
  constructor
  · rw [h.header, h.length]
    exact hlen
  · rw [h.header, hdict]
    exact hplaced
  · rw [h.header]
    exact haligned
  · rw [h.header, hdict]
    exact hcomplete
  · rw [h.header, h.length]
    exact hinside

/-- A vector of each kind, for 20 MHz and the first antenna. -/
def sample (formatMod : ℕ) (htAggregation : Bool) : RxVector1 := ⟨formatMod, 0, 1, htAggregation⟩

theorem sample_hweight (formatMod : ℕ) (htAggregation : Bool) :
    (sample formatMod htAggregation).hweight = 1 := by
  show (List.range 8).countP (1 : BitVec 8).getLsbD = 1
  decide

/-- What is left to see of a header of one antenna: the writes are where the fields are. -/
theorem agrees_of_placed (hlen : (addRtapHdr v).pos = rtapHdrlen v false)
    (hstop : stop keyAlign keySize (sizeofRadiotapHeader+4*extraWords v) (presentFields v) =
      (addRtapHdr v).pos)
    (hplaced : ∀ w ∈ (addRtapHdr v).writes, ∀ x ∈ w.what, ∃ p ∈ dictated v,
      p.1 = x.1 ∧ w.pos = p.2+x.2 ∧ x.2+w.len ≤ x.1.2.size)
    (hcomplete : ∀ p ∈ dictated v, ∃ w ∈ (addRtapHdr v).writes, w.what = some (p.1, 0))
    (hzeros : ∀ w ∈ (addRtapHdr v).writes, w.what = none → w.pos+w.len ≤ (addRtapHdr v).pos) :
    Agrees v := by
  have halign : ∀ k ∈ presentFields v, 0 < keyAlign k := fun k _ => k.2.align_pos
  refine ⟨hlen, hplaced, ?_, hcomplete, ?_⟩
  · intro w hw x hx h0
    obtain ⟨⟨key, off⟩, hp, rfl, hpos, -⟩ := hplaced w hw x hx
    rw [hpos, h0, Nat.add_zero]
    exact (place_aligned hp : keyAlign x.1 ∣ off)
  · intro w hw
    rw [← hlen]
    cases hx : w.what with
    | none => exact hzeros w hw hx
    | some x =>
      obtain ⟨⟨key, off⟩, hp, rfl, hpos, hfits⟩ := hplaced w hw x hx
      have hin := (place_inside halign hp).2
      rw [hstop] at hin
      rw [hpos]
      have hsize : off+x.1.2.size ≤ (addRtapHdr v).pos := hin
      have hsub : x.2+w.len ≤ x.1.2.size := hfits
      show off+x.2+w.len ≤ _
      omega

theorem sample_agrees : ∀ kind ∈ [(0, false), (2, false), (2, true), (4, false), (5, false),
    (6, false)], Agrees (sample kind.1 kind.2) := by
  intro kind hkind
  fin_cases hkind <;>
    exact agrees_of_placed (by decide) (by decide) (by decide) (by decide) (by decide)

theorem addVht_congr (hvht : v.formatMod = FORMATMOD_VHT ↔ w.formatMod = FORMATMOD_VHT)
    (hbw : v.formatMod = FORMATMOD_VHT → addBandwidth v = addBandwidth w) :
    addVht v = addVht w := by
  funext c
  unfold addVht
  by_cases h : v.formatMod = FORMATMOD_VHT
  · rw [if_pos h, if_pos (hvht.mp h), hbw h]
  · rw [if_neg h, if_neg fun hw => h (hvht.mpr hw)]

theorem isHt_iff (v : RxVector1) : v.isHt = true ↔ v.formatMod = 2 ∨ v.formatMod = 3 := by
  unfold RxVector1.isHt
  rw [Bool.or_eq_true, decide_eq_true_iff, decide_eq_true_iff]
  rfl

theorem aggregation_iff (v : RxVector1) : v.aggregation = true ↔
    4 ≤ v.formatMod ∨ 1 < v.formatMod ∧ v.htAggregation = true := by
  unfold RxVector1.aggregation
  rw [Bool.or_eq_true, Bool.and_eq_true, decide_eq_true_iff, decide_eq_true_iff]
  rfl

theorem Regular.alike_of (h : Regular v) {n : ℕ} {agg : Bool}
    (hlegacy : 1 < v.formatMod ↔ 1 < n)
    (hht : v.formatMod = 2 ∨ v.formatMod = 3 ↔ n = 2 ∨ n = 3)
    (hagg : 4 ≤ v.formatMod ∨ 1 < v.formatMod ∧ v.htAggregation = true ↔
      4 ≤ n ∨ 1 < n ∧ agg = true)
    (hvht : v.formatMod = 4 ↔ n = 4) (hhe : v.formatMod = 5 ↔ n = 5) :
    Alike v (sample n agg) := by
  refine ⟨⟨h.1, sample_hweight n agg⟩, hlegacy, ?_, ?_, hvht, hhe, addVht_congr hvht fun h4 => ?_⟩
  · rw [Bool.eq_iff_iff, isHt_iff, isHt_iff]
    exact hht
  · rw [Bool.eq_iff_iff, aggregation_iff, aggregation_iff]
    exact hagg
  · funext c
    unfold addBandwidth
    rw [if_neg fun h40 => h.2 ⟨h4, h40⟩]
    rfl

theorem Regular.alike (h : Regular v) : ∃ kind ∈ [(0, false), (2, false), (2, true), (4, false),
    (5, false), (6, false)], Alike v (sample kind.1 kind.2) := by
  by_cases hlegacy : v.formatMod ≤ 1
  · refine ⟨(0, false), by decide, h.alike_of ?_ ?_ ?_ ?_ ?_⟩ <;> grind
  · by_cases hht : v.formatMod ≤ 3
    · cases hagg : v.htAggregation with
      | false => refine ⟨(2, false), by decide, h.alike_of ?_ ?_ ?_ ?_ ?_⟩ <;> grind
      | true => refine ⟨(2, true), by decide, h.alike_of ?_ ?_ ?_ ?_ ?_⟩ <;> grind
    · by_cases hvht : v.formatMod = 4
      · refine ⟨(4, false), by decide, h.alike_of ?_ ?_ ?_ ?_ ?_⟩ <;> grind
      · by_cases hhe : v.formatMod = 5
        · refine ⟨(5, false), by decide, h.alike_of ?_ ?_ ?_ ?_ ?_⟩ <;> grind
        · refine ⟨(6, false), by decide, h.alike_of ?_ ?_ ?_ ?_ ?_⟩ <;> grind

theorem Regular.agrees (h : Regular v) : Agrees v := by
  obtain ⟨kind, hkind, halike⟩ := h.alike
  exact halike.agrees (sample_agrees kind hkind)

/-! ## The others -/

theorem chains_le (v : RxVector1) : v.chains.length ≤ v.hweight := by
  unfold RxVector1.chains RxVector1.hweight
  rw [← List.countP_eq_length_filter]
  exact (List.range_sublist.mpr (by decide)).countP_le

theorem addMcs_pos (v : RxVector1) (c : Cursor) :
    (addMcs v c).pos = if v.isHt then c.pos+3 else c.pos := by
  unfold addMcs
  split <;> rfl

theorem addAmpdu_pos (v : RxVector1) (c : Cursor) :
    (addAmpdu v c).pos = if v.aggregation then alignUp c.pos 4+8 else c.pos := by
  have hle := le_alignUp c.pos (by decide : 0 < 4)
  unfold addAmpdu
  split
  · show c.pos+(alignUp c.pos 4-c.pos)+4+4 = _
    omega
  · rfl

theorem addVht_pos (v : RxVector1) (c : Cursor) : (addVht v c).pos =
    if v.formatMod = FORMATMOD_VHT then c.pos+(if v.chBw = PHY_CHNL_BW_40 then 13 else 12)
    else c.pos := by
  unfold addVht addBandwidth
  split
  · split <;> rfl
  · rfl

theorem addHe_pos (v : RxVector1) (c : Cursor) : (addHe v c).pos =
    if v.formatMod = FORMATMOD_HE_SU then alignUp c.pos 2+12 else c.pos := by
  have hle := le_alignUp c.pos (by decide : 0 < 2)
  unfold addHe
  split
  · show c.pos+(alignUp c.pos 2-c.pos)+12 = _
    omega
  · rfl

theorem addSignals_pos (n : ℕ) (c : Cursor) : (addSignals n c).pos = c.pos+2*n := by
  induction n with
  | zero => rfl
  | succ n ih =>
    show (addSignals n c).pos+1+1 = _
    omega

theorem addRxChains_pos (v : RxVector1) (c : Cursor) : (addRxChains v c).pos =
    if 1 < v.hweight then c.pos+2*v.chains.length else c.pos := by
  unfold addRxChains
  split
  · exact addSignals_pos _ c
  · rfl

theorem addCommon_pos (v : RxVector1) : (addCommon v).pos =
    alignUp (alignUp (8+4*extraWords v) 8+14+(if v.hweight = 1 then 2 else 0)) 2+2 := by
  have hle := le_alignUp (8+4*extraWords v) (by decide : 0 < 8)
  have htsft : (addTsft (start v)).pos = alignUp (8+4*extraWords v) 8+8 := by
    show 8+4*extraWords v+(alignUp (8+4*extraWords v) 8-(8+4*extraWords v))+8 = _
    omega
  have hrate : ∀ c, (addRate v c).pos = c.pos+1 := fun c => by
    unfold addRate
    split <;> rfl
  have hsignal : ∀ c, (addSignal v c).pos = c.pos+(if v.hweight = 1 then 2 else 0) := fun c => by
    unfold addSignal
    split <;> rfl
  have hflags : ∀ c, (addRxFlags c).pos = alignUp c.pos 2+2 := fun c => by
    unfold addRxFlags
    dsimp only
    split
    · rename_i hodd
      have hodd' : c.pos % 2 = 1 := hodd
      show c.pos+1+2 = _
      unfold alignUp
      omega
    · rename_i heven
      have heven' : ¬ c.pos % 2 = 1 := heven
      show c.pos+2 = _
      unfold alignUp
      omega
  unfold addCommon
  rw [hflags, hsignal]
  show alignUp ((addRate v (addFlags (addTsft (start v)))).pos+2+2+_) 2+2 = _
  rw [hrate]
  show alignUp ((addTsft (start v)).pos+1+1+2+2+_) 2+2 = _
  rw [htsft]

/-- What both functions do with the length, from the flags of the receiver to the chains. -/
def formatLen (v : RxVector1) (vhtLen n : ℕ) : ℕ :=
  let n := if v.isHt then n+3 else n
  let n := if v.aggregation then alignUp n 4+8 else n
  let n := if v.formatMod = FORMATMOD_VHT then n+vhtLen else n
  if v.formatMod = FORMATMOD_HE_SU then alignUp n 2+12 else n

theorem addRtapHdr_pos (v : RxVector1) : (addRtapHdr v).pos =
    formatLen v (if v.chBw = PHY_CHNL_BW_40 then 13 else 12) (addCommon v).pos+
      (if 1 < v.hweight then 2*v.chains.length else 0) := by
  unfold addRtapHdr addFormat formatLen
  rw [addRxChains_pos, addHe_pos, addVht_pos, addAmpdu_pos, addMcs_pos]
  dsimp only
  split_ifs <;> rfl

/-- The length up to the flags of the receiver, as it is computed. -/
def commonLen (v : RxVector1) : ℕ :=
  alignUp (alignUp (16+(if 1 < v.hweight then 4*v.hweight else 0)) 8+8+1+
    (if v.hweight = 1 then 1 else 0)) 2

theorem rtapHdrlen_eq (v : RxVector1) : rtapHdrlen v false =
    formatLen v 12 (commonLen v)+(if 1 < v.hweight then 2*v.hweight else 0) := by
  have hvht : v.formatMod = FORMATMOD_VHT → v.aggregation = true := fun h =>
    (aggregation_iff v).mpr (.inl h.ge)
  have halign : ∀ n, alignUp (alignUp n 4+8) 2 = alignUp n 4+8 := fun n => by
    unfold alignUp
    omega
  have hmany : (if 1 < v.hweight then 8+8+4*v.hweight else 8+8) =
      16+if 1 < v.hweight then 4*v.hweight else 0 := by split <;> rfl
  have hcommon (n : ℕ) : alignUp (if v.hweight = 1 then n+1 else n) 2 =
      alignUp (n+if v.hweight = 1 then 1 else 0) 2 := by split <;> rfl
  have hlen : rtapHdrlen v false =
      (let n := commonLen v
       let n := if v.isHt then n+3 else n
       let n := if v.aggregation then alignUp n 4+8 else n
       let n := if v.formatMod = FORMATMOD_VHT then alignUp n 2+12 else n
       let n := if v.formatMod = FORMATMOD_HE_SU then alignUp n 2+12 else n
       if 1 < v.hweight then n+2*v.hweight else n) := by
    rw [commonLen, ← hmany, ← hcommon]
    rfl
  rw [hlen]
  unfold formatLen
  dsimp only
  by_cases h4 : v.formatMod = FORMATMOD_VHT
  · rw [if_pos h4, if_pos h4, if_pos (hvht h4), halign]
    split_ifs <;> rfl
  · rw [if_neg h4, if_neg h4]
    split_ifs <;> rfl

/-- The difference at the flags of the receiver is not made up for. -/
theorem formatLen_lt (v : RxVector1) {x y b : ℕ} (hx : x % 8 = 0) (hy : y % 8 = 2)
    (hxy : x < y) (hb : b ≤ 13) : formatLen v b x < formatLen v 12 y := by
  have hht := isHt_iff v
  unfold formatLen alignUp
  dsimp only
  by_cases h4 : v.formatMod = FORMATMOD_VHT
  · have h5 : ¬ v.formatMod = FORMATMOD_HE_SU := by
      rw [h4]
      decide
    have hno : ¬ v.isHt = true := by
      rw [hht, h4]
      decide
    rw [if_neg hno, if_neg hno, if_pos h4, if_pos h4, if_neg h5, if_neg h5]
    split <;> omega
  · rw [if_neg h4, if_neg h4]
    split_ifs <;> omega

/-- The lengths do not agree: too much is computed for another number of antennas, and a byte too
few for 40 MHz. -/
theorem length_differs (h : ¬ Regular v) : (addRtapHdr v).pos ≠ rtapHdrlen v false := by
  have hle := chains_le v
  rw [addRtapHdr_pos, rtapHdrlen_eq, addCommon_pos]
  by_cases hone : v.hweight = 1
  · have h40 : v.formatMod = FORMATMOD_VHT ∧ v.chBw = PHY_CHNL_BW_40 :=
      not_not.mp fun hno => h ⟨hone, hno⟩
    have hno : ¬ v.isHt = true := by
      rw [isHt_iff, h40.1]
      decide
    have hagg : v.aggregation = true := (aggregation_iff v).mpr (.inl h40.1.ge)
    unfold formatLen commonLen extraWords
    rw [hone, h40.1, if_pos h40.2]
    simp only [hno, hagg, lt_irrefl, if_false]
    decide
  · apply Nat.ne_of_lt
    have hlt : alignUp (alignUp (8+4*extraWords v) 8+14+0) 2+2 < commonLen v ∧
        (alignUp (alignUp (8+4*extraWords v) 8+14+0) 2+2) % 8 = 0 ∧ commonLen v % 8 = 2 := by
      unfold commonLen extraWords alignUp
      rw [if_neg hone]
      split <;> omega
    have hb : (if v.chBw = PHY_CHNL_BW_40 then 13 else 12) ≤ 13 := by
      split <;> omega
    have hformat := formatLen_lt v hlt.2.1 hlt.2.2 hlt.1 hb
    rw [if_neg hone]
    by_cases hmany : 1 < v.hweight
    · rw [if_pos hmany, if_pos hmany]
      omega
    · rw [if_neg hmany, if_neg hmany]
      exact hformat

/-- For one antenna, except on VHT frames of 40 MHz. -/
theorem rtap_agrees_iff (v : RxVector1) : Agrees v ↔ Regular v :=
  ⟨fun h => not_not.mp fun hno => length_differs hno h.length, Regular.agrees⟩

/-- A VHT frame of 40 MHz that one antenna received, and a legacy frame that two did. -/
theorem forty_and_two_antennas : ¬ Agrees ⟨4, 1, 1, false⟩ ∧ ¬ Agrees ⟨0, 0, 3, false⟩ :=
  ⟨fun h => absurd h.length (length_differs fun hno => hno.2 ⟨rfl, rfl⟩),
    fun h => absurd h.length (length_differs fun hno => absurd hno.1 (by decide))⟩

end AIC.RadiotapHeader
