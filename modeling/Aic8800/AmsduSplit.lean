import Aic8800.RxAggregateFormat
import Aic8800.RxDataAmsdu

/-!
# The A-MSDU loop by its bytes

The loop of `rwnx_rxdataind_aicwf` once more, with what it copies out of the
frame and the frames it hands on. It is the loop of `RxDataInd` for a frame that
is not split again behind it. On what is laid out as an A-MSDU it hands on the
MSDUs, and on other bytes it is safe exactly if no sub-frame it comes to is too
short for an LLC header or too long once it is padded.
-/

set_option autoImplicit false

namespace AIC.AmsduSplit
open AIC.RxDataInd AIC.RxDataAmsdu Lib.LoopRun
open AIC.RxAggregate (u16 roundup)
open AIC.RxAggregateFormat (lowByte highByte)

/-- `noMem`: `skb_put` on NULL. `negative`: `memcpy` with a length below 0. -/
inductive Stop where
  | ended | noVif | noMem | negative
  deriving DecidableEq

def splitTurn (alloc : ℕ → Bool) (active : Bool) (i : ℕ) (skb : SkBuff) :
    Turn SkBuff (List UInt8) Stop :=
  if skb.len ≤ 16 then .stop .ended
  else if skb.len < subLen skb+14 then .stop .ended
  else if !alloc i then .stop .noMem
  else if subLen skb < 6 then .stop .negative
  else if !active then .stop .noVif
  else .next (skbPull (lenAligned skb) skb) [(subSkb skb).bytes]

/-- Bytes taken from the frame. -/
structure Copy where
  off : ℕ
  n : ℤ
  deriving DecidableEq

def copies (alloc : ℕ → Bool) (i : ℕ) (skb : SkBuff) : List Copy :=
  if skb.len ≤ 16 then []
  else ⟨12, 2⟩::
    if skb.len < subLen skb+14 || !alloc i then []
    else [⟨0, 6⟩, ⟨6, 6⟩, ⟨20, (subLen skb : ℤ)-6⟩]

def Copy.Inside (c : Copy) (len : ℕ) : Prop := 0 ≤ c.n ∧ c.off+c.n ≤ len

instance (c : Copy) (len : ℕ) : Decidable (c.Inside len) := inferInstanceAs (Decidable (_ ∧ _))

/-- The loop ends, and every copy on the way is one of bytes of the frame. -/
structure Safe (alloc : ℕ → Bool) (active : Bool) (skb : SkBuff) : Prop where
  ends : ∃ r out, Ends (splitTurn alloc active) 0 skb r out ∧ r ≠ .noMem
  inside : ∀ i s, Reaches (splitTurn alloc active) 0 skb i s →
    ∀ c ∈ copies alloc i s, c.Inside s.len

/-- Every sub-frame of the frame gets a buffer, has an LLC header, and leaves room
for its padding. Without an interface only the first one counts. -/
def Splits (alloc : ℕ → Bool) (active : Bool) (skb : SkBuff) : Prop :=
  ∀ i f, (subframes skb.len skb)[i]? = some f → active = true ∨ i = 0 →
    alloc i = true ∧ 6 ≤ subLen f ∧ (active = true → Advances f)

/-! ## The loop of the whole function -/

def Stop.orderly : Stop → Bool
  | .ended | .noVif => true
  | .noMem | .negative => false

section Function
variable {hw : Hw} {env : Env} {hdr : HwRxhdr} {active : Bool}

/-- Turn by turn it is the loop of `RxDataInd`. -/
theorem amsduTurn_stop (hvif : (getVif hw hdr.flagsVifIdx).isSome = active) (i : ℕ)
    (skb : SkBuff) (r : Stop) (h : splitTurn env.subAlloc active i skb = .stop r) :
    amsduTurn hw env hdr i skb = .stop r.orderly := by
  unfold splitTurn at h
  unfold amsduTurn
  by_cases hlen : skb.len ≤ 16
  · rw [if_pos hlen] at h ⊢
    obtain rfl := Turn.stop.inj h
    rfl
  rw [if_neg hlen] at h ⊢
  by_cases hpast : skb.len < subLen skb+14
  · rw [if_pos hpast] at h ⊢
    obtain rfl := Turn.stop.inj h
    rfl
  rw [if_neg hpast] at h ⊢
  cases ha : env.subAlloc i with
  | false =>
    rw [ha] at h
    obtain rfl := Turn.stop.inj h
    simp [Stop.orderly]
  | true =>
    simp only [ha, Bool.not_true, Bool.false_eq_true, if_false] at h
    by_cases hshort : subLen skb < 6
    · rw [if_pos hshort] at h
      obtain rfl := Turn.stop.inj h
      simp [hshort, Stop.orderly]
    · rw [if_neg hshort] at h
      cases hv : getVif hw hdr.flagsVifIdx with
      | none =>
        simp only [hv, Option.isSome_none] at hvif
        subst hvif
        obtain rfl := Turn.stop.inj h
        simp [hshort, Stop.orderly]
      | some vif =>
        simp only [hv, Option.isSome_some] at hvif
        subst hvif
        cases h

theorem amsduTurn_more (hsplit : hdr.flagsIsAmsdu = false)
    (hvif : (getVif hw hdr.flagsVifIdx).isSome = active) (i : ℕ) (skb skb' : SkBuff)
    (out : List (List UInt8)) (h : splitTurn env.subAlloc active i skb = .next skb' out) :
    ∃ o, amsduTurn hw env hdr i skb = .next skb' o := by
  unfold splitTurn at h
  split_ifs at h with hlen hpast ha hshort hact
  injection h with hskb _
  have hp : present skb = true := by
    simp only [present, Bool.and_eq_true, decide_eq_true_eq]
    omega
  have hread : Readable env i skb := ⟨by simpa using ha, by omega⟩
  have hact' : active = true := by simpa using hact
  rw [hact'] at hvif
  obtain ⟨vif, hv⟩ := Option.isSome_iff_exists.mp hvif
  have hnot : ¬ SplitFails hdr vif (env.amsduTo8023s i) := by
    intro hfail
    exact Bool.false_ne_true (hsplit.symm.trans hfail.1)
  exact ⟨[], by rw [amsduTurn_next i hp hread hv hnot, hskb]⟩

/-- There is a call that runs it. -/
theorem exists_call (alloc : ℕ → Bool) (active : Bool) :
    ∃ (hw : Hw) (env : Env) (hdr : HwRxhdr), env.subAlloc = alloc ∧
    hdr.flagsIsAmsdu = false ∧ (getVif hw hdr.flagsVifIdx).isSome = active := by
  let vif : Vif := ⟨0, .station, active, false⟩
  let hw : Hw := ⟨fun _ => some vif, fun _ => ⟨false, 0⟩, 0, [], MsduPool.init⟩
  let env : Env := ⟨true, 0, true, alloc, fun _ => .freed 0 false, true, 0, true⟩
  let hdr : HwRxhdr := ⟨false, false, false, false, false, 0, 0, 0, 0, 0⟩
  refine ⟨hw, env, hdr, rfl, rfl, ?_⟩
  cases active <;> rfl

/-- The walk over the sub-frames in the words of the whole function. -/
theorem splits_iff_fits (hsplit : hdr.flagsIsAmsdu = false)
    (hvif : (getVif hw hdr.flagsVifIdx).isSome = active) (skb : SkBuff) :
    Splits env.subAlloc active skb ↔ AmsduFits hw env hdr 0 (subframes skb.len skb) := by
  unfold Splits AmsduFits
  cases hv : getVif hw hdr.flagsVifIdx with
  | none =>
    simp only [hv, Option.isSome_none] at hvif
    subst hvif
    simp only [Bool.false_eq_true, false_or, false_implies, and_true]
    constructor
    · intro h f hf
      exact h 0 f (by rwa [← List.head?_eq_getElem?]) rfl
    · intro h i f hf hi
      subst hi
      exact h f (by rwa [Option.mem_def, List.head?_eq_getElem?])
  | some vif =>
    simp only [hv, Option.isSome_some] at hvif
    subst hvif
    have hnot : ∀ sp, ¬ SplitFails hdr vif sp := by
      intro sp hfail
      exact Bool.false_ne_true (hsplit.symm.trans hfail.1)
    simp only [true_or, forall_true_left, Nat.zero_add, hnot, not_false_eq_true, and_true,
      Readable, and_assoc]

end Function

/-- The loop ends as it should exactly if the sub-frames are in order. -/
theorem ends_orderly (alloc : ℕ → Bool) (active : Bool) (skb : SkBuff) :
    (∃ r out, Ends (splitTurn alloc active) 0 skb r out ∧ r.orderly = true) ↔
      Splits alloc active skb := by
  obtain ⟨hw, env, hdr, rfl, hsplit, hvif⟩ := exists_call alloc active
  rw [splits_iff_fits hsplit hvif]
  constructor
  · rintro ⟨r, out, he, hr⟩
    obtain ⟨o, ho⟩ := ends_map (amsduTurn_stop hvif) (amsduTurn_more hsplit hvif) he
    exact amsduFits_of_ends ho hr _
  · intro h
    obtain ⟨o, ho⟩ := amsdu_ends le_rfl h
    obtain ⟨r, out, he, hr⟩ := ends_of_map (amsduTurn_stop hvif) (amsduTurn_more hsplit hvif) ho
    exact ⟨r, out, he, hr⟩

/-! ## What is copied -/

/-- Only the bytes behind the LLC header can be too few. -/
theorem copies_inside (alloc : ℕ → Bool) (active : Bool) (i : ℕ) (skb : SkBuff) :
    (∀ c ∈ copies alloc i skb, c.Inside skb.len) ↔
      splitTurn alloc active i skb ≠ .stop .negative := by
  unfold copies splitTurn
  by_cases hlen : skb.len ≤ 16
  · simp [hlen]
  rw [if_neg hlen, if_neg hlen]
  by_cases hpast : skb.len < subLen skb+14
  · simp only [hpast, decide_true, Bool.true_or, if_true, List.mem_singleton, forall_eq,
      Copy.Inside, ne_eq, Turn.stop.injEq, reduceCtorEq, not_false_eq_true, iff_true]
    omega
  rw [if_neg hpast]
  cases alloc i with
  | false =>
    simp only [Bool.not_false, Bool.or_true, if_true, List.mem_singleton, forall_eq,
      Copy.Inside, ne_eq, Turn.stop.injEq, reduceCtorEq, not_false_eq_true, iff_true]
    omega
  | true =>
    simp only [hpast, decide_false, Bool.not_true, Bool.or_self, Bool.false_eq_true, if_false,
      List.mem_cons, List.not_mem_nil, or_false, forall_eq_or_imp, forall_eq, Copy.Inside]
    by_cases hshort : subLen skb < 6
    · simp only [hshort, if_true, ne_eq, not_true_eq_false, iff_false]
      omega
    · cases active <;> simp only [hshort, if_false, Bool.not_true, Bool.not_false, if_true,
        Bool.false_eq_true, ne_eq, Turn.stop.injEq, reduceCtorEq, not_false_eq_true, iff_true] <;>
      omega

/-- The splitting is safe for exactly the buffers whose sub-frames are in order. -/
theorem amsdu_split_safe (alloc : ℕ → Bool) (active : Bool) (skb : SkBuff) :
    Safe alloc active skb ↔ Splits alloc active skb := by
  rw [← ends_orderly]
  constructor
  · rintro ⟨⟨r, out, he, hmem⟩, hinside⟩
    refine ⟨r, out, he, ?_⟩
    obtain ⟨j, t, hreach, hstop⟩ := reaches_stop he
    have hneg := (copies_inside alloc active j t).mp (hinside j t hreach)
    rw [hstop] at hneg
    cases r with
    | ended => rfl
    | noVif => rfl
    | noMem => exact absurd rfl hmem
    | negative => exact absurd rfl hneg
  · rintro ⟨r, out, he, hr⟩
    refine ⟨⟨r, out, he, ?_⟩, ?_⟩
    · rintro rfl
      cases hr
    · intro i s hreach
      rw [copies_inside alloc active]
      intro hstop
      -- the loop would end there, and with the other result
      obtain ⟨rest, hrest⟩ := ends_of_reaches hreach he
      obtain ⟨hneg, _⟩ := ends_unique hrest (.stop hstop)
      rw [hneg] at hr
      cases hr


/-- The padding of the sub-frame would not fit. -/
def padless : SkBuff := SkBuff.ofList (List.replicate 13 0++[7]++List.replicate 8 0)

/-- Twenty bytes with a length field of 0, and a sub-frame of 21 bytes in 22. -/
theorem zero_length_and_stuck :
    ¬ Safe (fun _ => true) true (SkBuff.ofList (List.replicate 20 0)) ∧
      ∀ r out, ¬ Ends (splitTurn (fun _ => true) true) 0 padless r out := by
  constructor
  · intro h
    have hcopy := h.inside 0 _ .refl ⟨20, -6⟩ (by decide)
    exact absurd hcopy (by decide)
  · intro r out
    refine stuck_not_ends ?_
    intro k
    exact ⟨[(subSkb padless).bytes], rfl⟩

/-! ## Aggregates of MSDUs -/

/-- An MSDU and what follows it up to the next word. Its length fits the frame that it comes in. -/
structure Msdu where
  dst : List UInt8
  src : List UInt8
  etherType : List UInt8
  payload : List UInt8
  pad : List UInt8
  addresses : dst.length = 6 ∧ src.length = 6
  typed : etherType.length = 2
  short : payload.length ≤ 65510
  padded : (payload.length+22+pad.length) % 4 = 0 ∧ pad.length < 4

namespace Msdu
variable (m : Msdu)

def ethernet : List UInt8 := m.dst++m.src++m.etherType++m.payload

/-- What the length field counts: the LLC and SNAP headers and the payload. -/
def llcLen : ℕ := m.payload.length+8

def header : List UInt8 := m.dst++m.src++[highByte m.llcLen, lowByte m.llcLen]

def subframe : List UInt8 :=
  m.header++[0xAA, 0xAA, 0x03, 0, 0, 0]++m.etherType++m.payload

end Msdu

def encode : List Msdu → List UInt8
  | [] => []
  | [m] => m.subframe
  | m::m'::ms => m.subframe++m.pad++encode (m'::ms)

section OfList
variable {l : List UInt8}

theorem skbPull_ofList {n : ℕ} (h : n ≤ l.length) :
    skbPull n (SkBuff.ofList l) = SkBuff.ofList (l.drop n) := by
  rw [skbPull, if_pos (by exact h)]
  simp only [SkBuff.ofList, List.getD_eq_getElem?_getD, List.getElem?_drop, List.length_drop]

theorem slice_ofList {off n : ℕ} (h : off+n ≤ l.length) :
    (SkBuff.ofList l).slice off n = (l.drop off).take n := by
  apply List.ext_getElem
  · simp [SkBuff.slice]
    omega
  · intro i hi _
    have hin : i < n := by simpa [SkBuff.slice] using hi
    simp only [SkBuff.slice, SkBuff.ofList, List.getElem_map, List.getElem_range,
      List.getElem_take, List.getElem_drop]
    exact (List.getElem_eq_getD 0).symm

/-- The addresses and what is behind the LLC header. -/
theorem subSkb_bytes {skb : SkBuff} (h : 6 ≤ subLen skb) :
    (subSkb skb).bytes = skb.slice 0 12++skb.slice 20 (subLen skb-6) := by
  have hlen : subLen skb+6 = 12+(subLen skb-6) := by omega
  simp only [SkBuff.bytes, SkBuff.slice, subSkb, hlen, List.range_add, List.map_append,
    List.map_map, Nat.zero_add]
  have haddr : ∀ i ∈ List.range 12, (if i < 12 then skb.data i else skb.data (i+8)) =
      skb.data i := by
    intro i hi
    rw [if_pos (List.mem_range.mp hi)]
  rw [List.map_congr_left haddr]
  congr 1
  apply List.map_congr_left
  intro i _
  have hfar : ¬ 12+i < 12 := by omega
  have hoff : 12+i+8 = 20+i := by omega
  simp only [Function.comp_apply, hfar, if_false, hoff]

end OfList

section Subframe
variable (m : Msdu) (rest : List UInt8)

theorem header_length : m.header.length = 14 := by
  simp [Msdu.header, m.addresses]

theorem subframe_length : m.subframe.length = m.payload.length+22 := by
  simp [Msdu.subframe, header_length, m.typed]
  omega

theorem subLen_subframe : subLen (SkBuff.ofList (m.subframe++rest)) = m.llcLen := by
  have hshort := m.short
  have haddr : (m.dst++m.src).length = 12 := by simp [m.addresses]
  have hhigh : (m.subframe++rest).getD 12 0 = highByte m.llcLen := by
    simp [Msdu.subframe, Msdu.header, List.getD_eq_getElem?_getD, List.getElem?_append, m.addresses]
  have hlow : (m.subframe++rest).getD 13 0 = lowByte m.llcLen := by
    simp [Msdu.subframe, Msdu.header, List.getD_eq_getElem?_getD, List.getElem?_append, m.addresses]
  rw [subLen, SkBuff.ofList]
  dsimp only
  rw [hhigh, hlow, highByte, lowByte, UInt8.toNat_ofNat',
    UInt8.toNat_ofNat', Msdu.llcLen]
  omega

theorem subSkb_subframe : (subSkb (SkBuff.ofList (m.subframe++rest))).bytes = m.ethernet := by
  have hlen := subLen_subframe m rest
  have hsix : 6 ≤ subLen (SkBuff.ofList (m.subframe++rest)) := by
    rw [hlen, Msdu.llcLen]
    omega
  have haddr : (m.dst++m.src).length = 12 := by simp [m.addresses]
  have hheads : (m.header++[0xAA, 0xAA, 0x03, 0, 0, 0]).length = 20 := by simp [header_length]
  have hbody : (m.etherType++m.payload).length = m.llcLen-6 := by
    simp [m.typed, Msdu.llcLen]
    omega
  have htotal := subframe_length m
  rw [subSkb_bytes hsix, hlen, slice_ofList (by simp; omega),
    slice_ofList (by simp [Msdu.llcLen]; omega)]
  have hfirst : ((m.subframe++rest).drop 0).take 12 = m.dst++m.src := by
    rw [List.drop_zero, Msdu.subframe, Msdu.header]
    simp only [List.append_assoc]
    rw [← List.append_assoc m.dst, List.take_left' haddr]
  have hlast : ((m.subframe++rest).drop 20).take (m.llcLen-6) = m.etherType++m.payload := by
    rw [Msdu.subframe, List.append_assoc _ m.etherType, List.append_assoc, List.drop_left' hheads,
      List.take_left' hbody]
  rw [hfirst, hlast, Msdu.ethernet, List.append_assoc _ m.etherType]

/-- One turn on the first sub-frame: what is left begins behind it and its padding, or nothing is
left. -/
theorem splitTurn_subframe {alloc : ℕ → Bool} {k : ℕ} (ha : alloc k = true) {behind : List UInt8}
    (hlast : rest = [] ∧ behind = [] ∨ rest = m.pad++behind ∧ behind ≠ []) :
    splitTurn alloc true k (SkBuff.ofList (m.subframe++rest)) =
      .next (SkBuff.ofList behind) [m.ethernet] := by
  have hlen := subLen_subframe m rest
  have htotal := subframe_length m
  have hshort := m.short
  have hpad := m.padded
  have hskb : (SkBuff.ofList (m.subframe++rest)).len = m.payload.length+22+rest.length := by
    simp [SkBuff.ofList, htotal]
  have hlong : ¬ (SkBuff.ofList (m.subframe++rest)).len ≤ 16 := by omega
  have hin : ¬ (SkBuff.ofList (m.subframe++rest)).len <
      subLen (SkBuff.ofList (m.subframe++rest))+14 := by
    rw [hlen, hskb, Msdu.llcLen]
    omega
  have hllc : ¬ subLen (SkBuff.ofList (m.subframe++rest)) < 6 := by
    rw [hlen, Msdu.llcLen]
    omega
  have hpull : skbPull (lenAligned (SkBuff.ofList (m.subframe++rest)))
      (SkBuff.ofList (m.subframe++rest)) = SkBuff.ofList behind := by
    rw [lenAligned, hlen, hskb, Msdu.llcLen]
    obtain ⟨rfl, rfl⟩ | ⟨rfl, hne⟩ := hlast
    · have hstep : u16 (if m.payload.length+8+14 < m.payload.length+22+
          ([] : List UInt8).length then roundup (m.payload.length+8+14) 4
          else m.payload.length+8+14) = m.subframe.length := by
        rw [if_neg (by simp), u16]
        omega
      rw [hstep, skbPull_ofList (by simp), List.append_nil, List.drop_length]
    · have hpos := List.length_pos_of_ne_nil hne
      have hstep : u16 (if m.payload.length+8+14 < m.payload.length+22+(m.pad++behind).length then
          roundup (m.payload.length+8+14) 4 else m.payload.length+8+14) =
          (m.subframe++m.pad).length := by
        rw [if_pos (by simp; omega), u16, roundup, List.length_append]
        omega
      rw [hstep, ← List.append_assoc, skbPull_ofList (by simp), List.drop_left]
  rw [splitTurn, if_neg hlong, if_neg hin, ha, if_neg (by decide), if_neg hllc, if_neg (by decide),
    hpull, subSkb_subframe]

end Subframe

theorem encode_ne_nil (m : Msdu) (ms : List Msdu) : encode (m::ms) ≠ [] := by
  have hne : m.subframe ≠ [] := by
    rw [← List.length_pos_iff, subframe_length]
    omega
  cases ms with
  | nil => exact hne
  | cons m' ms =>
    rw [encode, List.append_assoc]
    exact List.append_ne_nil_of_left_ne_nil hne _

theorem encode_ends {alloc : ℕ → Bool} (ms : List Msdu) {k : ℕ}
    (ha : ∀ i < ms.length, alloc (k+i) = true) :
    Ends (splitTurn alloc true) k (SkBuff.ofList (encode ms)) .ended (ms.map Msdu.ethernet) := by
  induction ms generalizing k with
  | nil => exact .stop rfl
  | cons m ms ih =>
    have hrest : ∀ i < ms.length, alloc (k+1+i) = true := by
      intro i hi
      rw [Nat.add_right_comm, Nat.add_assoc]
      exact ha (i+1) (by simp only [List.length_cons]; omega)
    have hturn : splitTurn alloc true k (SkBuff.ofList (encode (m::ms))) =
        .next (SkBuff.ofList (encode ms)) [m.ethernet] := by
      have hk := ha 0 (by simp)
      cases ms with
      | nil =>
        have h := splitTurn_subframe m [] hk (.inl ⟨rfl, rfl⟩)
        rwa [List.append_nil] at h
      | cons m' ms =>
        rw [encode, List.append_assoc]
        exact splitTurn_subframe m _ hk (.inr ⟨rfl, encode_ne_nil m' ms⟩)
    exact .next hturn (ih hrest)

/-- What an aggregate of MSDUs is split into are the MSDUs, with an Ethernet header each. -/
theorem amsdu_split_encode (alloc : ℕ → Bool) (ms : List Msdu)
    (ha : ∀ i < ms.length, alloc i = true) :
    Ends (splitTurn alloc true) 0 (SkBuff.ofList (encode ms)) .ended (ms.map Msdu.ethernet) :=
  encode_ends ms (by simpa only [Nat.zero_add] using ha)

/-- One with 3 bytes of payload, padded to a word by 3 more. -/
def sampleMsdu (x : UInt8) : Msdu where
  dst := [1, 2, 3, 4, 5, 6]
  src := [7, 8, 9, 10, 11, 12]
  etherType := [8, 0]
  payload := [x, x, x]
  pad := [0xFF, 0xFF, 0xFF]
  addresses := by decide
  typed := by decide
  short := by simp
  padded := by simp

theorem two_msdus : Ends (splitTurn (fun _ => true) true) 0
    (SkBuff.ofList (encode [sampleMsdu 20, sampleMsdu 21])) .ended
    [[1, 2, 3, 4, 5, 6, 7, 8, 9, 10, 11, 12, 8, 0, 20, 20, 20],
      [1, 2, 3, 4, 5, 6, 7, 8, 9, 10, 11, 12, 8, 0, 21, 21, 21]] :=
  amsdu_split_encode (fun _ => true) [sampleMsdu 20, sampleMsdu 21] (by simp)

end AIC.AmsduSplit
