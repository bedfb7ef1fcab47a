import Aic8800.ChannelContext
import Aic8800.Lib.GuardedRun
import Aic8800.Lib.NarrowBitmap
import Mathlib.Tactic

/-!
# Index of an interface

Which index an interface is given in the driver. The free ones are the bits of a
map of 8 bits, while the loops over it count to as many virtual devices and
remote stations as the build has.
-/

set_option autoImplicit false

namespace AIC.InterfaceIndex
open AIC.ChannelContext (Iftype)
open Lib Lib.GuardedRun

/-- `bit` is the macro `BIT`, a word of 32 bits. A shift by 32 or more is not defined and may give
any word. -/
structure Build where
  virtDevMax : ℕ
  remoteStaMax : ℕ
  monData : Bool
  bit : ℕ → BitVec 32
  shift : ∀ i < 32, bit i = BitVec.twoPow 32 i

abbrev Addr := Fin 6 → BitVec 8

structure Vif where
  iftype : Iftype
  drvVifIndex : ℕ
  addr : Addr

structure Hw where
  availIdxMap : BitVec 8
  vifs : List Vif
  permAddr : Addr

inductive Outcome where
  | done
  | noIndex
  | failed
  deriving DecidableEq

section Source
variable (b : Build) (hw : Hw)

def minIdx : Iftype → ℕ
  | .apVlan => b.virtDevMax
  | _ => 0

def maxIdx : Iftype → ℕ
  | .apVlan => b.virtDevMax+b.remoteStaMax
  | _ => b.virtDevMax

/-- The indexes of a class. -/
def indexes (type : Iftype) : List ℕ := List.range' (minIdx b type) (maxIdx b type-minIdx b type)

def vifIdx (type : Iftype) : Option ℕ :=
  (indexes b type).find? fun i => NarrowBitmap.test hw.availIdxMap (b.bit i)

/-- The new interface is the last, and its index is no longer free. -/
def Hw.listVif (v : Vif) (i : ℕ) : Hw where
  availIdxMap := NarrowBitmap.clear hw.availIdxMap (b.bit i)
  vifs := hw.vifs++[v]
  permAddr := hw.permAddr

def ownAddr (i : ℕ) : Addr := Function.update hw.permAddr 5 (hw.permAddr 5 ^^^ BitVec.ofNat 8 i)

/-- An AP interface whose address is not the one given. -/
def masterFound (macaddr : Addr) : Bool :=
  hw.vifs.any fun v => decide (v.iftype = .ap) && decide (v.addr ≠ macaddr)

def rwnxInterfaceAdd (type : Iftype) (macaddr : Addr) (alloc register : Bool) : Hw × Outcome :=
  match vifIdx b hw type with
  | none => (hw, .noIndex)
  | some i =>
    if !b.monData && hw.vifs.any fun v => decide (v.iftype = .monitor ∨ type = .monitor) then
      (hw, .failed)
    else if !alloc then (hw, .failed)
    else if type = .apVlan ∧ masterFound hw macaddr = false then (hw, .failed)
    else if !register then (hw, .failed)
    else
      (hw.listVif b {
        iftype := type
        drvVifIndex := i % 256
        addr := if type = .apVlan then macaddr else ownAddr hw i } i, .done)

def rwnxVirtualInterfaceAdd (type : Iftype) (alloc : Bool) : Hw × Outcome :=
  match vifIdx b hw type with
  | none => (hw, .noIndex)
  | some i =>
    if !alloc then (hw, .failed)
    else
      (hw.listVif b {
        iftype := type
        drvVifIndex := i % 256
        addr := ownAddr hw i } i, .done)

def rwnxCfg80211AddIface (type : Iftype) (macaddr : Addr) (alloc register : Bool) : Hw × Outcome :=
  if type ≠ .p2pDevice then rwnxInterfaceAdd b hw type macaddr alloc register
  else rwnxVirtualInterfaceAdd b hw type alloc

/-- The interface at a place of the list. With and without a network device the list and the map
change in the same way. -/
def rwnxCfg80211DelIface (k : ℕ) (v : Vif) : Hw where
  availIdxMap := NarrowBitmap.set hw.availIdxMap (b.bit v.drvVifIndex)
  vifs := hw.vifs.eraseIdx k
  permAddr := hw.permAddr

/-- What `rwnx_cfg80211_init` does to the map, which is part of cleared memory. -/
def rwnxCfg80211Init (permAddr : Addr) : Hw where
  availIdxMap := (List.range (b.virtDevMax+b.remoteStaMax)).foldl
    (fun map i => NarrowBitmap.set map (b.bit i)) 0
  vifs := []
  permAddr := permAddr

end Source

inductive Act where
  | add (type : Iftype) (macaddr : Addr) (alloc register : Bool)
  | del (k : ℕ)

/-- Beside the state the one before the last step, and what came of that step and of what type. -/
structure Machine where
  before : Hw
  type : Iftype
  outcome : Outcome
  now : Hw

def step (b : Build) (m : Machine) : Act → Option Machine
  | .add type macaddr alloc register =>
    let r := rwnxCfg80211AddIface b m.now type macaddr alloc register
    some ⟨m.now, type, r.2, r.1⟩
  | .del k =>
    (m.now.vifs[k]?).map fun v => ⟨m.now, v.iftype, .done, rwnxCfg80211DelIface b m.now k v⟩

def init (b : Build) (permAddr : Addr) : Machine :=
  ⟨rwnxCfg80211Init b permAddr, .station, .done, rwnxCfg80211Init b permAddr⟩

/-! ## Indexes in use -/

structure Sound (b : Build) (m : Machine) : Prop where
  distinct : (m.now.vifs.map Vif.drvVifIndex).Nodup
  inClass : ∀ v ∈ m.now.vifs, v.drvVifIndex ∈ indexes b v.iftype
  failed : m.outcome ≠ .done → m.now.availIdxMap = m.before.availIdxMap
  /-- An addition lacks an index only where all of its class are in use. -/
  lacking : m.outcome = .noIndex →
    ∀ i ∈ indexes b m.type, i ∈ m.now.vifs.map Vif.drvVifIndex

/-- The map has a bit for an index of the class that is not in use, or for all of the class. -/
def Mapped (b : Build) (m : Machine) : Act → Prop
  | .add type _ _ _ => maxIdx b type ≤ 8 ∨
    ∃ i ∈ indexes b type, i < 8 ∧ i ∉ m.now.vifs.map Vif.drvVifIndex
  | .del _ => True

instance (b : Build) (m : Machine) (a : Act) : Decidable (Mapped b m a) := by
  cases a <;> unfold Mapped <;> infer_instance

section Invariant
variable {b : Build} {hw : Hw}

/-- The bits of the map are those of the indexes that are not in use, as far as it has bits. -/
structure Fit (b : Build) (hw : Hw) : Prop where
  distinct : (hw.vifs.map Vif.drvVifIndex).Nodup
  inClass : ∀ v ∈ hw.vifs, v.drvVifIndex ∈ indexes b v.iftype
  low : ∀ v ∈ hw.vifs, v.drvVifIndex < 8
  free : ∀ i < 8, hw.availIdxMap.getLsbD i = true ↔
    i < b.virtDevMax+b.remoteStaMax ∧ i ∉ hw.vifs.map Vif.drvVifIndex

theorem mem_indexes {type : Iftype} {i : ℕ} :
    i ∈ indexes b type ↔ minIdx b type ≤ i ∧ i < maxIdx b type := by
  rw [indexes, List.mem_range'_1]
  omega

theorem maxIdx_le (b : Build) (type : Iftype) : maxIdx b type ≤ b.virtDevMax+b.remoteStaMax := by
  cases type <;> simp [maxIdx]

theorem bit_low (b : Build) {i : ℕ} (hi : i < 8) (j : ℕ) :
    (b.bit i).getLsbD j = decide (i = j) := by
  rw [b.shift i (by omega), BitVec.getLsbD_twoPow]
  simp
  omega

theorem Fit.test (h : Fit b hw) {type : Iftype} {i : ℕ} (hi : i < 8) (hmem : i ∈ indexes b type) :
    NarrowBitmap.test hw.availIdxMap (b.bit i) = true ↔ i ∉ hw.vifs.map Vif.drvVifIndex := by
  have hlt := (mem_indexes.mp hmem).2
  have hmax := maxIdx_le b type
  rw [b.shift i (by omega), NarrowBitmap.test_bit (by omega), h.free i hi]
  exact and_iff_right (by omega)

/-- An index that is found is a free one, among the first eight. -/
theorem Fit.found (h : Fit b hw) {type : Iftype} (hmapped : maxIdx b type ≤ 8 ∨
    ∃ i ∈ indexes b type, i < 8 ∧ i ∉ hw.vifs.map Vif.drvVifIndex) {i : ℕ}
    (hi : vifIdx b hw type = some i) :
    i < 8 ∧ i ∈ indexes b type ∧ i ∉ hw.vifs.map Vif.drvVifIndex := by
  obtain ⟨htest, hmem, hfirst⟩ := List.find?_range'_eq_some.mp hi
  have hlow : i < 8 := by
    rcases hmapped with hall | ⟨j, hj, hj8, hunused⟩
    · exact Nat.lt_of_lt_of_le (mem_indexes.mp hmem).2 hall
    · have hle : i ≤ j := by
        by_contra hlt
        have hnot := hfirst j (mem_indexes.mp hj).1 (by omega)
        rw [(h.test hj8 hj).mpr hunused] at hnot
        cases hnot
      omega
  exact ⟨hlow, hmem, (h.test hlow hmem).mp htest⟩

/-- Where none is found they are all in use. -/
theorem Fit.none (h : Fit b hw) {type : Iftype} (hmapped : maxIdx b type ≤ 8 ∨
    ∃ i ∈ indexes b type, i < 8 ∧ i ∉ hw.vifs.map Vif.drvVifIndex)
    (hi : vifIdx b hw type = none) : ∀ i ∈ indexes b type, i ∈ hw.vifs.map Vif.drvVifIndex := by
  have hnone := List.find?_eq_none.mp hi
  rcases hmapped with hall | ⟨j, hj, hj8, hunused⟩
  · intro i hmem
    by_contra hunused
    exact hnone i hmem ((h.test (Nat.lt_of_lt_of_le (mem_indexes.mp hmem).2 hall) hmem).mpr hunused)
  · exact absurd ((h.test hj8 hj).mpr hunused) (hnone j hj)

theorem Fit.list (h : Fit b hw) {v : Vif} (hlow : v.drvVifIndex < 8)
    (hmem : v.drvVifIndex ∈ indexes b v.iftype)
    (hunused : v.drvVifIndex ∉ hw.vifs.map Vif.drvVifIndex) :
    Fit b (hw.listVif b v v.drvVifIndex) where
  distinct := by
    rw [Hw.listVif, List.map_append, List.map_singleton, ← List.concat_eq_append]
    exact List.Nodup.concat hunused h.distinct
  inClass u hu := by
    rcases List.mem_append.mp hu with hu | hu
    · exact h.inClass u hu
    · rw [List.mem_singleton.mp hu]
      exact hmem
  low u hu := by
    rcases List.mem_append.mp hu with hu | hu
    · exact h.low u hu
    · rw [List.mem_singleton.mp hu]
      exact hlow
  free i hi := by
    rw [Hw.listVif, NarrowBitmap.getLsbD_clear _ hi (by omega), bit_low b hlow i,
      Bool.and_eq_true, h.free i hi, List.map_append, List.mem_append, List.map_singleton,
      List.mem_singleton]
    simp only [Bool.not_eq_true', decide_eq_false_iff_not]
    tauto

theorem Fit.delete (h : Fit b hw) {k : ℕ} {v : Vif} (hv : hw.vifs[k]? = some v) :
    Fit b (rwnxCfg80211DelIface b hw k v) := by
  obtain ⟨hk, hget⟩ := List.getElem?_eq_some_iff.mp hv
  have hvmem : v ∈ hw.vifs := hget ▸ List.getElem_mem hk
  have hlow := h.low v hvmem
  have hsub : ∀ u ∈ hw.vifs.eraseIdx k, u ∈ hw.vifs := fun u hu => List.mem_of_mem_eraseIdx hu
  have herase : (hw.vifs.eraseIdx k).map Vif.drvVifIndex =
      (hw.vifs.map Vif.drvVifIndex).erase v.drvVifIndex := by
    have hkm : k < (hw.vifs.map Vif.drvVifIndex).length := by rwa [List.length_map]
    have hgetm : (hw.vifs.map Vif.drvVifIndex)[k] = v.drvVifIndex := by
      rw [List.getElem_map, hget]
    rw [← hgetm, h.distinct.erase_getElem k hkm, List.eraseIdx_map]
  have hin := (mem_indexes.mp (h.inClass v hvmem)).2
  have hmax := maxIdx_le b v.iftype
  refine ⟨?_, fun u hu => h.inClass u (hsub u hu), fun u hu => h.low u (hsub u hu), ?_⟩
  · rw [rwnxCfg80211DelIface, herase]
    exact h.distinct.erase _
  · intro i hi
    rw [rwnxCfg80211DelIface, NarrowBitmap.getLsbD_set _ hi (by omega), bit_low b hlow i, herase,
      h.distinct.mem_erase_iff, Bool.or_eq_true, h.free i hi, decide_eq_true_eq]
    by_cases hvi : v.drvVifIndex = i
    · subst hvi
      simp
      omega
    · simp [hvi, Ne.symm hvi]

theorem init_fit (b : Build) (permAddr : Addr) : Fit b (rwnxCfg80211Init b permAddr) := by
  refine ⟨List.nodup_nil, fun v hv => absurd hv List.not_mem_nil,
    fun v hv => absurd hv List.not_mem_nil, ?_⟩
  intro i hi
  have hbits := NarrowBitmap.getLsbD_sets (x := 0#8) b.bit
    (List.range (b.virtDevMax+b.remoteStaMax)) hi (by omega)
  rw [BitVec.getLsbD_zero, Bool.false_or] at hbits
  change (List.foldl _ 0#8 _).getLsbD i = true ↔ i < b.virtDevMax+b.remoteStaMax ∧ i ∉ []
  rw [hbits, List.any_eq_true]
  constructor
  · rintro ⟨k, hk, hbit⟩
    refine ⟨?_, List.not_mem_nil⟩
    have hkmax := List.mem_range.mp hk
    -- a shift that is not defined may set any bit, but comes behind all that there is room for
    by_cases hk8 : k < 8
    · rw [bit_low b hk8 i, decide_eq_true_eq] at hbit
      omega
    · omega
  · rintro ⟨hmax, -⟩
    exact ⟨i, List.mem_range.mpr hmax, by rw [bit_low b hi i, decide_eq_true_eq]⟩

/-- What an addition leaves behind: an interface more, or everything as it was. -/
structure Added (b : Build) (hw : Hw) (type : Iftype) (r : Hw × Outcome) : Prop where
  fit : Fit b r.1
  same : r.2 ≠ .done → r.1 = hw
  lacking : r.2 = .noIndex → ∀ i ∈ indexes b type, i ∈ hw.vifs.map Vif.drvVifIndex

theorem Fit.add (h : Fit b hw) {type : Iftype} (hmapped : maxIdx b type ≤ 8 ∨
    ∃ i ∈ indexes b type, i < 8 ∧ i ∉ hw.vifs.map Vif.drvVifIndex) (macaddr : Addr)
    (alloc register : Bool) :
    Added b hw type (rwnxCfg80211AddIface b hw type macaddr alloc register) := by
  have hfailed : Added b hw type (hw, .failed) := ⟨h, fun _ => rfl, fun hno => nomatch hno⟩
  have hdone : ∀ i addr, vifIdx b hw type = some i →
      Added b hw type (hw.listVif b ⟨type, i % 256, addr⟩ i, .done) := by
    intro i addr hi
    obtain ⟨hlow, hmem, hunused⟩ := h.found hmapped hi
    rw [Nat.mod_eq_of_lt (show i < 256 by omega)]
    exact ⟨h.list (v := ⟨type, i, addr⟩) hlow hmem hunused, fun hne => absurd rfl hne,
      fun hno => nomatch hno⟩
  unfold rwnxCfg80211AddIface rwnxInterfaceAdd rwnxVirtualInterfaceAdd
  cases hi : vifIdx b hw type with
  | none =>
    have hlack : Added b hw type (hw, .noIndex) := ⟨h, fun _ => rfl, fun _ => h.none hmapped hi⟩
    split_ifs <;> exact hlack
  | some i =>
    dsimp only
    split_ifs
    all_goals first
      | exact hfailed
      | exact hdone i _ hi

end Invariant

/-! ## Runs -/

/-- Along every run whose additions find the map wide enough. -/
theorem run_indexes_sound (b : Build) (permAddr : Addr) (acts : List Act)
    (h : Meets (step b) (Mapped b) (init b permAddr) acts) :
    Throughout (step b) (Sound b) (init b permAddr) acts := by
  refine throughout_of_meets (J := fun m => Fit b m.now ∧ Sound b m) ?_ (fun _ hm => hm.2) ?_ h
  · rintro m a m' hmapped hstep ⟨hfit, -⟩
    cases a with
    | add type macaddr alloc register =>
      obtain rfl := Option.some.inj hstep
      have hadd := hfit.add hmapped macaddr alloc register
      refine ⟨hadd.fit, hadd.fit.distinct, hadd.fit.inClass, ?_, ?_⟩
      · intro hne
        exact congrArg Hw.availIdxMap (hadd.same hne)
      · intro hno i hi
        have hne : (rwnxCfg80211AddIface b m.now type macaddr alloc register).2 ≠ .done := by
          intro hdone
          cases hdone.symm.trans hno
        change i ∈ (rwnxCfg80211AddIface b m.now type macaddr alloc register).1.vifs.map _
        rw [hadd.same hne]
        exact hadd.lacking hno i hi
    | del k =>
      obtain ⟨v, hv, rfl⟩ := Option.map_eq_some_iff.mp hstep
      have hfit' := hfit.delete hv
      exact ⟨hfit', hfit'.distinct, hfit'.inClass, fun hne => absurd rfl hne,
        fun hno => nomatch hno⟩
  · have hfit := init_fit b permAddr
    exact ⟨hfit, hfit.distinct, hfit.inClass, fun hne => absurd rfl hne, fun hno => nomatch hno⟩

/-- Four virtual devices and 32 remote stations, with shifts that lose what they shift out. -/
def wide : Build where
  virtDevMax := 4
  remoteStaMax := 32
  monData := true
  bit := BitVec.twoPow 32
  shift _ _ := rfl

/-- An AP interface and VLANs of it, one of which is deleted and made again. -/
def vlans : List Act :=
  [.add .ap 0 true true, .add .apVlan 1 true true, .add .apVlan 2 true true, .del 1,
    .add .apVlan 3 true false, .add .apVlan 4 true true]

theorem vlans_sound : Throughout (step wide) (Sound wide) (init wide 0) vlans :=
  run_indexes_sound wide 0 vlans (by decide +kernel)

/-- The fifth VLAN finds no index, with 28 of its class not in use. -/
theorem fifth_vlan_lacks : ∃ m, exec (step wide) (init wide 0)
    (.add .ap 0 true true::List.replicate 5 (.add .apVlan 1 true true)) = some m ∧
      m.outcome = .noIndex ∧ ¬ Sound wide m := by
  have hrun : ∃ m ∈ exec (step wide) (init wide 0)
      (.add .ap 0 true true::List.replicate 5 (.add .apVlan 1 true true)),
      m.outcome = .noIndex ∧ m.type = .apVlan ∧ 8 ∉ m.now.vifs.map Vif.drvVifIndex := by
    decide +kernel
  obtain ⟨m, hm, hout, htype, hunused⟩ := hrun
  refine ⟨m, hm, hout, ?_⟩
  intro h
  refine hunused (h.lacking hout 8 ?_)
  rw [htype]
  decide

end AIC.InterfaceIndex
