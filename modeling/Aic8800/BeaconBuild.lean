import Aic8800.Lib.GuardedRun
import Mathlib.Algebra.Order.Ring.Nat

/-!
# The beacon of an access point

`rwnx_build_bcn` copies the parts of an update into the record before it builds the
buffer, with an allocation before each piece. What `kmalloc` gives comes with each call.
-/

set_option autoImplicit false

namespace AIC.BeaconBuild
open Lib.GuardedRun

def WLAN_EID_TIM : UInt8 := 5

/-- A pointer, with the bytes it points to. -/
abbrev Part := Option (List UInt8)

/-- `struct rwnx_bcn`. -/
structure RwnxBcn where
  head : Part
  tail : Part
  ies : Part
  headLen : ℕ
  tailLen : ℕ
  iesLen : ℕ
  timLen : ℕ
  len : ℕ
  dtim : UInt8
  deriving DecidableEq

/-- `struct cfg80211_beacon_data`; the lengths are those of the parts. -/
structure BeaconData where
  head : Part
  tail : Part
  deriving DecidableEq

/-- How often memory was allocated and freed. -/
structure Heap where
  made : ℕ
  freed : ℕ
  deriving DecidableEq

namespace Heap
variable (heap : Heap)

def kmalloc : Heap := { heap with made := heap.made+1 }

def kfree : Heap := { heap with freed := heap.freed+1 }

/-- A part that is there is freed. -/
def drop (part : Part) : Heap := if part.isSome then heap.kfree else heap

/-- A copy of the new part, if there is one, takes the place of the old one. -/
def put (new old : Part) : Heap := if new.isSome then heap.kmalloc.drop old else heap

end Heap

namespace RwnxBcn
variable (bcn : RwnxBcn)

/-- After `memset`, or after `rwnx_del_bcn`. -/
def blank : RwnxBcn := ⟨none, none, none, 0, 0, 0, 0, 0, 0⟩

def putHead (new : BeaconData) : RwnxBcn :=
  match new.head with
  | none => bcn
  | some head => { bcn with head := some head, headLen := head.length }

def putTail (new : BeaconData) : RwnxBcn :=
  match new.tail with
  | none => bcn
  | some tail => { bcn with tail := some tail, tailLen := tail.length }

def measured : RwnxBcn :=
  { bcn with
    timLen := 6
    len := bcn.headLen+bcn.tailLen+bcn.iesLen+6 }

/-- What is copied to the buffer of `bcn->len` bytes. -/
def copied : List UInt8 :=
  (bcn.head.getD []).take bcn.headLen++[WLAN_EID_TIM, 4, 0, bcn.dtim, 0, 0]++
    (bcn.tail.getD []).take bcn.tailLen++(bcn.ies.getD []).take bcn.iesLen

end RwnxBcn

/-- The allocations of `rwnx_build_bcn` that fail. -/
structure BuildFails where
  head : Bool
  tail : Bool
  buf : Bool

structure Built where
  bcn : RwnxBcn
  heap : Heap
  buf : Part
  deriving DecidableEq

/-- `rwnx_build_bcn`. -/
def buildBcn (f : BuildFails) (heap : Heap) (bcn : RwnxBcn) (new : BeaconData) : Built :=
  if new.head.isSome && f.head then ⟨bcn, heap, none⟩
  else
    let heap := heap.put new.head bcn.head
    let bcn := bcn.putHead new
    if new.tail.isSome && f.tail then ⟨bcn, heap, none⟩
    else
      let heap := heap.put new.tail bcn.tail
      let bcn := bcn.putTail new
      if bcn.head.isNone then ⟨bcn, heap, none⟩
      else if f.buf then ⟨bcn.measured, heap, none⟩
      else ⟨bcn.measured, heap.kmalloc, some bcn.measured.copied⟩

/-- `rwnx_del_bcn`. -/
def delBcn (heap : Heap) (bcn : RwnxBcn) : Heap × RwnxBcn :=
  (((heap.drop bcn.head).drop bcn.tail).drop bcn.ies, .blank)

/-- A call of `rwnx_build_bcn`. -/
structure Call where
  before : RwnxBcn
  new : BeaconData
  built : Built

structure State where
  bcn : RwnxBcn
  heap : Heap
  last : Option Call

/-- `start` is that of the access point, which sets the dtim before it builds the beacon. -/
inductive Act where
  | start (dtim : UInt8)
  | build (f : BuildFails) (new : BeaconData)
  | del

def step (s : State) : Act → Option State
  | .start dtim => some { s with bcn := { s.bcn with dtim := dtim }, last := none }
  | .build f new =>
    let b := buildBcn f s.heap s.bcn new
    some ⟨b.bcn, b.heap, some ⟨s.bcn, new, b⟩⟩
  | .del => some ⟨(delBcn s.heap s.bcn).2, (delBcn s.heap s.bcn).1, none⟩

def start : State := ⟨.blank, ⟨0, 0⟩, none⟩

/-! ## What a call is to do -/

/-- The parts, with a TIM element between. -/
def frame (bcn : RwnxBcn) : List UInt8 :=
  bcn.head.getD []++[WLAN_EID_TIM, 4, 0, bcn.dtim, 0, 0]++bcn.tail.getD []++bcn.ies.getD []

/-- A buffer holds the beacon of the parts, the new ones or the previous ones. Without a buffer
the record is as it was. -/
structure Right (c : Call) : Prop where
  parts : c.built.buf.isSome = true → c.built.bcn.head = c.new.head.or c.before.head ∧
    c.built.bcn.tail = c.new.tail.or c.before.tail ∧ c.built.bcn.ies = c.before.ies ∧
      c.built.bcn.dtim = c.before.dtim
  bytes : ∀ buf ∈ c.built.buf, buf = frame c.built.bcn ∧ buf.length = c.built.bcn.len
  kept : c.built.buf = none → c.built.bcn = c.before

def AllRight (s : State) : Prop := ∀ c ∈ s.last, Right c

def SameHead (bcn : RwnxBcn) (new : BeaconData) : Prop := ∀ head ∈ new.head, bcn.head = some head

def SameTail (bcn : RwnxBcn) (new : BeaconData) : Prop := ∀ tail ∈ new.tail, bcn.tail = some tail

/-- The beacon of the record has these parts already. -/
def Unchanged (bcn : RwnxBcn) (new : BeaconData) : Prop :=
  SameHead bcn new ∧ SameTail bcn new ∧ bcn.measured = bcn

/-- Where no buffer is returned, no part with other bytes was copied before. -/
def BuildSafe (f : BuildFails) (bcn : RwnxBcn) (new : BeaconData) : Prop :=
  if new.head.isSome && f.head then True
  else if new.tail.isSome && f.tail then SameHead bcn new
  else if (new.head.or bcn.head).isNone then SameTail bcn new
  else f.buf = true → Unchanged bcn new

def Safe (s : State) : Act → Prop
  | .build f new => BuildSafe f s.bcn new
  | .start _ | .del => True

/-! ## The record -/

/-- The lengths are those of the parts. -/
structure Fits (bcn : RwnxBcn) : Prop where
  head : bcn.headLen = (bcn.head.getD []).length
  tail : bcn.tailLen = (bcn.tail.getD []).length
  ies : bcn.iesLen = (bcn.ies.getD []).length

section Record
variable {f : BuildFails} {heap : Heap} {bcn : RwnxBcn} {new : BeaconData}

theorem Fits.putHead (h : Fits bcn) : Fits (bcn.putHead new) := by
  unfold RwnxBcn.putHead
  split
  · exact h
  · exact ⟨rfl, h.tail, h.ies⟩

theorem Fits.putTail (h : Fits bcn) : Fits (bcn.putTail new) := by
  unfold RwnxBcn.putTail
  split
  · exact h
  · exact ⟨h.head, rfl, h.ies⟩

theorem Fits.measured (h : Fits bcn) : Fits bcn.measured := ⟨h.head, h.tail, h.ies⟩

/-- The buffer is filled from its start to its end. -/
theorem Fits.copied (h : Fits bcn) :
    bcn.measured.copied = frame bcn.measured ∧ (frame bcn.measured).length = bcn.measured.len := by
  constructor
  · unfold RwnxBcn.copied frame
    rw [h.measured.head, h.measured.tail, h.measured.ies, List.take_length, List.take_length,
      List.take_length]
  · have hhead : bcn.headLen = (bcn.head.getD []).length := h.head
    have htail : bcn.tailLen = (bcn.tail.getD []).length := h.tail
    have hies : bcn.iesLen = (bcn.ies.getD []).length := h.ies
    simp only [frame, RwnxBcn.measured, List.length_append, List.length_cons, List.length_nil]
    omega

theorem putHead_head : (bcn.putHead new).head = new.head.or bcn.head := by
  unfold RwnxBcn.putHead
  cases new.head <;> rfl

theorem putTail_tail : (bcn.putTail new).tail = new.tail.or bcn.tail := by
  unfold RwnxBcn.putTail
  cases new.tail <;> rfl

theorem putTail_head : (bcn.putTail new).head = bcn.head := by
  unfold RwnxBcn.putTail
  cases new.tail <;> rfl

theorem putHead_tail : (bcn.putHead new).tail = bcn.tail := by
  unfold RwnxBcn.putHead
  cases new.head <;> rfl

theorem Fits.putHead_eq_iff (h : Fits bcn) : bcn.putHead new = bcn ↔ SameHead bcn new := by
  unfold RwnxBcn.putHead SameHead
  cases new.head with
  | none => exact iff_of_true rfl nofun
  | some head =>
    constructor
    · intro heq part hpart
      obtain rfl := Option.some.inj hpart
      exact (congrArg RwnxBcn.head heq).symm
    · intro hsame
      have hhead : bcn.head = some head := hsame head rfl
      have hlen : bcn.headLen = head.length := by rw [h.head, hhead, Option.getD_some]
      show { bcn with head := some head, headLen := head.length } = bcn
      rw [← hlen, ← hhead]

theorem Fits.putTail_eq_iff (h : Fits bcn) : bcn.putTail new = bcn ↔ SameTail bcn new := by
  unfold RwnxBcn.putTail SameTail
  cases new.tail with
  | none => exact iff_of_true rfl nofun
  | some tail =>
    constructor
    · intro heq part hpart
      obtain rfl := Option.some.inj hpart
      exact (congrArg RwnxBcn.tail heq).symm
    · intro hsame
      have htail : bcn.tail = some tail := hsame tail rfl
      have hlen : bcn.tailLen = tail.length := by rw [h.tail, htail, Option.getD_some]
      show { bcn with tail := some tail, tailLen := tail.length } = bcn
      rw [← hlen, ← htail]

/-- The record after an update. -/
def updated (bcn : RwnxBcn) (new : BeaconData) : RwnxBcn := ((bcn.putHead new).putTail new).measured

theorem Fits.updated_eq_iff (h : Fits bcn) : updated bcn new = bcn ↔ Unchanged bcn new := by
  constructor
  · intro heq
    have hhead : (updated bcn new).head = bcn.head := congrArg RwnxBcn.head heq
    have htail : (updated bcn new).tail = bcn.tail := congrArg RwnxBcn.tail heq
    have hsame : SameHead bcn new := by
      intro part hpart
      have hput : ((bcn.putHead new).putTail new).head = bcn.head := hhead
      rw [putTail_head, putHead_head, Option.mem_def.mp hpart] at hput
      exact hput.symm
    have hsame' : SameTail bcn new := by
      intro part hpart
      have hput : ((bcn.putHead new).putTail new).tail = bcn.tail := htail
      rw [putTail_tail, Option.mem_def.mp hpart] at hput
      exact hput.symm
    refine ⟨hsame, hsame', ?_⟩
    rwa [updated, h.putHead_eq_iff.mpr hsame, h.putTail_eq_iff.mpr hsame'] at heq
  · rintro ⟨hhead, htail, hmeasured⟩
    rw [updated, h.putHead_eq_iff.mpr hhead, h.putTail_eq_iff.mpr htail]
    exact hmeasured

/-! ## One call -/

/-- No allocation fails, and there is a head. -/
def BuildOk (f : BuildFails) (bcn : RwnxBcn) (new : BeaconData) : Prop :=
  ¬ (new.head.isSome && f.head) = true ∧ ¬ (new.tail.isSome && f.tail) = true ∧
    ¬ (new.head.or bcn.head).isNone = true ∧ f.buf = false

theorem buildBcn_some {buf : List UInt8} (h : (buildBcn f heap bcn new).buf = some buf) :
    BuildOk f bcn new ∧ (buildBcn f heap bcn new).bcn = updated bcn new ∧
      buf = (updated bcn new).copied := by
  unfold buildBcn at h ⊢
  dsimp only at h ⊢
  split_ifs at h ⊢ with hhead htail hnone hbuf
  rw [putTail_head, putHead_head] at hnone
  exact ⟨⟨hhead, htail, hnone, Bool.eq_false_iff.mpr hbuf⟩, rfl, (Option.some.inj h).symm⟩

theorem buildBcn_ok (h : BuildOk f bcn new) :
    (buildBcn f heap bcn new).buf = some (updated bcn new).copied := by
  obtain ⟨hhead, htail, hnone, hbuf⟩ := h
  unfold buildBcn
  dsimp only
  rw [if_neg hhead, if_neg htail, putTail_head, putHead_head, if_neg hnone, hbuf]
  rfl

/-- A record for which no buffer is returned is as it was. -/
theorem Fits.safe_iff (h : Fits bcn) : BuildSafe f bcn new ↔
    ((buildBcn f heap bcn new).buf = none → (buildBcn f heap bcn new).bcn = bcn) := by
  unfold BuildSafe buildBcn
  dsimp only
  by_cases hhead : (new.head.isSome && f.head) = true
  · simp [hhead]
  rw [if_neg hhead, if_neg hhead]
  by_cases htail : (new.tail.isSome && f.tail) = true
  · rw [if_pos htail, if_pos htail]
    exact h.putHead_eq_iff.symm.trans ⟨fun heq _ => heq, fun heq => heq rfl⟩
  rw [if_neg htail, if_neg htail, putTail_head, putHead_head]
  by_cases hnone : (new.head.or bcn.head).isNone = true
  · have hnew : new.head = none := by
      cases hnew : new.head with
      | none => rfl
      | some head =>
        rw [hnew] at hnone
        cases hnone
    have hput : bcn.putHead new = bcn := h.putHead_eq_iff.mpr (by rw [SameHead, hnew]; nofun)
    rw [if_pos hnone, if_pos hnone, hput]
    exact h.putTail_eq_iff.symm.trans ⟨fun heq _ => heq, fun heq => heq rfl⟩
  · rw [if_neg hnone, if_neg hnone]
    cases hbuf : f.buf
    · simp
    · exact (forall_prop_of_true rfl).trans
        (h.updated_eq_iff.symm.trans ⟨fun heq _ => heq, fun heq => heq rfl⟩)

theorem Fits.build (h : Fits bcn) : Fits (buildBcn f heap bcn new).bcn := by
  unfold buildBcn
  dsimp only
  split_ifs
  · exact h
  · exact h.putHead
  · exact h.putHead.putTail
  · exact h.putHead.putTail.measured
  · exact h.putHead.putTail.measured

theorem updated_ies : (updated bcn new).ies = bcn.ies ∧ (updated bcn new).dtim = bcn.dtim := by
  unfold updated RwnxBcn.measured RwnxBcn.putTail RwnxBcn.putHead
  cases new.head <;> cases new.tail <;> exact ⟨rfl, rfl⟩

theorem Fits.right_iff (h : Fits bcn) :
    Right ⟨bcn, new, buildBcn f heap bcn new⟩ ↔ BuildSafe f bcn new := by
  have hsafe : BuildSafe f bcn new ↔ ((buildBcn f heap bcn new).buf = none →
      (buildBcn f heap bcn new).bcn = bcn) := h.safe_iff
  rw [hsafe]
  refine ⟨Right.kept, fun hkept => ⟨fun hsome => ?_, fun buf hbuf => ?_, hkept⟩⟩
  · obtain ⟨buf, hbuf⟩ := Option.isSome_iff_exists.mp hsome
    obtain ⟨-, hbcn, -⟩ := buildBcn_some hbuf
    dsimp only
    rw [hbcn]
    refine ⟨?_, ?_, updated_ies⟩
    · show ((bcn.putHead new).putTail new).head = _
      rw [putTail_head, putHead_head]
    · show ((bcn.putHead new).putTail new).tail = _
      rw [putTail_tail, putHead_tail]
  · obtain ⟨-, hbcn, hcopied⟩ := buildBcn_some hbuf
    have hfits : Fits ((bcn.putHead new).putTail new) := h.putHead.putTail
    obtain ⟨hframe, hlen⟩ := hfits.copied
    dsimp only
    rw [hbcn, hcopied]
    exact ⟨hframe, by rw [updated, hframe, hlen]⟩

end Record

/-! ## Runs -/

theorem step_fits {s t : State} {a : Act} (h : step s a = some t) (hs : Fits s.bcn) :
    Fits t.bcn := by
  cases a <;> obtain rfl := Option.some.inj h
  · exact ⟨hs.head, hs.tail, hs.ies⟩
  · exact hs.build
  · exact ⟨rfl, rfl, rfl⟩

theorem step_right_iff {s : State} (hs : Fits s.bcn) (a : Act) :
    (∀ t ∈ step s a, AllRight t) ↔ Safe s a := by
  cases a with
  | start dtim => simp [step, AllRight, Safe]
  | build f new => simpa [step, AllRight, Safe] using hs.right_iff
  | del => simp [step, AllRight, Safe]

/-- Every call of a run does what it is to do exactly if no call fails behind a part that it
copied with other bytes. -/
theorem run_right_iff (acts : List Act) :
    Throughout step AllRight start acts ↔ Meets step Safe start acts :=
  throughout_iff (J := fun s => Fits s.bcn ∧ AllRight s)
    (fun _ a t ha ht hs => ⟨step_fits ht hs.1, (step_right_iff hs.1 a).mpr ha t ht⟩)
    (fun _ hs => hs.2) (fun _ a hs hall => (step_right_iff hs.1 a).mp hall)
    ⟨⟨rfl, rfl, rfl⟩, fun c hc => absurd hc (Option.not_mem_none c)⟩ acts

def noFails : BuildFails := ⟨false, false, false⟩

/-- A new head is kept although there is no memory for the tail of its update. -/
theorem mixed_beacon : ¬ Throughout step AllRight start
    [.start 2, .build noFails ⟨some [1], some [2]⟩,
      .build ⟨false, true, false⟩ ⟨some [3], some [4]⟩] := by
  intro h
  have hright := h _ (List.prefix_refl _) _ rfl _ rfl
  exact absurd (hright.kept rfl) (by decide)

end AIC.BeaconBuild
