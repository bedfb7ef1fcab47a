import Aic8800.Lib.TableAccess
import Aic8800.RxDataConsumed

/-!
# The indexes taken from a received frame

`rwnx_rxdataind_aicwf` once more, reduced to the accesses whose index comes
from the frame or its descriptor: the bytes read at fixed offsets, the tables
of stations and interfaces, the reorder controls of a station. The exact
condition under which none of them leaves its table or the frame. Reads of the
Ethernet header that the function itself has put in front are left out.
-/

set_option autoImplicit false

namespace AIC.RxDataAccess
open AIC.ReorderMachine AIC.MsduPool AIC.RxDataInd AIC.RxDataOwnership AIC.RxDataAmsdu
open AIC.RxDataConsumed Lib.TableAccess
open AIC.DefragMachine (RxFrame DefragCtrlInfo findDefrag)

def NX_REMOTE_STA_MAX : ℕ := 32

/-- Bytes read are told by the length of their buffer. -/
inductive Table where
  | skbData (len : ℕ)
  | preorderCtrl | staTable | vifTable
  deriving DecidableEq

def Table.size : Table → ℕ
  | .skbData len => len
  | .preorderCtrl => 8
  | .staTable => NX_REMOTE_STA_MAX+NX_VIRT_DEV_MAX
  | .vifTable => NX_VIRT_DEV_MAX+NX_REMOTE_STA_MAX

abbrev Accesses := List (Table × ℕ)

def reads (skb : SkBuff) (off n : ℕ) : Accesses := block (.skbData skb.len) off n

/-! ## The accesses, in the order of the source -/

def addressReads (f : RxFrame) : Accesses :=
  if f.byte 1 &&& 0x3 = 0x1 then reads f.skb 16 6++reads f.skb 10 6
  else if f.byte 1 &&& 0x3 = 0x2 then reads f.skb 16 6++reads f.skb 4 6 else []

def headerReads (f : RxFrame) : Accesses :=
  reads f.skb 0 2++reads f.skb 22 2++
    if f.isData then
      (if f.isQos then reads f.skb 24 1 else [])++addressReads f++
        reads f.skb (f.hdrLen+6+f.cipherLen) 2
    else []

def getVifAccess (vifIdx : ℕ) : Accesses :=
  if vifIdx < NX_VIRT_DEV_MAX then [(.vifTable, vifIdx)] else []

def dstAccess (hdr : HwRxhdr) : Accesses :=
  if hdr.flagsDstIdx ≠ RWNX_INVALID_STA then [(.staTable, hdr.flagsDstIdx)] else []

def rxDataSkbAccess (hdr : HwRxhdr) (vif : Vif) (skb : SkBuff) (split : Split) : Accesses :=
  if hdr.flagsIsAmsdu && split.count == 0 && vif.peeks then []
  else
    let mcast := if hdr.flagsIsAmsdu then split.mcast else isMcast skb
    if vif.isAp && !vif.apIsolate then if mcast then [] else dstAccess hdr else []

section Loop
variable (hw : Hw) (env : Env) (hdr : HwRxhdr)

def amsduTurnAccess (i : ℕ) (skb : SkBuff) : Accesses :=
  if skb.len ≤ 16 then []
  else reads skb 12 2++
    if skb.len < subLen skb+14 || !env.subAlloc i then []
    else reads skb 0 12++
      if subLen skb < 6 then []
      else reads skb 20 (subLen skb-6)++getVifAccess hdr.flagsVifIdx++
        match getVif hw hdr.flagsVifIdx with
        | none => []
        | some vif => rxDataSkbAccess hdr vif (subSkb skb) (env.amsduTo8023s i)

def amsduAccess : ℕ → ℕ → SkBuff → Accesses
  | 0, _, _ => []
  | fuel+1, i, skb => amsduTurnAccess hw env hdr i skb++
    match amsduTurn hw env hdr i skb with
    | .stop _ => []
    | .next s _ => amsduAccess fuel (i+1) s

end Loop

def unitAccess (c : PoolCtrl) (u : RxUnit) : Accesses :=
  if (c.needCheck u.seqNum).2 then [(.skbData u.skb.len, 42)] else []

def processUnitAccess (kmalloc : Bool) (p : Pool) (u : RxUnit) : Accesses :=
  match p.rwnxVif with
  | none => []
  | some t =>
    if u.skb.len ≤ 14 then []
    else
      match p.rxframesFreequeue with
      | [] => []
      | _::_ =>
        if ethProto u.skb = ETH_P_PAE ∨ isMcast u.skb then []
        else
          match reordMac t u.skb with
          | none => []
          | some mac =>
            match lookupInfo kmalloc p mac with
            | none => []
            | some (_, info) =>
              (.preorderCtrl, u.tid)::unitAccess (info.preorderCtrl u.tid).reenable u

def flushTidAccess (p : Pool) (skb : SkBuff) (tid : ℕ) : Accesses :=
  match p.rwnxVif with
  | none => []
  | some t =>
    match reordMac t skb with
    | none => []
    | some mac =>
      match findInfo mac p.stasReordList with
      | none => []
      | some _ => [(.preorderCtrl, tid)]

section Branch
variable (hw : Hw) (env : Env) (hdr : HwRxhdr) (vif : Vif) (r : Ready)

def reordAccess (forward : Bool) : Accesses :=
  if r.isQos then
    if hdr.flagsNeedReord then
      processUnitAccess env.kmalloc (poolFor hw vif) ⟨r.skb, r.seqNum, r.tid, forward⟩
    else flushTidAccess (poolFor hw vif) r.skb r.tid
  else []

def staBranchAccess : Accesses :=
  reordAccess hw env hdr vif r true++
    if r.isQos && hdr.flagsNeedReord then []
    else rxDataSkbAccess hdr vif r.skb (env.amsduTo8023s 0)

def apBranchAccess : Accesses :=
  (if isMcast r.skb then [] else dstAccess hdr)++
    reordAccess hw env hdr vif r (isMcast r.skb || !inBss hw hdr vif)

def branchAccess : Accesses :=
  match vif.iftype with
  | .station | .p2pClient => staBranchAccess hw env hdr vif r
  | .ap | .p2pGo => apBranchAccess hw env hdr vif r
  | _ => []

end Branch

def vlanAccess (hw : Hw) (hdr : HwRxhdr) (vif : Vif) : Accesses :=
  if hdr.flagsStaIdx = RWNX_INVALID_STA then []
  else (.staTable, hdr.flagsStaIdx)::
    if (hw.staTable hdr.flagsStaIdx).vlanIdx = vif.vifIndex then []
    else [(.vifTable, (hw.staTable hdr.flagsStaIdx).vlanIdx)]

section Upload
variable (hw : Hw) (env : Env) (hdr : HwRxhdr) (f : RxFrame)

def deliverAccess : Accesses :=
  getVifAccess hdr.flagsVifIdx++
    match getVif hw hdr.flagsVifIdx with
    | none => []
    | some vif => vlanAccess hw hdr vif++
      match vlanVif hw hdr vif with
      | none => []
      | some v => branchAccess hw env hdr v (readyOf f)

def wholeAccess : Accesses := if f.flagsIs80211Mpdu then [] else deliverAccess hw env hdr f

def fragmentAccess : Accesses :=
  match findDefrag f hw.defragList with
  | none => if f.moreFrag then [] else wholeAccess hw env hdr f
  | some c =>
    if c.nextFn ≠ f.fragNum || f.moreFrag then []
    else
      match c.append env.defragRoom f with
      | none => []
      | some d => getVifAccess hdr.flagsVifIdx++
        match getVif hw hdr.flagsVifIdx with
        | none => []
        | some vif => rxDataSkbAccess hdr vif (SkBuff.ofList d.skb) (env.amsduTo8023s 0)

def uploadAccess (fuel : ℕ) : Accesses :=
  headerReads f++
    if f.isData && f.isAmsdu then amsduAccess hw env hdr fuel 0 (skbPull (f.pullLen-8) f.skb)
    else if f.isData && isFragment f then fragmentAccess hw env hdr f
    else wholeAccess hw env hdr f

end Upload

def rwnxRxdataindAccess (fuel : ℕ) (hw : Hw) (env : Env) (hdr : HwRxhdr) (skb : SkBuff) :
    Accesses :=
  match monitorPath hw env hdr skb with
  | .done _ => []
  | .oops => []
  | .on skb =>
    if hdr.flagsUpload then
      uploadAccess hw env hdr (frameOf hdr (skbPull (MSDU_OFFSET+2) skb)) fuel
    else []

/-- Every access of the call is in range, however often the A-MSDU loop turns. -/
def IndexesFit (hw : Hw) (env : Env) (hdr : HwRxhdr) (skb : SkBuff) : Prop :=
  ∀ fuel, InRange Table.size (rwnxRxdataindAccess fuel hw env hdr skb)

/-! ## What keeps them in range -/

/-- No station, or one of the table. -/
def StaKnown (idx : ℕ) : Prop := idx = RWNX_INVALID_STA ∨ idx < NX_REMOTE_STA_MAX+NX_VIRT_DEV_MAX

def HeaderFits (f : RxFrame) : Prop := (if f.isData then f.pullLen else 24) ≤ f.skb.len

/-- An access point that does not isolate its stations looks for the destination of a unicast
frame. -/
def DstFits (hdr : HwRxhdr) (vif : Vif) (skb : SkBuff) (split : Split) : Prop :=
  ¬ SplitFails hdr vif split → vif.isAp = true → vif.apIsolate = false →
    (if hdr.flagsIsAmsdu then split.mcast else isMcast skb) = false → StaKnown hdr.flagsDstIdx

/-- `Handed i skb j s`: the loop at turn `i` with `skb` comes to sub-frame `s` in turn `j` and hands
it on. -/
inductive Handed (env : Env) (hdr : HwRxhdr) (vif : Vif) : ℕ → SkBuff → ℕ → SkBuff → Prop
  | here {i : ℕ} {skb : SkBuff} (hp : present skb = true) (hr : Readable env i skb) :
    Handed env hdr vif i skb i skb
  | later {i j : ℕ} {skb s : SkBuff} (hp : present skb = true) (hr : Readable env i skb)
    (hs : ¬ SplitFails hdr vif (env.amsduTo8023s i))
    (more : Handed env hdr vif (i+1) (skbPull (lenAligned skb) skb) j s) :
    Handed env hdr vif i skb j s

def AmsduDstFits (hw : Hw) (env : Env) (hdr : HwRxhdr) (i : ℕ) (skb : SkBuff) : Prop :=
  ∀ vif ∈ getVif hw hdr.flagsVifIdx, ∀ j s, Handed env hdr vif i skb j s →
    DstFits hdr vif (subSkb s) (env.amsduTo8023s j)

/-- The frame is older than the window of its control. -/
def late (p : Pool) (t : IfType) (r : Ready) : Bool :=
  ((reordMac t r.skb).bind fun mac => findInfo mac p.stasReordList).any fun info =>
    (info.preorderCtrl r.tid).enable && (info.preorderCtrl r.tid).indSn != 0xFFFF &&
      snLess r.seqNum (info.preorderCtrl r.tid).indSn

/-- A frame with a TID of a control; one that comes late is long enough for the test for RTP. -/
def ReorderFits (kmalloc : Bool) (p : Pool) (t : IfType) (r : Ready) : Prop :=
  usesCtrl kmalloc p t r.skb = true → r.tid < 8 ∧ (late p t r = true → 42 < r.skb.len)

def FlushFits (p : Pool) (t : IfType) (r : Ready) : Prop := flushFinds p t r.skb = true → r.tid < 8

section Conditions
variable (hw : Hw) (env : Env) (hdr : HwRxhdr)

def QosFits (vif : Vif) (r : Ready) : Prop :=
  r.isQos = true →
    if hdr.flagsNeedReord then ReorderFits env.kmalloc (poolFor hw vif) vif.iftype.reord r
    else FlushFits (poolFor hw vif) vif.iftype.reord r

def BranchFits (vif : Vif) (r : Ready) : Prop :=
  match vif.iftype with
  | .station | .p2pClient => QosFits hw env hdr vif r
  | .ap | .p2pGo =>
    (isMcast r.skb = false → StaKnown hdr.flagsDstIdx) ∧ QosFits hw env hdr vif r
  | _ => True

/-- The station of the descriptor is in the table, and so is the interface it belongs to. -/
def StaFits (vif : Vif) : Prop :=
  hdr.flagsStaIdx = RWNX_INVALID_STA ∨
    hdr.flagsStaIdx < NX_REMOTE_STA_MAX+NX_VIRT_DEV_MAX ∧
      ((hw.staTable hdr.flagsStaIdx).vlanIdx = vif.vifIndex ∨
        (hw.staTable hdr.flagsStaIdx).vlanIdx < NX_VIRT_DEV_MAX+NX_REMOTE_STA_MAX)

def WholeFits (f : RxFrame) : Prop :=
  f.flagsIs80211Mpdu = false → ∀ vif ∈ getVif hw hdr.flagsVifIdx, StaFits hw hdr vif ∧
    ∀ v ∈ vlanVif hw hdr vif, BranchFits hw env hdr v (readyOf f)

/-- The last fragment of a frame completes it. -/
def FragmentFits (f : RxFrame) : Prop :=
  f.moreFrag = false →
    match findDefrag f hw.defragList with
    | none => WholeFits hw env hdr f
    | some c => c.nextFn = f.fragNum → ∀ d ∈ c.append env.defragRoom f,
      ∀ vif ∈ getVif hw hdr.flagsVifIdx, DstFits hdr vif (SkBuff.ofList d.skb) (env.amsduTo8023s 0)

def UploadFits (f : RxFrame) : Prop :=
  HeaderFits f ∧
    if f.isData && f.isAmsdu then AmsduDstFits hw env hdr 0 (skbPull (f.pullLen-8) f.skb)
    else if f.isData && isFragment f then FragmentFits hw env hdr f
    else WholeFits hw env hdr f

/-- The monitor path looks at no table of these. -/
def Bounded (skb : SkBuff) : Prop :=
  monitored hw hdr = false → hdr.flagsUpload = true →
    UploadFits hw env hdr (frameOf hdr (skbPull (MSDU_OFFSET+2) (monitorSkb hw hdr skb)))

end Conditions

/-! ## The header -/

theorem hdrLen_ge (f : RxFrame) : 24 ≤ f.hdrLen ∧ (f.isQos = true → 26 ≤ f.hdrLen) := by
  unfold RxFrame.hdrLen
  cases f.isQos <;> simp
  omega

theorem addressReads_inRange {f : RxFrame} (h : 22 ≤ f.skb.len) :
    InRange Table.size (addressReads f) := by
  unfold addressReads
  split_ifs
  · simp only [reads, inRange_append, inRange_block, Table.size]
    omega
  · simp only [reads, inRange_append, inRange_block, Table.size]
    omega
  · exact inRange_nil

/-- The ether type is the last thing in front of the payload. -/
theorem headerReads_inRange {f : RxFrame} :
    InRange Table.size (headerReads f) ↔ HeaderFits f := by
  have hhdr := hdrLen_ge f
  unfold headerReads HeaderFits
  simp only [reads, inRange_append, inRange_block, inRange_ite, Table.size]
  cases hdata : f.isData with
  | false =>
    simp only [Bool.false_eq_true, if_false, false_imp_iff, and_true]
    omega
  | true =>
    simp only [if_true, true_imp_iff, RxFrame.pullLen]
    constructor
    · intro h
      omega
    · intro h
      exact ⟨by omega, ⟨fun hqos => by have := hhdr.2 hqos; omega,
        addressReads_inRange (by omega)⟩, by omega⟩

/-! ## The tables -/

theorem getVifAccess_inRange (vifIdx : ℕ) : InRange Table.size (getVifAccess vifIdx) := by
  unfold getVifAccess
  simp only [inRange_ite, inRange_cons, inRange_nil, and_true, Table.size]
  omega

theorem dstAccess_inRange {hdr : HwRxhdr} :
    InRange Table.size (dstAccess hdr) ↔ StaKnown hdr.flagsDstIdx := by
  unfold dstAccess StaKnown
  simp only [inRange_ite, inRange_cons, inRange_nil, and_true, Table.size, ne_eq,
    Classical.or_iff_not_imp_left]

theorem rxDataSkbAccess_inRange {hdr : HwRxhdr} {vif : Vif} {skb : SkBuff} {split : Split} :
    InRange Table.size (rxDataSkbAccess hdr vif skb split) ↔ DstFits hdr vif skb split := by
  unfold rxDataSkbAccess DstFits SplitFails
  dsimp only
  simp only [inRange_else, inRange_ite, dstAccess_inRange, Bool.and_eq_true, beq_iff_eq, and_assoc,
    Bool.not_eq_true', Bool.not_eq_true, and_imp]

theorem vlanAccess_inRange {hw : Hw} {hdr : HwRxhdr} {vif : Vif} :
    InRange Table.size (vlanAccess hw hdr vif) ↔ StaFits hw hdr vif := by
  unfold vlanAccess StaFits
  simp only [inRange_else, inRange_cons, inRange_nil, and_true, Table.size,
    Classical.or_iff_not_imp_left]

/-! ## The reorder controls -/

theorem snLess_self (n : ℕ) : snLess n n = false := by simp [snLess]

theorem reordNeedCheck_old (c : ReordCtrl) (seqNum : ℕ) :
    (reordNeedCheck c seqNum).2 = (c.indSn != 0xFFFF && snLess seqNum c.indSn) := by
  have hold : (reordNeedCheck c seqNum).2 =
      snLess seqNum (if c.indSn = 0xFFFF then seqNum else c.indSn) := by
    unfold reordNeedCheck
    dsimp only
    split_ifs <;> simp_all
  rw [hold]
  by_cases h : c.indSn = 0xFFFF
  · rw [if_pos h, snLess_self, h]
    rfl
  · rw [if_neg h, bne_iff_ne.mpr h, Bool.true_and]

/-- A control that starts afresh takes the frame as the first of its window. -/
theorem needCheck_reenable (c : PoolCtrl) (seqNum : ℕ) :
    (c.reenable.needCheck seqNum).2 =
      (c.enable && c.indSn != 0xFFFF && snLess seqNum c.indSn) := by
  have hold := reordNeedCheck_old c.reenable.erase seqNum
  cases henable : c.enable with
  | true =>
    have hsame : c.reenable = c := if_pos henable
    rw [hsame] at hold ⊢
    exact hold
  | false =>
    have hsn : c.reenable.erase.indSn = 0xFFFF := by
      simp [PoolCtrl.reenable, henable, PoolCtrl.erase]
    rw [hsn] at hold
    exact hold

/-- A station that is new has no window yet. -/
theorem late_iff {kmalloc : Bool} {p : Pool} {t : IfType} {r : Ready} {mac : List UInt8}
    (hmac : reordMac t r.skb = some mac) {stas : List PoolInfo} {info : PoolInfo}
    (h : lookupInfo kmalloc p mac = some (stas, info)) :
    ((info.preorderCtrl r.tid).reenable.needCheck r.seqNum).2 = late p t r := by
  rw [needCheck_reenable, late, hmac, Option.bind_some]
  unfold lookupInfo at h
  cases hfind : findInfo mac p.stasReordList with
  | some old =>
    rw [hfind] at h
    obtain ⟨-, rfl⟩ := Prod.mk.inj (Option.some.inj h)
    rfl
  | none =>
    rw [hfind] at h
    dsimp only at h
    split_ifs at h
    obtain ⟨-, rfl⟩ := Prod.mk.inj (Option.some.inj h)
    rfl

theorem processUnitAccess_inRange {kmalloc forward : Bool} {p : Pool} {t : IfType} {r : Ready}
    (hvif : p.rwnxVif = some t) :
    InRange Table.size (processUnitAccess kmalloc p ⟨r.skb, r.seqNum, r.tid, forward⟩) ↔
      ReorderFits kmalloc p t r := by
  unfold processUnitAccess ReorderFits usesCtrl
  rw [hvif]
  dsimp only
  by_cases hlen : r.skb.len ≤ 14
  · simp [hlen]
  rw [if_neg hlen]
  cases hfree : p.rxframesFreequeue with
  | nil => simp
  | cons id free =>
    dsimp only
    by_cases hdirect : ethProto r.skb = ETH_P_PAE ∨ isMcast r.skb = true
    · rw [if_pos hdirect]
      simp [hdirect]
    rw [if_neg hdirect]
    cases hmac : reordMac t r.skb with
    | none => simp
    | some mac =>
      dsimp only
      cases hlook : lookupInfo kmalloc p mac with
      | none => simp [hlook]
      | some x =>
        have hlate := late_iff hmac hlook
        simp [hlen, hdirect, hlook, unitAccess, hlate, Table.size]

theorem flushTidAccess_inRange {p : Pool} {t : IfType} {r : Ready} (hvif : p.rwnxVif = some t) :
    InRange Table.size (flushTidAccess p r.skb r.tid) ↔ FlushFits p t r := by
  unfold flushTidAccess FlushFits flushFinds
  rw [hvif]
  dsimp only
  cases reordMac t r.skb with
  | none => simp
  | some mac => cases hinfo : findInfo mac p.stasReordList <;> simp [hinfo, Table.size]

/-! ## The A-MSDU loop -/

section Loop
variable {hw : Hw} {env : Env} {hdr : HwRxhdr}

theorem amsduTurnAccess_inRange {i : ℕ} {skb : SkBuff} :
    InRange Table.size (amsduTurnAccess hw env hdr i skb) ↔
      (present skb = true → Readable env i skb → ∀ vif ∈ getVif hw hdr.flagsVifIdx,
        DstFits hdr vif (subSkb skb) (env.amsduTo8023s i)) := by
  unfold amsduTurnAccess
  cases hp : present skb with
  | false =>
    simp only [Bool.false_eq_true, false_imp_iff, iff_true]
    simp only [present, Bool.and_eq_false_imp, decide_eq_true_eq, decide_eq_false_iff_not,
      not_le] at hp
    simp only [inRange_else, inRange_append, reads, inRange_block, Table.size, Bool.or_eq_true,
      decide_eq_true_eq]
    intro hlen
    exact ⟨by omega, fun hno => absurd (.inl (hp (by omega))) hno⟩
  | true =>
    simp only [present, Bool.and_eq_true, decide_eq_true_eq] at hp
    have hlong : ¬ skb.len ≤ 16 := by omega
    have hin : ¬ skb.len < subLen skb+14 := by omega
    have hvif : InRange Table.size (match getVif hw hdr.flagsVifIdx with
        | none => []
        | some vif => rxDataSkbAccess hdr vif (subSkb skb) (env.amsduTo8023s i)) ↔
        ∀ vif ∈ getVif hw hdr.flagsVifIdx, DstFits hdr vif (subSkb skb) (env.amsduTo8023s i) := by
      cases getVif hw hdr.flagsVifIdx with
      | none => simp
      | some vif => simp [rxDataSkbAccess_inRange]
    simp only [true_imp_iff, Readable, if_neg hlong, hin, decide_false, Bool.false_or,
      inRange_append, inRange_else, reads, inRange_block, Table.size, Bool.not_eq_true',
      Bool.not_eq_false, and_imp, not_lt, hvif]
    constructor
    · intro h halloc hsub
      exact ((h.2 halloc).2 hsub).2
    · intro h
      exact ⟨.inr (by omega), fun halloc => ⟨.inr (by omega), fun hsub =>
        ⟨⟨by omega, getVifAccess_inRange _⟩, h halloc hsub⟩⟩⟩

theorem amsduAccess_inRange_of_fits {i : ℕ} {skb : SkBuff} (h : AmsduDstFits hw env hdr i skb)
    (fuel : ℕ) : InRange Table.size (amsduAccess hw env hdr fuel i skb) := by
  induction fuel generalizing i skb with
  | zero => exact inRange_nil
  | succ fuel ih =>
    refine inRange_append.mpr ⟨amsduTurnAccess_inRange.mpr fun hp hr vif hvif =>
      h vif hvif i skb (.here hp hr), ?_⟩
    cases hturn : amsduTurn hw env hdr i skb with
    | stop res => exact inRange_nil
    | next s out =>
      obtain ⟨hp, hr, rfl, vif, hvif, hsplit⟩ := amsduTurn_goes_on hturn
      apply ih
      intro v hv j s hs
      obtain rfl : vif = v := Option.some.inj (hvif.symm.trans hv)
      exact h vif hvif j s (.later hp hr hsplit hs)

/-- The sub-frames that are handed on are those of the turns of the loop. -/
theorem amsduTurnAccess_mem {vif : Vif} (hvif : vif ∈ getVif hw hdr.flagsVifIdx) {i j : ℕ}
    {skb s : SkBuff} (h : Handed env hdr vif i skb j s) : present s = true ∧ Readable env j s ∧
      ∃ fuel, ∀ a ∈ amsduTurnAccess hw env hdr j s, a ∈ amsduAccess hw env hdr fuel i skb := by
  induction h with
  | here hp hr => exact ⟨hp, hr, 1, fun a ha => List.mem_append_left _ ha⟩
  | @later i j skb s hp hr hs _ ih =>
    obtain ⟨hpresent, hreadable, fuel, hmem⟩ := ih
    refine ⟨hpresent, hreadable, fuel+1, fun a ha => List.mem_append_right _ ?_⟩
    rw [amsduTurn_next i hp hr hvif hs]
    exact hmem a ha

theorem amsduAccess_inRange {i : ℕ} {skb : SkBuff} :
    (∀ fuel, InRange Table.size (amsduAccess hw env hdr fuel i skb)) ↔
      AmsduDstFits hw env hdr i skb := by
  constructor
  · intro h vif hvif j s hs
    obtain ⟨hp, hr, fuel, hmem⟩ := amsduTurnAccess_mem hvif hs
    have hturn : InRange Table.size (amsduTurnAccess hw env hdr j s) := fun a ha =>
      h fuel a (hmem a ha)
    exact amsduTurnAccess_inRange.mp hturn hp hr vif hvif
  · exact amsduAccess_inRange_of_fits

end Loop

/-! ## The branches and the paths -/

section Upload
variable {hw : Hw} {env : Env} {hdr : HwRxhdr}

theorem reordAccess_inRange {vif : Vif} {r : Ready} (forward : Bool) :
    InRange Table.size (reordAccess hw env hdr vif r forward) ↔ QosFits hw env hdr vif r := by
  have hvif : (poolFor hw vif).rwnxVif = some vif.iftype.reord := rfl
  unfold reordAccess QosFits
  rw [inRange_ite]
  apply imp_congr_right
  intro _
  split_ifs
  · exact processUnitAccess_inRange hvif
  · exact flushTidAccess_inRange hvif

/-- A station looks for no destination. -/
theorem staBranchAccess_inRange {vif : Vif} {r : Ready}
    (hsta : vif.iftype = .station ∨ vif.iftype = .p2pClient) :
    InRange Table.size (staBranchAccess hw env hdr vif r) ↔ QosFits hw env hdr vif r := by
  have hap : vif.isAp = false := by
    rcases hsta with h | h <;> simp [Vif.isAp, h]
  unfold staBranchAccess
  rw [inRange_append, reordAccess_inRange, inRange_else, rxDataSkbAccess_inRange]
  simp [DstFits, hap]

theorem apBranchAccess_inRange {vif : Vif} {r : Ready} :
    InRange Table.size (apBranchAccess hw env hdr vif r) ↔
      (isMcast r.skb = false → StaKnown hdr.flagsDstIdx) ∧ QosFits hw env hdr vif r := by
  unfold apBranchAccess
  rw [inRange_append, reordAccess_inRange, inRange_else, dstAccess_inRange, Bool.not_eq_true]

theorem branchAccess_inRange {vif : Vif} {r : Ready} :
    InRange Table.size (branchAccess hw env hdr vif r) ↔ BranchFits hw env hdr vif r := by
  unfold branchAccess BranchFits
  cases htype : vif.iftype with
  | station => exact staBranchAccess_inRange (.inl htype)
  | p2pClient => exact staBranchAccess_inRange (.inr htype)
  | ap | p2pGo => exact apBranchAccess_inRange
  | apVlan | meshPoint | monitor | other => exact iff_of_true inRange_nil trivial

theorem QosFits.tid {vif : Vif} {r : Ready} (h : QosFits hw env hdr vif r) :
    TidFits hw env hdr vif r := by
  intro hqos htid
  have hfits := h hqos
  cases hneed : hdr.flagsNeedReord with
  | true =>
    simp only [hneed, if_true, ReorderFits] at hfits ⊢
    by_contra huses
    have := (hfits (by simpa using huses)).1
    omega
  | false =>
    simp only [hneed, Bool.false_eq_true, if_false, FlushFits] at hfits ⊢
    by_contra hfinds
    have := hfits (by simpa using hfinds)
    omega

/-- Out of range indexes are the only thing that can stop a frame on a station's interface. -/
theorem branch_consumes {k : ℕ} {vif : Vif} {r : Ready}
    (hsta : vif.iftype = .station ∨ vif.iftype = .p2pClient)
    (h : InRange Table.size (branchAccess hw env hdr vif r)) :
    Consumes hw k (branch hw env hdr k vif r) := by
  apply branch_ok.1
  have hfits := branchAccess_inRange.mp h
  unfold BranchFits at hfits
  unfold BranchOk
  rcases hsta with htype | htype
  · rw [htype] at hfits ⊢
    exact hfits.tid
  · rw [htype] at hfits ⊢
    exact hfits.tid

theorem wholeAccess_inRange {f : RxFrame} :
    InRange Table.size (wholeAccess hw env hdr f) ↔ WholeFits hw env hdr f := by
  unfold wholeAccess WholeFits deliverAccess
  rw [inRange_else, inRange_append, Bool.not_eq_true]
  apply imp_congr_right
  intro _
  cases getVif hw hdr.flagsVifIdx with
  | none => simp [getVifAccess_inRange]
  | some vif =>
    simp only [getVifAccess_inRange, true_and, inRange_append, vlanAccess_inRange, Option.mem_def,
      Option.some.injEq, forall_eq']
    apply and_congr_right
    intro _
    cases vlanVif hw hdr vif with
    | none => simp
    | some v => simp [branchAccess_inRange]

theorem fragmentAccess_inRange {f : RxFrame} :
    InRange Table.size (fragmentAccess hw env hdr f) ↔ FragmentFits hw env hdr f := by
  unfold fragmentAccess FragmentFits
  cases findDefrag f hw.defragList with
  | none =>
    dsimp only
    rw [inRange_else, Bool.not_eq_true, wholeAccess_inRange]
  | some c =>
    dsimp only
    rw [inRange_else, Bool.or_eq_true, decide_eq_true_eq, not_or, not_ne_iff, Bool.not_eq_true,
      and_comm, and_imp]
    apply imp_congr_right
    intro _
    apply imp_congr_right
    intro _
    cases c.append env.defragRoom f with
    | none => simp
    | some d =>
      cases getVif hw hdr.flagsVifIdx with
      | none => simp [getVifAccess_inRange]
      | some vif => simp [getVifAccess_inRange, rxDataSkbAccess_inRange]

theorem uploadAccess_inRange {f : RxFrame} :
    (∀ fuel, InRange Table.size (uploadAccess hw env hdr f fuel)) ↔ UploadFits hw env hdr f := by
  unfold uploadAccess UploadFits
  simp only [inRange_append, headerReads_inRange, forall_and, forall_const]
  apply and_congr_right
  intro _
  split_ifs
  · exact amsduAccess_inRange
  · rw [forall_const, fragmentAccess_inRange]
  · rw [forall_const, wholeAccess_inRange]

/-- The exact condition, for any frame and descriptor. -/
theorem indexesFit_iff (hw : Hw) (env : Env) (hdr : HwRxhdr) (skb : SkBuff) :
    IndexesFit hw env hdr skb ↔ Bounded hw env hdr skb := by
  unfold IndexesFit Bounded rwnxRxdataindAccess
  cases hmon : monitored hw hdr with
  | true =>
    rcases monitorPath_end env skb hmon with ⟨-, u, hu⟩ | ⟨-, hoops⟩
    · simp [hu]
    · simp [hoops]
  | false =>
    rw [monitorPath_on hmon]
    simp only [inRange_ite, forall_const]
    rw [forall_comm]
    exact imp_congr_right fun _ => uploadAccess_inRange

end Upload

/-! ## Inputs out of range -/

def reorderHdr (vifIdx staIdx dstIdx : ℕ) : HwRxhdr where
  isMonitorVif := false
  flagsUpload := true
  flagsIs80211Mpdu := false
  flagsIsAmsdu := false
  flagsNeedReord := true
  flagsVifIdx := vifIdx
  flagsStaIdx := staIdx
  flagsDstIdx := dstIdx
  decrStatus := 0
  len := 0

/-- A QoS data frame with TID `tid`, sequence number 0 and `n` bytes behind its headers. -/
def qosFrame (tid : UInt8) (n : ℕ) : List UInt8 :=
  0x88::0x01::List.replicate 20 2++[0, 0, tid, 0]++List.replicate (8+n) 2

/-- The station of `qosFrame`, its window past sequence number 0. -/
def laterPool : Pool :=
  { MsduPool.init with
    stasReordList := [⟨List.replicate 6 2, fun _ => { initCtrl with indSn := 5 }⟩] }

/-- A TID of 8; a station and a destination past the table; a station that belongs to no
interface; a late frame of 20 bytes; a frame that ends in its header. -/
theorem indexes_past_tables :
    ¬ IndexesFit (sampleHw .station) sampleEnv (reorderHdr 0 0xFF 0xFF)
      (sampleSkb (qosFrame 8 40)) ∧
    ¬ IndexesFit (sampleHw .station) sampleEnv (reorderHdr 0 100 0xFF)
      (sampleSkb (qosFrame 0 40)) ∧
    ¬ IndexesFit (sampleHw .ap) sampleEnv (reorderHdr 0 0xFF 36) (sampleSkb (qosFrame 0 40)) ∧
    ¬ IndexesFit { sampleHw .station with staTable := fun _ => ⟨false, 0xFF⟩ } sampleEnv
      (reorderHdr 0 1 0xFF) (sampleSkb (qosFrame 0 40)) ∧
    ¬ IndexesFit { sampleHw .station with pool := laterPool } sampleEnv (reorderHdr 0 0xFF 0xFF)
      (sampleSkb (qosFrame 0 20)) ∧
    ¬ IndexesFit (sampleHw .station) sampleEnv (reorderHdr 0 0xFF 0xFF)
      (sampleSkb ((qosFrame 0 0).take 25)) := by
  refine ⟨?_, ?_, ?_, ?_, ?_, ?_⟩ <;>
    exact fun h => absurd (h 0) (by decide +kernel)

end AIC.RxDataAccess
