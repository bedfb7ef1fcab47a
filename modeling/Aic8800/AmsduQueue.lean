import Aic8800.AmsduHeader
import Aic8800.Lib.GuardedRun
import Mathlib.Data.List.GetD
import Mathlib.Logic.Function.Basic

/-!
# A-MSDUs on a txq

`rwnx_amsdu_add_subframe` links a frame to the A-MSDU in progress, or starts one with the
frame that was queued last. A frame that it does not take is queued by `rwnx_start_xmit`.
-/

set_option autoImplicit false

namespace AIC.AmsduQueue
open AIC.AmsduHeader Lib.FlatMemory Lib.GuardedRun

/-- `struct rwnx_sw_txhdr` of a queued frame, whose buffer starts with the tx header. `ethertype`
is that of the descriptor, as a number. -/
structure SwTxhdr where
  skb : Skb
  frameLen : ℕ
  headroom : ℕ
  ethertype : ℕ
  retry : Bool
  amsduFlag : Bool
  packetCnt : ℕ
  amsdu : Amsdu

/-- What does not change while frames are added. -/
structure Config where
  txhdrSize : ℕ
  amsduLen : ℕ
  amsduMaxnb : ℕ
  amsduLen_u16 : amsduLen < 2^16

/-- `struct rwnx_txq`. The software headers lie in memory, at addresses below `next`. -/
structure Txq where
  descs : ℕ → SwTxhdr
  queue : List ℕ
  amsdu : Option ℕ
  next : ℕ

def Txq.setDesc (txq : Txq) (a : ℕ) (sw : SwTxhdr) : Txq :=
  { txq with descs := Function.update txq.descs a sw }

def Txq.setAmsdu (txq : Txq) (amsdu : Option ℕ) : Txq := { txq with amsdu := amsdu }

/-- The A-MSDU with a header linked to its end. -/
def Amsdu.link (amsdu : Amsdu) (hdr : AmsduTxhdr) : Amsdu :=
  { hdrs := amsdu.hdrs++[hdr]
    len := (amsdu.len+hdr.mapLen) % 2^16
    nb := (amsdu.nb+1) % 2^8
    pad := AMSDU_PADDING (hdr.mapLen-amsdu.pad) }

/-- The answer of a call, with the frame and what it was added to. -/
structure Answer (α : Type) where
  ok : Bool
  skb : Skb
  target : α

variable (cfg : Config)

/-- `rwnx_amsdu_add_subframe_header`. A wrong count of packets stops the kernel. -/
def amsduAddSubframeHeader (mapError : Bool) (skb : Skb) (sw : SwTxhdr) :
    Option (Answer SwTxhdr) :=
  match addHeader cfg.txhdrSize mapError sw.amsdu skb with
  | .failed skb => some ⟨false, skb, sw⟩
  | .linked hdr =>
    if sw.amsdu.nb ≠ sw.packetCnt then none
    else some ⟨true, hdr.skb,
      { sw with packetCnt := (sw.packetCnt+1) % 2^8, amsdu := Amsdu.link sw.amsdu hdr }⟩

/-- The length of the frame queued last, from its buffer. -/
def firstLen (sw : SwTxhdr) : ℕ :=
  amsduSubframeLength sw.skb.mem (sw.skb.data+sw.headroom) (sw.frameLen+14)

def newLen (skb : Skb) : ℕ := amsduSubframeLength skb.mem skb.data skb.len

/-- An A-MSDU of one frame. -/
def started (sw : SwTxhdr) : SwTxhdr :=
  { sw with amsdu := ⟨[], firstLen sw % 2^16, 1, AMSDU_PADDING (firstLen sw)⟩ }

/-- A frame is added to the A-MSDU in progress. -/
def extendAmsdu (mapError : Bool) (skb : Skb) (txq : Txq) (a : ℕ) : Option (Answer Txq) :=
  let sw := txq.descs a
  if sw.amsdu.len+sw.amsdu.pad+newLen skb > cfg.amsduLen then
    some ⟨false, skb, txq.setAmsdu none⟩
  else (amsduAddSubframeHeader cfg mapError skb sw).map fun ans =>
    if ans.ok then
      ⟨true, ans.skb, (txq.setDesc a ans.target).setAmsdu
        (if ans.target.amsdu.nb ≥ cfg.amsduMaxnb then none else some a)⟩
    else ⟨false, ans.skb, txq.setAmsdu none⟩

/-- The frame queued last and the new one can make an A-MSDU. -/
def Startable (sw : SwTxhdr) (skb : Skb) : Prop :=
  sw.amsdu.len = 0 ∧ sw.retry = false ∧
    firstLen sw+AMSDU_PADDING (firstLen sw)+newLen skb ≤ cfg.amsduLen

instance (sw : SwTxhdr) (skb : Skb) : Decidable (Startable cfg sw skb) :=
  inferInstanceAs (Decidable (_ ∧ _ ∧ _))

def startAmsdu (mapError : Bool) (skb : Skb) (txq : Txq) (a : ℕ) : Option (Answer Txq) :=
  if Startable cfg (txq.descs a) skb then
    (amsduAddSubframeHeader cfg mapError skb (started (txq.descs a))).map fun ans =>
      if ans.ok then
        ⟨true, ans.skb, (txq.setDesc a { ans.target with amsduFlag := true }).setAmsdu
          (if ans.target.amsdu.nb < cfg.amsduMaxnb then some a else none)⟩
      else ⟨false, ans.skb, txq.setDesc a ans.target⟩
  else some ⟨false, skb, txq⟩

/-- `rwnx_amsdu_add_subframe`. -/
def amsduAddSubframe (mapError : Bool) (skb : Skb) (txq : Txq) : Option (Answer Txq) :=
  if cfg.amsduLen = 0 ∨ cfg.amsduMaxnb < 2 then some ⟨false, skb, txq⟩
  else match txq.amsdu with
    | some a => extendAmsdu cfg mapError skb txq a
    | none => match txq.queue.getLast? with
      | none => some ⟨false, skb, txq⟩
      | some a => startAmsdu cfg mapError skb txq a

/-- The header of a frame that is queued. The Ethernet header is pulled before the headroom is
pushed, and nothing sets the count of packets. -/
def queuedHeader (skb skb' : Skb) (headroom packetCnt : ℕ) : SwTxhdr :=
  { skb := { skb' with data := skb'.data+14-headroom }
    frameLen := (skb'.len-14) % 2^16
    headroom := headroom
    ethertype := hProto skb.mem skb.data
    retry := false
    amsduFlag := false
    packetCnt := packetCnt
    amsdu := ⟨[], 0, 0, 0⟩ }

def Txq.enqueue (txq : Txq) (sw : SwTxhdr) : Txq :=
  { txq with
    descs := Function.update txq.descs txq.next sw
    queue := txq.queue++[txq.next]
    next := txq.next+1 }

/-- A frame to send, with what the mapping and the allocation give, or the first frame of the
queue handed to the firmware. -/
inductive Act where
  | xmit (skb : Skb) (mapError alloc : Bool) (headroom packetCnt : ℕ)
  | push

def step (txq : Txq) : Act → Option Txq
  | .xmit skb mapError alloc headroom packetCnt =>
    if 14 ≤ skb.len ∧ headroom ≤ skb.data+14 then
      (amsduAddSubframe cfg mapError skb txq).map fun ans =>
        if ans.ok || !alloc then ans.target
        else ans.target.enqueue (queuedHeader skb ans.skb headroom packetCnt)
    else none
  | .push => match txq.queue with
    | [] => none
    | a::rest =>
      some { txq with queue := rest, amsdu := if txq.amsdu = some a then none else txq.amsdu }

/-- A txq after its init. -/
def start (descs : ℕ → SwTxhdr) : Txq := ⟨descs, [], none, 0⟩

/-! ## What an A-MSDU is to be -/

/-- The length of the first sub-frame, from the frame that was queued. -/
def ownLen (sw : SwTxhdr) : ℕ :=
  14+(sw.skb.len-sw.headroom)+if ETH_P_802_3_MIN ≤ sw.ethertype then 8 else 0

/-- That of a linked one, from the frame that is restored. -/
def linkedLen (hdr : AmsduTxhdr) : ℕ :=
  newLen (amsduDelSubframeHeader cfg.txhdrSize hdr)

def subframeLens (sw : SwTxhdr) : List ℕ := ownLen sw::sw.amsdu.hdrs.map (linkedLen cfg)

/-- Each sub-frame but the last is padded. -/
def paddedSum : List ℕ → ℕ
  | [] => 0
  | [l] => l
  | l::ls => l+AMSDU_PADDING l+paddedSum ls

structure AmsduOk (sw : SwTxhdr) : Prop where
  sum : sw.amsdu.len = paddedSum (subframeLens cfg sw)
  within : sw.amsdu.len ≤ cfg.amsduLen
  few : sw.amsdu.nb ≤ cfg.amsduMaxnb

/-- Every A-MSDU that was started is in order. -/
def AllOk (txq : Txq) : Prop :=
  ∀ a < txq.next, (txq.descs a).amsdu.len ≠ 0 → AmsduOk cfg (txq.descs a)

/-- The call starts an A-MSDU with the frame at `a`. -/
def Starts (skb : Skb) (txq : Txq) (a : ℕ) : Prop :=
  cfg.amsduLen ≠ 0 ∧ 2 ≤ cfg.amsduMaxnb ∧ txq.amsdu = none ∧ txq.queue.getLast? = some a ∧
    Startable cfg (txq.descs a) skb

/-- There is no room for the headers of the new frame, or they are not mapped. -/
def HeaderFails (mapError : Bool) (skb : Skb) (sw : SwTxhdr) : Prop :=
  skb.data < headroomNeed cfg.txhdrSize (started sw).amsdu skb ∨ mapError = true

/-- What lies where the type of the queued frame is looked for tells the same as its type. -/
def TypeRead (sw : SwTxhdr) : Prop :=
  (EthernetII sw.skb.mem (sw.skb.data+sw.headroom) ↔ ETH_P_802_3_MIN ≤ sw.ethertype) ∧
    sw.frameLen = sw.skb.len-sw.headroom

/-- A frame with which an A-MSDU is started is taken for what it is. -/
def Announced (txq : Txq) : Act → Prop
  | .xmit skb _ _ _ _ => ∀ a, Starts cfg skb txq a → TypeRead (txq.descs a)
  | .push => True

/-! ## One header -/

section Header
variable {cfg} {mapError : Bool} {skb : Skb} {sw : SwTxhdr} {hdr : AmsduTxhdr}

/-- What a call can do: the header is linked, or nothing is changed. -/
theorem amsduAddSubframeHeader_cases {ans : Answer SwTxhdr}
    (h : amsduAddSubframeHeader cfg mapError skb sw = some ans) :
    (ans.ok = false ∧ ans.target = sw ∧
      (skb.data < headroomNeed cfg.txhdrSize sw.amsdu skb ∨ mapError = true)) ∨
    (ans.ok = true ∧
      ¬ (skb.data < headroomNeed cfg.txhdrSize sw.amsdu skb ∨ mapError = true) ∧
      ∃ hdr, addHeader cfg.txhdrSize mapError sw.amsdu skb = .linked hdr ∧
        ans.target = { sw with
          packetCnt := (sw.packetCnt+1) % 2^8, amsdu := Amsdu.link sw.amsdu hdr }) := by
  unfold amsduAddSubframeHeader at h
  rw [← addHeader_failed_iff]
  cases hadd : addHeader cfg.txhdrSize mapError sw.amsdu skb with
  | failed skb' =>
    rw [hadd] at h
    obtain rfl := Option.some.inj h
    exact .inl ⟨rfl, rfl, skb', rfl⟩
  | linked hdr =>
    rw [hadd] at h
    dsimp only at h
    split_ifs at h
    obtain rfl := Option.some.inj h
    exact .inr ⟨rfl, nofun, hdr, rfl, rfl⟩

theorem linked_lens {amsdu : Amsdu} (hlen : 14 ≤ skb.len)
    (h : addHeader cfg.txhdrSize mapError amsdu skb = .linked hdr) :
    hdr.mapLen = amsdu.pad+newLen skb ∧ linkedLen cfg hdr = newLen skb := by
  constructor
  · rw [addHeader_mapLen h, mapLen, msduLen, newLen, amsduSubframeLength]
    omega
  · obtain ⟨mem, hdel, hmem⟩ := addHeader_restored h
    have htype : EthernetII mem skb.data ↔ EthernetII skb.mem skb.data :=
      ethernetII_congr fun i _ => hmem _ (Nat.le_add_right _ i)
    rw [linkedLen, hdel]
    unfold newLen amsduSubframeLength llcLen
    simp only [htype]
    rfl

theorem paddedSum_concat {ls : List ℕ} {k : ℕ} (l : ℕ) (h : ls.getLast? = some k) :
    paddedSum (ls++[l]) = paddedSum ls+AMSDU_PADDING k+l := by
  induction ls with
  | nil => cases h
  | cons a ls ih =>
    cases ls with
    | nil =>
      obtain rfl := Option.some.inj h
      rfl
    | cons b ls =>
      rw [List.getLast?_cons_cons] at h
      have hrest := ih h
      show a+AMSDU_PADDING a+paddedSum (b::ls++[l]) = a+AMSDU_PADDING a+paddedSum (b::ls)+_+l
      rw [hrest]
      omega

/-- An A-MSDU in order, with the padding for its next sub-frame. -/
structure DescOk (cfg : Config) (sw : SwTxhdr) : Prop extends AmsduOk cfg sw where
  pad : ∀ l ∈ (subframeLens cfg sw).getLast?, sw.amsdu.pad = AMSDU_PADDING l

/-- A sub-frame that fits is linked. -/
theorem DescOk.link (h : DescOk cfg sw) (hlen : 14 ≤ skb.len)
    (hadd : addHeader cfg.txhdrSize mapError sw.amsdu skb = .linked hdr)
    (hfits : sw.amsdu.len+sw.amsdu.pad+newLen skb ≤ cfg.amsduLen)
    (hnb : sw.amsdu.nb < cfg.amsduMaxnb) (cnt : ℕ) (flag : Bool) :
    DescOk cfg { sw with
      packetCnt := cnt, amsduFlag := flag, amsdu := Amsdu.link sw.amsdu hdr } := by
  obtain ⟨hmap, hlinked⟩ := linked_lens hlen hadd
  have hu16 := cfg.amsduLen_u16
  have hlens : subframeLens cfg { sw with
      packetCnt := cnt, amsduFlag := flag, amsdu := Amsdu.link sw.amsdu hdr } =
        subframeLens cfg sw++[newLen skb] := by
    show ownLen sw::(sw.amsdu.hdrs++[hdr]).map (linkedLen cfg) = _
    rw [List.map_append, List.map_singleton, hlinked]
    rfl
  obtain ⟨k, hk⟩ : ∃ k, (subframeLens cfg sw).getLast? = some k :=
    Option.isSome_iff_exists.mp (List.getLast?_isSome.mpr (List.cons_ne_nil _ _))
  have hsum : (sw.amsdu.len+hdr.mapLen) % 2^16 = sw.amsdu.len+sw.amsdu.pad+newLen skb := by
    rw [hmap, ← Nat.add_assoc]
    exact Nat.mod_eq_of_lt (by omega)
  refine ⟨⟨?_, ?_, ?_⟩, ?_⟩
  · rw [hlens, paddedSum_concat _ hk, ← h.pad k hk, ← h.sum]
    exact hsum
  · exact hsum.le.trans hfits
  · exact (Nat.mod_le _ _).trans hnb
  · intro l hl
    rw [hlens, List.getLast?_concat] at hl
    obtain rfl := Option.some.inj hl
    show AMSDU_PADDING (hdr.mapLen-sw.amsdu.pad) = _
    rw [hmap, Nat.add_sub_cancel_left]

/-- The lengths of a frame that is read as what it is. -/
theorem TypeRead.firstLen_eq (h : TypeRead sw) : firstLen sw = ownLen sw := by
  have hsnap : rfc1042Header.length+2 = 8 := rfl
  unfold firstLen ownLen amsduSubframeLength llcLen
  simp only [h.1, h.2, hsnap]
  omega

theorem started_ok (h : TypeRead sw) (hstart : Startable cfg sw skb) (hmax : 2 ≤ cfg.amsduMaxnb) :
    DescOk cfg (started sw) ∧ (started sw).amsdu.len ≠ 0 := by
  have hu16 := cfg.amsduLen_u16
  obtain ⟨-, -, hfits⟩ := hstart
  have hlen : firstLen sw % 2^16 = firstLen sw := Nat.mod_eq_of_lt (by omega)
  have hown : firstLen sw = ownLen sw := h.firstLen_eq
  refine ⟨⟨⟨?_, ?_, ?_⟩, ?_⟩, ?_⟩
  · exact hlen.trans hown
  · exact hlen.le.trans (by omega)
  · exact (Nat.le_succ 1).trans hmax
  · intro l hl
    obtain rfl := Option.some.inj hl
    exact congrArg AMSDU_PADDING hown
  · show firstLen sw % 2^16 ≠ 0
    rw [hlen, hown, ownLen]
    omega

theorem le_paddedSum (l : ℕ) (ls : List ℕ) : l ≤ paddedSum (l::ls) := by
  cases ls with
  | nil => exact le_rfl
  | cons k ls => exact (Nat.le_add_right l _).trans (Nat.le_add_right _ _)

theorem DescOk.len_ne_zero (h : DescOk cfg sw) : sw.amsdu.len ≠ 0 := by
  have hle : ownLen sw ≤ sw.amsdu.len := h.sum ▸ le_paddedSum _ _
  unfold ownLen at hle
  omega

end Header

/-! ## Runs -/

section Run
variable {cfg} {mapError : Bool} {skb : Skb} {txq : Txq} {a : ℕ} {ans : Answer Txq}

structure Inv (cfg : Config) (txq : Txq) : Prop where
  sums : ∀ a < txq.next, (txq.descs a).amsdu.len ≠ 0 → DescOk cfg (txq.descs a)
  queued : ∀ a ∈ txq.queue, a < txq.next
  current : ∀ a ∈ txq.amsdu, a < txq.next ∧ (txq.descs a).amsdu.len ≠ 0 ∧
    (txq.descs a).amsdu.nb < cfg.amsduMaxnb

theorem Inv.close (h : Inv cfg txq) : Inv cfg (txq.setAmsdu none) :=
  ⟨h.sums, h.queued, nofun⟩

/-- An A-MSDU that is in order takes the place of a header. -/
theorem Inv.setDesc (h : Inv cfg txq) (ha : a < txq.next) {sw : SwTxhdr} (hok : DescOk cfg sw)
    {amsdu : Option ℕ} (hopen : ∀ b ∈ amsdu, b = a ∧ sw.amsdu.nb < cfg.amsduMaxnb) :
    Inv cfg ((txq.setDesc a sw).setAmsdu amsdu) where
  sums := by
    intro b hb hne
    show DescOk cfg (Function.update txq.descs a sw b)
    by_cases heq : b = a
    · rw [heq, Function.update_self]
      exact hok
    · replace hne : (Function.update txq.descs a sw b).amsdu.len ≠ 0 := hne
      rw [Function.update_of_ne heq] at hne ⊢
      exact h.sums b hb hne
  queued := h.queued
  current := by
    intro b hb
    obtain ⟨rfl, hnb⟩ := hopen b hb
    refine ⟨ha, ?_⟩
    show (Function.update txq.descs b sw b).amsdu.len ≠ 0 ∧
      (Function.update txq.descs b sw b).amsdu.nb < cfg.amsduMaxnb
    rw [Function.update_self]
    exact ⟨hok.len_ne_zero, hnb⟩

theorem extendAmsdu_inv (h : Inv cfg txq) (hlen : 14 ≤ skb.len) (ha : txq.amsdu = some a)
    (hans : extendAmsdu cfg mapError skb txq a = some ans) : Inv cfg ans.target := by
  obtain ⟨hnext, hne, hnb⟩ := h.current a ha
  unfold extendAmsdu at hans
  dsimp only at hans
  split_ifs at hans with hlong
  · obtain rfl := Option.some.inj hans
    exact h.close
  · obtain ⟨ans', hheader, rfl⟩ := Option.map_eq_some_iff.mp hans
    rcases amsduAddSubframeHeader_cases hheader with ⟨hok, -⟩ | ⟨hok, -, hdr, hadd, htarget⟩
    · rw [hok]
      exact h.close
    · have hlinked : DescOk cfg ans'.target := by
        rw [htarget]
        exact (h.sums a hnext hne).link hlen hadd (Nat.le_of_not_lt hlong) hnb _ _
      rw [hok, if_pos rfl]
      refine h.setDesc hnext hlinked fun b hb => ?_
      split_ifs at hb with hfull
      · cases hb
      · obtain rfl := Option.some.inj hb
        exact ⟨rfl, Nat.lt_of_not_le hfull⟩

theorem startAmsdu_inv (h : Inv cfg txq) (hlen : 14 ≤ skb.len) (hmax : 2 ≤ cfg.amsduMaxnb)
    (hnone : txq.amsdu = none) (ha : a < txq.next)
    (htype : Startable cfg (txq.descs a) skb → TypeRead (txq.descs a))
    (hans : startAmsdu cfg mapError skb txq a = some ans) : Inv cfg ans.target := by
  unfold startAmsdu at hans
  split_ifs at hans with hstart
  · obtain ⟨hok, -⟩ := started_ok (htype hstart) hstart hmax
    obtain ⟨ans', hheader, rfl⟩ := Option.map_eq_some_iff.mp hans
    rcases amsduAddSubframeHeader_cases hheader with
      ⟨hfail, htarget, -⟩ | ⟨hdone, -, hdr, hadd, htarget⟩
    · rw [hfail, htarget]
      have hset : Inv cfg ((txq.setDesc a (started (txq.descs a))).setAmsdu txq.amsdu) :=
        h.setDesc ha hok fun b hb => absurd (hnone ▸ hb) (Option.not_mem_none b)
      exact hset
    · have hu16 := cfg.amsduLen_u16
      have hfits : (started (txq.descs a)).amsdu.len+(started (txq.descs a)).amsdu.pad+newLen skb ≤
          cfg.amsduLen := by
        have hsum := hstart.2.2
        show firstLen (txq.descs a) % 2^16+_+_ ≤ _
        rw [Nat.mod_eq_of_lt (by omega)]
        exact hsum
      have hlinked : DescOk cfg { ans'.target with amsduFlag := true } := by
        rw [htarget]
        exact hok.link hlen hadd hfits hmax _ _
      rw [hdone, if_pos rfl]
      refine h.setDesc ha hlinked fun b hb => ?_
      split_ifs at hb with hroom
      · obtain rfl := Option.some.inj hb
        exact ⟨rfl, hroom⟩
      · cases hb
  · obtain rfl := Option.some.inj hans
    exact h

theorem amsduAddSubframe_inv (h : Inv cfg txq) (hlen : 14 ≤ skb.len)
    (htype : ∀ a, Starts cfg skb txq a → TypeRead (txq.descs a))
    (hans : amsduAddSubframe cfg mapError skb txq = some ans) : Inv cfg ans.target := by
  unfold amsduAddSubframe at hans
  split_ifs at hans with hoff
  · obtain rfl := Option.some.inj hans
    exact h
  · rw [not_or] at hoff
    have hmax : 2 ≤ cfg.amsduMaxnb := Nat.le_of_not_lt hoff.2
    cases hcurrent : txq.amsdu with
    | some a =>
      rw [hcurrent] at hans
      exact extendAmsdu_inv h hlen hcurrent hans
    | none =>
      rw [hcurrent] at hans
      dsimp only at hans
      cases hlast : txq.queue.getLast? with
      | none =>
        rw [hlast] at hans
        obtain rfl := Option.some.inj hans
        exact h
      | some a =>
        rw [hlast] at hans
        exact startAmsdu_inv h hlen hmax hcurrent (h.queued a (List.mem_of_getLast? hlast))
          (fun hstart => htype a ⟨hoff.1, hmax, hcurrent, hlast, hstart⟩) hans

theorem Inv.enqueue (h : Inv cfg txq) {sw : SwTxhdr} (hsw : sw.amsdu.len = 0) :
    Inv cfg (txq.enqueue sw) where
  sums := by
    intro a ha hne
    replace hne : (Function.update txq.descs txq.next sw a).amsdu.len ≠ 0 := hne
    show DescOk cfg (Function.update txq.descs txq.next sw a)
    by_cases heq : a = txq.next
    · rw [heq, Function.update_self] at hne
      exact absurd hsw hne
    · rw [Function.update_of_ne heq] at hne ⊢
      exact h.sums a (lt_of_le_of_ne (Nat.le_of_lt_succ ha) heq) hne
  queued := by
    intro a ha
    rcases List.mem_append.mp ha with hold | hnew
    · exact (h.queued a hold).trans (Nat.lt_succ_self _)
    · rw [List.mem_singleton.mp hnew]
      exact Nat.lt_succ_self _
  current := by
    intro a ha
    obtain ⟨hlt, hrest⟩ := h.current a ha
    refine ⟨hlt.trans (Nat.lt_succ_self _), ?_⟩
    show (Function.update txq.descs txq.next sw a).amsdu.len ≠ 0 ∧
      (Function.update txq.descs txq.next sw a).amsdu.nb < cfg.amsduMaxnb
    rwa [Function.update_of_ne hlt.ne]

theorem step_inv (txq : Txq) (act : Act) (txq' : Txq) (hannounced : Announced cfg txq act)
    (hstep : step cfg txq act = some txq') (h : Inv cfg txq) : Inv cfg txq' := by
  cases act with
  | xmit skb mapError alloc headroom packetCnt =>
    obtain ⟨⟨hlen, -⟩, hcall⟩ := Option.ite_none_right_eq_some.mp hstep
    obtain ⟨ans, hans, rfl⟩ := Option.map_eq_some_iff.mp hcall
    have hinv := amsduAddSubframe_inv h hlen hannounced hans
    split_ifs
    · exact hinv
    · exact hinv.enqueue rfl
  | push =>
    unfold step at hstep
    cases hqueue : txq.queue with
    | nil =>
      rw [hqueue] at hstep
      cases hstep
    | cons a rest =>
      rw [hqueue] at hstep
      obtain rfl := Option.some.inj hstep
      refine ⟨h.sums, fun b hb => h.queued b (hqueue ▸ List.mem_cons_of_mem a hb), fun b hb => ?_⟩
      have hcurrent : (if txq.amsdu = some a then none else txq.amsdu) = some b := hb
      split_ifs at hcurrent
      exact h.current b hcurrent

/-- A call that returns false changes a header only where it started an A-MSDU to which the new
frame could not be added. -/
theorem descs_eq_iff (hans : amsduAddSubframe cfg mapError skb txq = some ans)
    (hfalse : ans.ok = false) : ans.target.descs = txq.descs ↔
      ∀ a, Starts cfg skb txq a → ¬ HeaderFails cfg mapError skb (txq.descs a) := by
  have hidle (hno : ∀ a, ¬ Starts cfg skb txq a) (hsame : ans.target.descs = txq.descs) :
      ans.target.descs = txq.descs ↔
        ∀ a, Starts cfg skb txq a → ¬ HeaderFails cfg mapError skb (txq.descs a) :=
    iff_of_true hsame fun a ha => absurd ha (hno a)
  unfold amsduAddSubframe at hans
  split_ifs at hans with hoff
  · obtain rfl := Option.some.inj hans
    exact hidle (fun a ha => hoff.elim ha.1 (Nat.not_lt.mpr ha.2.1)) rfl
  rw [not_or] at hoff
  have hmax : 2 ≤ cfg.amsduMaxnb := Nat.le_of_not_lt hoff.2
  cases hcurrent : txq.amsdu with
  | some a =>
    rw [hcurrent] at hans
    refine hidle (fun b hb => ?_) ?_
    · rw [hb.2.2.1] at hcurrent
      cases hcurrent
    · unfold extendAmsdu at hans
      dsimp only at hans
      split_ifs at hans
      · obtain rfl := Option.some.inj hans
        rfl
      · obtain ⟨ans', -, rfl⟩ := Option.map_eq_some_iff.mp hans
        cases hok : ans'.ok with
        | true =>
          rw [hok] at hfalse
          cases hfalse
        | false => rfl
  | none =>
    rw [hcurrent] at hans
    dsimp only at hans
    cases hlast : txq.queue.getLast? with
    | none =>
      rw [hlast] at hans
      obtain rfl := Option.some.inj hans
      refine hidle (fun b hb => ?_) rfl
      have hsome := hb.2.2.2.1
      rw [hlast] at hsome
      cases hsome
    | some a =>
      rw [hlast] at hans
      unfold startAmsdu at hans
      dsimp only at hans
      split_ifs at hans with hstart
      · obtain ⟨ans', hheader, rfl⟩ := Option.map_eq_some_iff.mp hans
        rcases amsduAddSubframeHeader_cases hheader with ⟨hfail, htarget, hfails⟩ | ⟨hdone, -⟩
        · rw [hfail, htarget]
          refine iff_of_false (fun heq => ?_) fun hall =>
            hall a ⟨hoff.1, hmax, hcurrent, hlast, hstart⟩ hfails
          have hdesc : Function.update txq.descs a (started (txq.descs a)) a = txq.descs a :=
            congrFun heq a
          rw [Function.update_self] at hdesc
          have hlen : firstLen (txq.descs a) % 2^16 = 0 :=
            (congrArg (fun sw => sw.amsdu.len) hdesc).trans hstart.1
          have hu16 := cfg.amsduLen_u16
          have hfits := hstart.2.2
          unfold firstLen amsduSubframeLength at hlen hfits
          omega
        · rw [hdone] at hfalse
          cases hfalse
      · obtain rfl := Option.some.inj hans
        refine hidle (fun b hb => ?_) rfl
        obtain rfl := Option.some.inj (hlast.symm.trans hb.2.2.2.1)
        exact hstart hb.2.2.2.2

end Run

/-- Headers are reversible. A header that fails leaves the frame as it was, except one of Ethernet
II that is not mapped. A call that returns false leaves the queued header as it was, except where
it started an A-MSDU. A-MSDUs of frames whose types are read right are in order. -/
theorem amsdu_exact (cfg : Config) :
    (∀ mapError amsdu skb hdr, addHeader cfg.txhdrSize mapError amsdu skb = .linked hdr →
      (amsduDelSubframeHeader cfg.txhdrSize hdr).frame = skb.frame) ∧
    (∀ mapError amsdu skb skb', addHeader cfg.txhdrSize mapError amsdu skb = .failed skb' →
      14 ≤ skb.len → (skb'.frame = skb.frame ↔ (headroomNeed cfg.txhdrSize amsdu skb ≤ skb.data →
        EthernetII skb.mem skb.data → TwoPeriodic skb))) ∧
    (∀ mapError skb txq ans, amsduAddSubframe cfg mapError skb txq = some ans → ans.ok = false →
      (ans.target.descs = txq.descs ↔
        ∀ a, Starts cfg skb txq a → ¬ HeaderFails cfg mapError skb (txq.descs a))) ∧
    ∀ descs acts, Meets (step cfg) (Announced cfg) (start descs) acts →
      Throughout (step cfg) (AllOk cfg) (start descs) acts := by
  refine ⟨fun _ _ _ _ h => addHeader_linked h, fun _ _ _ _ h hlen => addHeader_failed h hlen,
    fun _ _ _ _ h hfalse => descs_eq_iff h hfalse, fun descs acts h => ?_⟩
  exact throughout_of_meets (J := Inv cfg) (fun _ _ _ hp hst hj => step_inv _ _ _ hp hst hj)
    (fun _ hj a ha hne => (hj.sums a ha hne).toAmsduOk) ⟨fun a ha => absurd ha (Nat.not_lt_zero a),
      fun _ ha => absurd ha List.not_mem_nil, fun a ha => absurd ha (Option.not_mem_none a)⟩ h

def config : Config := ⟨24, 4000, 6, by decide⟩

/-- A frame of Ethernet II with 46 bytes of zeros. -/
def ipFrame : Skb where
  mem := fun i => if i = 76 then 8 else if i < 76 then UInt8.ofNat i else 0
  data := 64
  tail := 124

/-- A frame that is not mapped loses two bytes of its header, and leaves a started A-MSDU behind.
An A-MSDU is eight bytes too short where the payload is not that of a frame of Ethernet II. -/
theorem amsdu_slips :
    ¬ (∀ mapError amsdu skb skb', addHeader config.txhdrSize mapError amsdu skb = .failed skb' →
      14 ≤ skb.len → skb'.frame = skb.frame) ∧
    ¬ (∀ mapError skb txq ans, amsduAddSubframe config mapError skb txq = some ans →
      ans.ok = false → ans.target.descs = txq.descs) ∧
    ¬ ∀ descs acts, Throughout (step config) (AllOk config) (start descs) acts := by
  let sw : SwTxhdr := queuedHeader ipFrame ipFrame 60 1
  refine ⟨fun h => ?_, fun h => ?_, fun h => ?_⟩
  · obtain ⟨skb', hskb'⟩ : ∃ skb', addHeader 24 true ⟨[], 60, 1, 0⟩ ipFrame = .failed skb' :=
      addHeader_failed_iff.mpr (.inr rfl)
    have hframe := h true ⟨[], 60, 1, 0⟩ ipFrame skb' hskb' (by decide)
    have hperiodic := (addHeader_failed hskb' (by decide)).mp hframe (by decide) (by decide)
    exact absurd (hperiodic 0 (by decide)) (by decide)
  · have hok : (amsduAddSubframe config true ipFrame ((start fun _ => sw).enqueue sw)).map
        (fun ans => (ans.ok, (ans.target.descs 0).amsdu.nb)) = some (false, 1) := by decide +kernel
    obtain ⟨ans, hans, heq⟩ := Option.map_eq_some_iff.mp hok
    obtain ⟨hfalse, hnb⟩ := Prod.mk.inj heq
    have hdescs := h true ipFrame _ ans hans hfalse
    rw [hdescs] at hnb
    exact absurd hnb (by decide +kernel)
  · have hrun : (exec (step config) (start fun _ => sw)
        [.xmit ipFrame false true 60 1, .xmit ipFrame false true 60 1]).map
        (fun txq => (txq.next, (txq.descs 0).amsdu.len,
          paddedSum (subframeLens config (txq.descs 0)))) = some (1, 128, 136) := by
      decide +kernel
    obtain ⟨txq, hexec, heq⟩ := Option.map_eq_some_iff.mp hrun
    obtain ⟨hnext, hlens⟩ := Prod.mk.inj heq
    obtain ⟨hlen, hsum⟩ := Prod.mk.inj hlens
    have hok := h (fun _ => sw) _ _ (List.prefix_refl _) txq hexec 0 (by omega) (by omega)
    have heven := hok.sum
    omega

end AIC.AmsduQueue
