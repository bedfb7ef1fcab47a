import Aic8800.TxAggregate

/-!
# Reading a transmit aggregate

The firmware's side of `aicwf_sdio_aggr`: a reader that goes from header to
header by the twelve bit length, rounded to a word. Each packet appended is one
record to it, for both kinds of header, and it stops at the tail both in the
buffer and in the blocks that are sent, whatever the memory behind the tail holds.
-/

set_option autoImplicit false

namespace AIC.TxAggregateFormat
open AIC.RxAggregate AIC.TxAggregate Lib.LoopRun

/-- A record the reader comes to. `body` has the rounded length. -/
structure Found where
  start : ℕ
  header : List UInt8
  body : List UInt8
  deriving DecidableEq

def headerLen (h0 h1 : UInt8) : ℕ := h0.toNat+256*(h1 &&& 0x0f).toNat

/-- The result is the offset at which the reader stops: the end of the area or a length of zero. -/
def readTurn (area : List UInt8) (_ off : ℕ) : Turn ℕ Found ℕ :=
  match area.drop off with
  | h0::h1::h2::h3::rest =>
    let n := roundup (headerLen h0 h1) TX_ALIGNMENT
    if headerLen h0 h1 = 0 then .stop off
    else .next (off+4+n) [⟨off, [h0, h1, h2, h3], rest.take n⟩]
  | _ => .stop off

/-- The header of a record of `n` bytes: the aligned length and a zero, or the exact length
under the check byte. -/
def headerOf (chipid : ProductId) (n : ℕ) : List UInt8 :=
  if chipid.plainHeader then
    [lengthLow (roundup n TX_ALIGNMENT), lengthHigh (roundup n TX_ALIGNMENT), 0x01, 0]
  else [lengthLow n, lengthHigh n, 0x01, crc8Ponl107 [lengthLow n, lengthHigh n, 0x01]]

def bodyOf (pkt : TxPkt) : List UInt8 :=
  pkt.desc++pkt.payload++List.replicate (roundup pkt.recordLen TX_ALIGNMENT-pkt.recordLen) 0

def recordOf (chipid : ProductId) (pkt : TxPkt) : List UInt8 :=
  headerOf chipid pkt.recordLen++bodyOf pkt

/-- What a record says about the packet it was made from. -/
structure Carries (chipid : ProductId) (pkt : TxPkt) (f : Found) : Prop where
  aligned : f.start % 4 = 0
  header : f.header = headerOf chipid pkt.recordLen
  body : f.body = bodyOf pkt
  padding : roundup pkt.recordLen TX_ALIGNMENT-pkt.recordLen < 4

/-! ## Lengths -/

theorem headerLen_length {n : ℕ} (h : n < 4096) : headerLen (lengthLow n) (lengthHigh n) = n := by
  have hlow : (lengthLow n).toNat = n % 256 := by
    rw [lengthLow, UInt8.toNat_ofNat']
    have := Nat.and_two_pow_sub_one_eq_mod n 8
    norm_num at this
    omega
  have hshift : (n >>> 8) &&& 0x0f = n/256 := by
    have := Nat.and_two_pow_sub_one_eq_mod (n >>> 8) 4
    rw [Nat.shiftRight_eq_div_pow] at this ⊢
    norm_num at this ⊢
    omega
  have hhigh : (lengthHigh n &&& 0x0f).toNat = n/256 := by
    rw [UInt8.toNat_and, lengthHigh, hshift, UInt8.toNat_ofNat']
    have hmask := Nat.and_two_pow_sub_one_eq_mod (n/256 % 256) 4
    have hsmall : n/256 % 256 % 16 = n/256 := by omega
    exact hmask.trans hsmall
  rw [headerLen, hlow, hhigh]
  omega

theorem roundup_word (n : ℕ) : roundup n TX_ALIGNMENT = (n+3)/4*4 := rfl

theorem payload_length (pkt : TxPkt) : pkt.payload.length = pkt.skb.len-pkt.headroom := by
  simp [TxPkt.payload, SkBuff.slice]

theorem bodyOf_length (pkt : TxPkt) : (bodyOf pkt).length = roundup pkt.recordLen TX_ALIGNMENT := by
  have hle : pkt.recordLen ≤ roundup pkt.recordLen TX_ALIGNMENT := by
    rw [roundup_word]
    omega
  simp only [bodyOf, List.length_append, List.length_replicate, payload_length]
  simp only [TxPkt.recordLen] at hle ⊢
  omega

theorem headerOf_length (chipid : ProductId) (n : ℕ) : (headerOf chipid n).length = 4 := by
  cases chipid <;> rfl

theorem recordOf_length (chipid : ProductId) (pkt : TxPkt) :
    (recordOf chipid pkt).length = 4+roundup pkt.recordLen TX_ALIGNMENT := by
  rw [recordOf, List.length_append, headerOf_length, bodyOf_length]

theorem wordAlign_eq (bytes : List UInt8) :
    wordAlign bytes = bytes++List.replicate (roundup bytes.length TX_ALIGNMENT-bytes.length) 0 := by
  have hmask := Nat.and_two_pow_sub_one_eq_mod bytes.length 2
  norm_num at hmask
  by_cases h : bytes.length % 4 = 0
  · have hgap : roundup bytes.length TX_ALIGNMENT-bytes.length = 0 := by
      rw [roundup_word]
      omega
    have hno : ¬ bytes.length &&& (TX_ALIGNMENT-1) ≠ 0 := not_not.mpr (hmask.trans h)
    rw [wordAlign, if_neg hno, hgap, List.replicate_zero, List.append_nil]
  · have hyes : bytes.length &&& (TX_ALIGNMENT-1) ≠ 0 := fun hz => h (hmask.symm.trans hz)
    rw [wordAlign, if_pos hyes]

/-! ## What is appended -/

theorem patchLength_append (pre : List UInt8) (h0 h1 : UInt8) (rest : List UInt8) :
    patchLength pre.length (pre++(h0::h1::rest)) =
      pre++(lengthLow (rest.length-2)::lengthHigh (rest.length-2)::rest) := by
  have hlen : (pre++(h0::h1::rest)).length-pre.length-4 = rest.length-2 := by
    simp only [List.length_append, List.length_cons]
    omega
  rw [patchLength, hlen]
  simp

/-- On an aligned buffer, appending a packet appends its record. -/
theorem aggr_bytes (chipid : ProductId) (b : AggrBuf) (pkt : TxPkt) (h : b.bytes.length % 4 = 0) :
    (aicwfSdioAggr chipid b pkt).bytes = b.bytes++recordOf chipid pkt := by
  have hpad : wordAlign (b.bytes++sdioHeader chipid pkt.recordLen++pkt.desc++pkt.payload) =
      b.bytes++(sdioHeader chipid pkt.recordLen++bodyOf pkt) := by
    have hlen : (b.bytes++sdioHeader chipid pkt.recordLen++pkt.desc++pkt.payload).length =
        b.bytes.length+4+pkt.recordLen := by
      simp [payload_length, sdioHeader, TxPkt.recordLen]
      omega
    have hgap : roundup (b.bytes.length+4+pkt.recordLen) TX_ALIGNMENT-
        (b.bytes.length+4+pkt.recordLen) = roundup pkt.recordLen TX_ALIGNMENT-pkt.recordLen := by
      simp only [roundup_word]
      omega
    rw [wordAlign_eq, hlen, hgap]
    simp only [bodyOf, List.append_assoc]
  simp only [aicwfSdioAggr, hpad]
  cases hc : chipid.plainHeader with
  | false => simp [recordOf, headerOf, sdioHeader, hc]
  | true =>
    have hbody : (0x01::0::bodyOf pkt).length-2 = roundup pkt.recordLen TX_ALIGNMENT := by
      rw [← bodyOf_length]
      rfl
    have hpatch := patchLength_append b.bytes (lengthLow pkt.recordLen) (lengthHigh pkt.recordLen)
      (0x01::0::bodyOf pkt)
    rw [hbody] at hpatch
    simpa [recordOf, headerOf, sdioHeader, hc] using hpatch

def records (chipid : ProductId) (pkts : List TxPkt) : List UInt8 :=
  pkts.flatMap (recordOf chipid)

theorem records_aligned (chipid : ProductId) (pkts : List TxPkt) :
    (records chipid pkts).length % 4 = 0 := by
  induction pkts with
  | nil => rfl
  | cons pkt pkts ih =>
    simp only [records, List.flatMap_cons, List.length_append] at ih ⊢
    rw [recordOf_length, roundup_word]
    omega

theorem aggr_all (chipid : ProductId) (pkts : List TxPkt) (b : AggrBuf)
    (h : b.bytes.length % 4 = 0) :
    pkts.foldl (aicwfSdioAggr chipid) b =
      ⟨b.bytes++records chipid pkts, b.aggrCount+pkts.length⟩ := by
  induction pkts generalizing b with
  | nil => simp [records]
  | cons pkt pkts ih =>
    have hnext : (aicwfSdioAggr chipid b pkt).bytes.length % 4 = 0 := by
      rw [aggr_bytes chipid b pkt h, List.length_append, recordOf_length, roundup_word]
      omega
    rw [List.foldl_cons, ih _ hnext, aggr_bytes chipid b pkt h]
    simp only [records, List.flatMap_cons, List.append_assoc, List.length_cons]
    congr 1
    simp only [aicwfSdioAggr]
    omega

/-! ## Reading back -/

theorem headerOf_reads (chipid : ProductId) {n : ℕ} (h : n ≤ 4092) : ∃ h0 h1 h2 h3,
    headerOf chipid n = [h0, h1, h2, h3] ∧
      roundup (headerLen h0 h1) TX_ALIGNMENT = roundup n TX_ALIGNMENT ∧
      (headerLen h0 h1 = 0 ↔ n = 0) := by
  cases hc : chipid.plainHeader with
  | false =>
    refine ⟨_, _, _, _, by simp only [headerOf, hc]; rfl, ?_, ?_⟩ <;>
      rw [headerLen_length (by omega)]
  | true =>
    have hr : roundup n TX_ALIGNMENT < 4096 := by
      rw [roundup_word]
      omega
    refine ⟨_, _, _, _, by simp only [headerOf, hc]; rfl, ?_, ?_⟩
    · rw [headerLen_length hr]
      simp only [roundup_word]
      omega
    · rw [headerLen_length hr, roundup_word]
      omega

theorem read_record (chipid : ProductId) (pkt : TxPkt) (hlen : 1 ≤ pkt.recordLen ∧
    pkt.recordLen ≤ 4092) (pre rest : List UInt8) (k : ℕ) :
    readTurn (pre++(recordOf chipid pkt++rest)) k pre.length =
      .next (pre++recordOf chipid pkt).length
        [⟨pre.length, headerOf chipid pkt.recordLen, bodyOf pkt⟩] := by
  obtain ⟨h0, h1, h2, h3, hh, hround, hzero⟩ := headerOf_reads chipid hlen.2
  have hne : ¬ headerLen h0 h1 = 0 := by
    rw [hzero]
    omega
  have hdrop : (pre++(recordOf chipid pkt++rest)).drop pre.length =
      h0::h1::h2::h3::(bodyOf pkt++rest) := by
    rw [List.drop_left, recordOf, hh]
    rfl
  have htake : (bodyOf pkt++rest).take (roundup pkt.recordLen TX_ALIGNMENT) = bodyOf pkt := by
    rw [← bodyOf_length, List.take_left]
  simp only [readTurn, hdrop, if_neg hne, hround, htake]
  rw [List.length_append, recordOf_length, hh]
  congr 1
  omega

/-- The reader stops at the tail: nothing follows it, or a word of zeros. -/
def Stops (rest : List UInt8) : Prop := rest = [] ∨ ∃ more, rest = 0::0::0::0::more

theorem read_tail {rest : List UInt8} (h : Stops rest) (pre : List UInt8) (k : ℕ) :
    readTurn (pre++rest) k pre.length = .stop pre.length := by
  simp only [readTurn, List.drop_left]
  rcases h with h | ⟨more, h⟩
  · simp [h]
  · simp [h, headerLen]

theorem read_all (chipid : ProductId) (pkts : List TxPkt)
    (hlen : ∀ pkt ∈ pkts, 1 ≤ pkt.recordLen ∧ pkt.recordLen ≤ 4092) {rest : List UInt8}
    (hrest : Stops rest) (pre : List UInt8) (hpre : pre.length % 4 = 0) (k : ℕ) :
    ∃ found, Ends (readTurn (pre++(records chipid pkts++rest))) k pre.length
      (pre++records chipid pkts).length found ∧ List.Forall₂ (Carries chipid) pkts found := by
  induction pkts generalizing pre k with
  | nil =>
    have hstop := read_tail hrest pre k
    exact ⟨[], by simpa [records] using Ends.stop hstop, .nil⟩
  | cons pkt pkts ih =>
    have hturn := read_record chipid pkt (hlen pkt List.mem_cons_self) pre
      (records chipid pkts++rest) k
    have hnext : (pre++recordOf chipid pkt).length % 4 = 0 := by
      rw [List.length_append, recordOf_length, roundup_word]
      omega
    obtain ⟨found, hends, hall⟩ := ih (fun p hp => hlen p (List.mem_cons_of_mem _ hp))
      (pre++recordOf chipid pkt) hnext (k+1)
    have hsplit : pre++(records chipid (pkt::pkts)++rest) =
        pre++(recordOf chipid pkt++(records chipid pkts++rest)) := by
      simp only [records, List.flatMap_cons, List.append_assoc]
    have hfinal : pre++records chipid (pkt::pkts) =
        pre++recordOf chipid pkt++records chipid pkts := by
      simp only [records, List.flatMap_cons, List.append_assoc]
    rw [List.append_assoc] at hends
    rw [hsplit, hfinal]
    have hpad : roundup pkt.recordLen TX_ALIGNMENT-pkt.recordLen < 4 := by
      rw [roundup_word]
      omega
    exact ⟨_, .next hturn hends, .cons ⟨hpre, rfl, rfl, hpad⟩ hall⟩

theorem txpkt_stops (chipid : ProductId) (pkts : List TxPkt) (stale : ℕ → UInt8) :
    ∃ rest, aicwfSdioTxpkt stale (linkTail (records chipid pkts)) = records chipid pkts++rest ∧
      Stops rest := by
  by_cases h : (records chipid pkts).length % TXPKT_BLOCKSIZE = 0
  · have hgap : ((records chipid pkts).length+SDIOWIFI_FUNC_BLOCKSIZE-1)/SDIOWIFI_FUNC_BLOCKSIZE*
        SDIOWIFI_FUNC_BLOCKSIZE-(records chipid pkts).length = 0 := by
      simp only [TXPKT_BLOCKSIZE, SDIOWIFI_FUNC_BLOCKSIZE] at h ⊢
      omega
    have hlink : linkTail (records chipid pkts) = records chipid pkts := by
      rw [linkTail, if_neg (not_not.mpr h)]
    refine ⟨[], ?_, .inl rfl⟩
    rw [hlink]
    simp only [aicwfSdioTxpkt, hgap, List.range_zero, List.map_nil]
  · have hlink : linkTail (records chipid pkts) = records chipid pkts++[0, 0, 0, 0] := by
      rw [linkTail, if_pos h]
      rfl
    rw [hlink]
    exact ⟨_, List.append_assoc .., .inr ⟨_, rfl⟩⟩

/-- The buffer and the blocks sent for it read as the packets, one record each and in order. -/
theorem aggregate_decodes (chipid : ProductId) (pkts : List TxPkt)
    (hlen : ∀ pkt ∈ pkts, 1 ≤ pkt.recordLen ∧ pkt.recordLen ≤ 4092) (stale : ℕ → UInt8) :
    let buf := (pkts.foldl (aicwfSdioAggr chipid) .empty).bytes
    ∀ area ∈ [buf, aicwfSdioTxpkt stale (linkTail buf)], ∃ fuel found,
      loop (readTurn area) fuel 0 0 = (some buf.length, found) ∧
        List.Forall₂ (Carries chipid) pkts found := by
  have hbuf : (pkts.foldl (aicwfSdioAggr chipid) .empty).bytes = records chipid pkts := by
    rw [aggr_all chipid pkts .empty rfl]
    rfl
  have hread : ∀ rest, Stops rest → ∃ fuel found,
      loop (readTurn (records chipid pkts++rest)) fuel 0 0 =
        (some (records chipid pkts).length, found) ∧ List.Forall₂ (Carries chipid) pkts found := by
    intro rest hrest
    obtain ⟨found, hends, hall⟩ := read_all chipid pkts hlen hrest [] rfl 0
    obtain ⟨fuel, hf⟩ := loop_of_ends hends
    exact ⟨fuel, found, hf, hall⟩
  intro buf area harea
  simp only [buf, hbuf] at harea ⊢
  rcases List.mem_pair.mp harea with rfl | rfl
  · simpa using hread [] (.inl rfl)
  · obtain ⟨rest, hsent, hrest⟩ := txpkt_stops chipid pkts stale
    rw [hsent]
    exact hread rest hrest

def samplePkt (body : List UInt8) : TxPkt where
  skb := .ofList ([9, 9]++body)
  headroom := 2
  desc := [1, 2, 3, 4]
  needCfm := false
  room := by simp [SkBuff.ofList]

theorem aggregate_decodes_sample :
    let buf := ([samplePkt [5], samplePkt [6, 7, 8, 9]].foldl (aicwfSdioAggr .aic8800D80) .empty).bytes
    buf.length = 24 ∧ ∃ fuel found,
      loop (readTurn (aicwfSdioTxpkt (fun _ => 7) (linkTail buf))) fuel 0 0 = (some buf.length, found) ∧
        List.Forall₂ (Carries .aic8800D80) [samplePkt [5], samplePkt [6, 7, 8, 9]] found :=
  ⟨by decide, aggregate_decodes .aic8800D80 [samplePkt [5], samplePkt [6, 7, 8, 9]]
    (by simp [samplePkt, TxPkt.recordLen, SkBuff.ofList]) (fun _ => 7) _
    (List.mem_cons_of_mem _ List.mem_cons_self)⟩

end AIC.TxAggregateFormat
