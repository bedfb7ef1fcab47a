import Aic8800.Lib.FlatMemory
import Mathlib.Algebra.Order.Ring.Nat
import Mathlib.Tactic.SplitIfs

/-!
# The headers of an A-MSDU sub-frame

`rwnx_amsdu_add_subframe_header` keeps the Ethernet header in front of the ones it builds,
and `rwnx_amsdu_del_subframe_header` moves it back. The structure at the start of the
headroom is kept beside the buffer.
-/

set_option autoImplicit false

namespace AIC.AmsduHeader
open Lib.FlatMemory

def ETH_P_802_3_MIN : ℕ := 0x0600

def rfc1042Header : List UInt8 := [0xaa, 0xaa, 0x03, 0x00, 0x00, 0x00]

/-- A buffer from address 0 on. The headroom lies before `data`. -/
structure Skb where
  mem : ℕ → UInt8
  data : ℕ
  tail : ℕ

def Skb.len (skb : Skb) : ℕ := skb.tail-skb.data

/-- The bytes of the frame. -/
def Skb.frame (skb : Skb) : List UInt8 := cells skb.mem skb.data skb.len

/-- `ntohs(eth->h_proto)`. -/
def hProto (mem : ℕ → UInt8) (eth : ℕ) : ℕ := (mem (eth+12)).toNat*256+(mem (eth+13)).toNat

/-- The frame is one of Ethernet II, to which an LLC/SNAP header is added. -/
def EthernetII (mem : ℕ → UInt8) (eth : ℕ) : Prop := ETH_P_802_3_MIN ≤ hProto mem eth

instance (mem : ℕ → UInt8) (eth : ℕ) : Decidable (EthernetII mem eth) :=
  inferInstanceAs (Decidable (_ ≤ _))

/-- The room for the LLC/SNAP header and the type. -/
def llcLen (mem : ℕ → UInt8) (eth : ℕ) : ℕ :=
  if EthernetII mem eth then rfc1042Header.length+2 else 0

def amsduSubframeLength (mem : ℕ → UInt8) (eth ethLen : ℕ) : ℕ := ethLen+llcLen mem eth

def AMSDU_PADDING (x : ℕ) : ℕ := (4-x % 4) % 4

/-- `struct rwnx_amsdu_txhdr`. -/
structure AmsduTxhdr where
  mapLen : ℕ
  skb : Skb
  pad : ℕ
  msduLen : ℕ

/-- `struct rwnx_amsdu`. -/
structure Amsdu where
  hdrs : List AmsduTxhdr
  len : ℕ
  nb : ℕ
  pad : ℕ

-- `sizeof(struct rwnx_amsdu_txhdr)`, which depends on the size of a pointer.
variable (txhdrSize : ℕ)

/-- `rwnx_amsdu_del_subframe_header`. -/
def amsduDelSubframeHeader (hdr : AmsduTxhdr) : Skb :=
  let eth := hdr.skb.data+txhdrSize
  let pos := eth+hdr.pad+14+llcLen hdr.skb.mem eth
  { hdr.skb with mem := move pos eth 14 hdr.skb.mem, data := pos }

def headroomNeed (amsdu : Amsdu) (skb : Skb) : ℕ :=
  txhdrSize+amsdu.pad+14+llcLen skb.mem skb.data

def msduLen (skb : Skb) : ℕ := skb.len-14+llcLen skb.mem skb.data

def mapLen (amsdu : Amsdu) (skb : Skb) : ℕ := msduLen skb+amsdu.pad+14

/-- The Ethernet header moved to `eth`, the padding, and the A-MSDU header behind it. -/
def headed (pad msdu eth : ℕ) (skb : Skb) : ℕ → UInt8 :=
  let mem := move eth skb.data 14 skb.mem
  let mem := fill (eth+14) pad 0 mem
  let hdr := eth+14+pad
  let mem := move hdr eth 6 mem
  let mem := move (hdr+6) (eth+6) 6 mem
  store (hdr+12) [UInt8.ofNat (msdu/256), UInt8.ofNat msdu] mem

def built (pad msdu eth : ℕ) (skb : Skb) : ℕ → UInt8 :=
  let mem := headed pad msdu eth skb
  if EthernetII mem eth then store (eth+14+pad+14) rfc1042Header mem else mem

/-- Where the building ended. -/
def builtEnd (pad eth : ℕ) (mem : ℕ → UInt8) : ℕ :=
  eth+14+pad+14+if EthernetII mem eth then rfc1042Header.length else 0

/-- What `rwnx_amsdu_add_subframe_header` does to the frame, and the header that it links. -/
inductive Added where
  | failed (skb : Skb)
  | linked (hdr : AmsduTxhdr)

def addHeader (mapError : Bool) (amsdu : Amsdu) (skb : Skb) : Added :=
  let need := headroomNeed txhdrSize amsdu skb
  if skb.data < need then .failed skb
  else
    let eth := skb.data-need+txhdrSize
    let mem := built amsdu.pad (msduLen skb) eth skb
    if mapError then
      let pos := builtEnd amsdu.pad eth mem-14
      .failed { skb with mem := move pos eth 14 mem }
    else
      .linked
        { mapLen := mapLen amsdu skb
          skb := { skb with mem := mem, data := skb.data-need }
          pad := amsdu.pad
          msduLen := msduLen skb % 2^16 }

/-! ## What is built -/

section Built
variable {pad msdu eth : ℕ} {skb : Skb}

/-- The Ethernet header is kept. -/
theorem headed_eth {i : ℕ} (hi : i < 14) :
    headed pad msdu eth skb (eth+i) = skb.mem (skb.data+i) := by
  unfold headed
  rw [store_outside (by omega), move_outside (by omega), move_outside (by omega),
    fill_outside (by omega), move_inside hi]

theorem headed_behind {i : ℕ} (hi : eth+pad+28 ≤ i) : headed pad msdu eth skb i = skb.mem i := by
  unfold headed
  rw [store_outside (Or.inr (by simpa using (by omega : eth+14+pad+12+2 ≤ i))),
    move_outside (by omega), move_outside (by omega), fill_outside (by omega),
    move_outside (by omega)]

theorem built_eth {i : ℕ} (hi : i < 14) :
    built pad msdu eth skb (eth+i) = skb.mem (skb.data+i) := by
  unfold built
  split_ifs
  · rw [store_outside (by omega), headed_eth hi]
  · exact headed_eth hi

theorem ethernetII_congr {mem mem' : ℕ → UInt8} {eth eth' : ℕ}
    (h : ∀ i < 14, mem (eth+i) = mem' (eth'+i)) : EthernetII mem eth ↔ EthernetII mem' eth' := by
  unfold EthernetII hProto
  rw [h 12 (by omega), h 13 (by omega)]

theorem built_ethernetII :
    EthernetII (built pad msdu eth skb) eth ↔ EthernetII skb.mem skb.data :=
  ethernetII_congr fun _ => built_eth

theorem built_llcLen : llcLen (built pad msdu eth skb) eth = llcLen skb.mem skb.data := by
  unfold llcLen
  simp only [built_ethernetII]

/-- Nothing is written behind the LLC/SNAP header. -/
theorem built_behind {i : ℕ} (hi : eth+pad+28 ≤ i)
    (hllc : EthernetII skb.mem skb.data → eth+pad+34 ≤ i) :
    built pad msdu eth skb i = skb.mem i := by
  have hiff : EthernetII (headed pad msdu eth skb) eth ↔ EthernetII skb.mem skb.data :=
    ethernetII_congr fun _ => headed_eth
  unfold built
  split_ifs with hsnap
  · have hbehind := hllc (hiff.mp hsnap)
    rw [store_outside (Or.inr (by simpa [rfc1042Header] using (by omega : eth+14+pad+14+6 ≤ i))),
      headed_behind hi]
  · exact headed_behind hi

end Built

/-! ## Reversal -/

variable {txhdrSize} {mapError : Bool} {amsdu : Amsdu} {skb skb' : Skb} {hdr : AmsduTxhdr}

theorem frame_eq_of {mem : ℕ → UInt8} (h : ∀ i, skb.data ≤ i → mem i = skb.mem i) :
    Skb.frame { skb with mem := mem } = skb.frame :=
  cells_eq_iff.mpr fun _ _ => h _ (Nat.le_add_right _ _)

/-- Taking away the header that was added gives the frame back. -/
theorem addHeader_restored (h : addHeader txhdrSize mapError amsdu skb = .linked hdr) :
    ∃ mem, amsduDelSubframeHeader txhdrSize hdr = { skb with mem := mem } ∧
      ∀ i, skb.data ≤ i → mem i = skb.mem i := by
  unfold addHeader at h
  dsimp only at h
  split_ifs at h with hroom
  obtain rfl := Added.linked.inj h
  unfold amsduDelSubframeHeader
  dsimp only
  rw [built_llcLen]
  unfold headroomNeed at hroom ⊢
  generalize hllc : llcLen skb.mem skb.data = llc at hroom ⊢
  have heth : skb.data-(txhdrSize+amsdu.pad+14+llc)+txhdrSize+amsdu.pad+14+llc = skb.data := by
    omega
  rw [heth]
  refine ⟨_, rfl, fun i hi => ?_⟩
  by_cases hhdr : i < skb.data+14
  · obtain ⟨j, rfl⟩ := Nat.exists_eq_add_of_le hi
    rw [move_inside (by omega), built_eth (by omega)]
  · rw [move_outside (by omega), built_behind (by omega) fun hII => ?_]
    have hsnap : llc = 8 := hllc ▸ if_pos hII
    omega

theorem addHeader_linked (h : addHeader txhdrSize mapError amsdu skb = .linked hdr) :
    (amsduDelSubframeHeader txhdrSize hdr).frame = skb.frame := by
  obtain ⟨mem, hdel, hmem⟩ := addHeader_restored h
  rw [hdel]
  exact frame_eq_of hmem

theorem addHeader_mapLen (h : addHeader txhdrSize mapError amsdu skb = .linked hdr) :
    hdr.mapLen = mapLen amsdu skb := by
  unfold addHeader at h
  dsimp only at h
  split_ifs at h
  rw [← Added.linked.inj h]

/-- A header is not added where there is no room, or where the mapping fails. -/
theorem addHeader_failed_iff : (∃ skb', addHeader txhdrSize mapError amsdu skb = .failed skb') ↔
    skb.data < headroomNeed txhdrSize amsdu skb ∨ mapError = true := by
  unfold addHeader
  dsimp only
  split_ifs with hroom hmap
  · exact iff_of_true ⟨_, rfl⟩ (.inl hroom)
  · exact iff_of_true ⟨_, rfl⟩ (.inr hmap)
  · exact iff_of_false nofun (by simp [hroom, hmap])

/-- The bytes of the header repeat with a period of two. -/
def TwoPeriodic (skb : Skb) : Prop := ∀ i < 12, skb.mem (skb.data+i+2) = skb.mem (skb.data+i)

/-- A header that is not added leaves the frame as it was, except behind a mapping that failed for
a frame of Ethernet II. -/
theorem addHeader_failed (h : addHeader txhdrSize mapError amsdu skb = .failed skb')
    (hlen : 14 ≤ skb.len) : skb'.frame = skb.frame ↔
      (headroomNeed txhdrSize amsdu skb ≤ skb.data → EthernetII skb.mem skb.data →
        TwoPeriodic skb) := by
  unfold addHeader at h
  dsimp only at h
  split_ifs at h with hroom
  · obtain rfl := Added.failed.inj h
    exact iff_of_true rfl fun hle => absurd hroom (Nat.not_lt.mpr hle)
  obtain rfl := Added.failed.inj h
  have hle : headroomNeed txhdrSize amsdu skb ≤ skb.data := Nat.le_of_not_lt hroom
  obtain ⟨eth, heth⟩ : ∃ eth, eth = skb.data-headroomNeed txhdrSize amsdu skb+txhdrSize := ⟨_, rfl⟩
  rw [← heth]
  unfold headroomNeed at hle heth
  unfold builtEnd
  by_cases hII : EthernetII skb.mem skb.data
  · -- The end lies two bytes before that of the Ethernet header.
    have hllc : llcLen skb.mem skb.data = 8 := if_pos hII
    have hpos : eth+14+amsdu.pad+14+rfc1042Header.length-14 = skb.data-2 := by
      show eth+14+amsdu.pad+14+6-14 = skb.data-2
      omega
    rw [if_pos (built_ethernetII.mpr hII), hpos]
    have hmoved {i : ℕ} (hi : i < 12) : move (skb.data-2) eth 14
        (built amsdu.pad (msduLen skb) eth skb) (skb.data+i) = skb.mem (skb.data+i+2) := by
      have haddr : skb.data+i = skb.data-2+(i+2) := by omega
      rw [haddr, move_inside (by omega), built_eth (by omega)]
      congr 1
      omega
    refine cells_eq_iff.trans ⟨fun heq _ _ i hi => ?_, fun hperiodic i _ => ?_⟩
    · rw [← hmoved hi]
      exact heq i (lt_of_lt_of_le hi ((by decide : 12 ≤ 14).trans hlen))
    · show move (skb.data-2) eth 14 (built amsdu.pad (msduLen skb) eth skb) (skb.data+i) =
        skb.mem (skb.data+i)
      by_cases hi : i < 12
      · exact (hmoved hi).trans (hperiodic (by unfold headroomNeed; omega) hII i hi)
      · rw [move_outside (by omega), built_behind (by omega) fun _ => by omega]
  · have hllc : llcLen skb.mem skb.data = 0 := if_neg hII
    have hpos : eth+14+amsdu.pad+14+0-14 = skb.data := by omega
    rw [if_neg (mt built_ethernetII.mp hII), hpos]
    refine iff_of_true (frame_eq_of fun i hi => ?_) fun _ h => absurd h hII
    by_cases hhdr : i < skb.data+14
    · obtain ⟨j, rfl⟩ := Nat.exists_eq_add_of_le hi
      rw [move_inside (by omega), built_eth (by omega)]
    · rw [move_outside (by omega), built_behind (by omega) fun h => absurd h hII]

end AIC.AmsduHeader
