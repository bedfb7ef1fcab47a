import Aic8800.Lib.LoopRun
import Aic8800.RxAggregate
import Aic8800.SkBuff

/-!
# The DHCP replies behind ARP offload

`arpoffload_proc` on a received packet: the headers one after the other, then a
walk over the options that sends a request for each acknowledgement. The bytes
it looks at are listed beside it. What it ought to find is said by the options
of the packet, read as they are meant.
-/

set_option autoImplicit false

namespace AIC.ArpOffload
open Lib.LoopRun
open AIC.RxAggregate (u16)

def SERVER_PORT : ℕ := 67
def CLIENT_PORT : ℕ := 68
def DHCP_MAGIC : List UInt8 := [0x63, 0x82, 0x53, 0x63]
def DHCP_ACK : UInt8 := 5
def DHCP_OPTION_MESSAGE_TYPE : UInt8 := 53
def DHCP_OPTION_END : UInt8 := 255
def IPPROTO_UDP : ℕ := 17
def WLAN_CIPHER_SUITE_CCMP : ℕ := 0x000FAC04
def WLAN_CIPHER_SUITE_AES_CMAC : ℕ := 0x000FAC06

/-- `sizeof(struct udphdr)` and the fields in front of the options. -/
def FIXED_LEN : ℕ := 248

/-- A received packet from the IP header on, and the interface it comes in on. With its hardware
header of 60 bytes it has a length of 16 bits. -/
structure Packet where
  skb : SkBuff
  isIp : Bool
  devAddr : List UInt8
  pairedCipherType : ℕ
  groupCipherType : ℕ
  short : skb.len ≤ 65475

structure ArpoffloadEnReq where
  ipaddr : List UInt8
  enable : Bool
  deriving DecidableEq

namespace Packet
variable (p : Packet)

def byte (i : ℕ) : ℕ := (p.skb.data i).toNat
def ntohs (i : ℕ) : ℕ := 256*p.byte i+p.byte (i+1)

/-- `iphead->ihl << 2` -/
def udph : ℕ := 4*(p.byte 0 % 16)

def source : ℕ := p.ntohs p.udph
def dest : ℕ := p.ntohs (p.udph+2)
def udpLen : ℕ := p.ntohs (p.udph+4)
def op : ℕ := p.byte (p.udph+8)
def yiaddr : List UInt8 := p.skb.slice (p.udph+24) 4
def chaddr : List UInt8 := p.skb.slice (p.udph+36) 6
def cookie : List UInt8 := p.skb.slice (p.udph+244) 4
def option (off : ℕ) : UInt8 := p.skb.data (p.udph+FIXED_LEN+off)

/-- The subtraction is one of unsigned numbers. -/
def length : ℕ := (p.udpLen+2^32-FIXED_LEN) % 2^32

def dhcpReply : Bool :=
  p.isIp && p.byte 9 == IPPROTO_UDP && p.source == SERVER_PORT && p.dest == CLIENT_PORT &&
    p.cookie == DHCP_MAGIC && p.op == 2 && p.chaddr == p.devAddr

def enReq : ArpoffloadEnReq where
  ipaddr := p.yiaddr
  enable := p.pairedCipherType == WLAN_CIPHER_SUITE_CCMP ||
    p.pairedCipherType == WLAN_CIPHER_SUITE_AES_CMAC ||
    p.groupCipherType == 0xff && p.pairedCipherType == 0xff

/-! ## The function -/

def ended (off : ℕ) : Bool := p.option off == DHCP_OPTION_END || p.length ≤ off

def acks (off : ℕ) : Bool :=
  p.option off == DHCP_OPTION_MESSAGE_TYPE && p.option (off+2) == DHCP_ACK

/-- The offset has 16 bits. -/
def optionTurn (_ off : ℕ) : Turn ℕ ArpoffloadEnReq Unit :=
  if p.ended off then .stop ()
  else .next (u16 (off+2+(p.option (off+1)).toNat)) (if p.acks off then [p.enReq] else [])

/-- The requests that `arpoffload_proc` sends. -/
def Sends (out : List ArpoffloadEnReq) : Prop :=
  if p.dhcpReply then Ends p.optionTurn 0 0 () out else out = []

/-- The bytes of the headers that are looked at, each behind the checks in front of it. -/
def dhcpReads : List ℕ :=
  List.range' (p.udph+244) 4++if p.cookie != DHCP_MAGIC then []
  else (p.udph+8)::if p.op != 2 then []
  else List.range' (p.udph+36) 6++if p.chaddr != p.devAddr then []
  else [p.udph+4, p.udph+5]

def headerReads : List ℕ :=
  if !p.isIp then []
  else 9::if p.byte 9 != IPPROTO_UDP then []
  else 0::p.udph::(p.udph+1)::if p.source != SERVER_PORT then []
  else (p.udph+2)::(p.udph+3)::if p.dest != CLIENT_PORT then []
  else p.dhcpReads

/-- The bytes one turn of the walk looks at. The first is read before the length is compared. -/
def optionReads (off : ℕ) : List ℕ :=
  (p.udph+FIXED_LEN+off)::if p.ended off then []
  else (p.udph+FIXED_LEN+off+1)::
    if p.option off != DHCP_OPTION_MESSAGE_TYPE then []
    else (p.udph+FIXED_LEN+off+2)::
      if p.acks off then List.range' (p.udph+24) 4 else []

/-- It comes to its end and looks at bytes of the packet only. -/
structure Safe : Prop where
  ends : ∃ out, p.Sends out
  header : ∀ i ∈ p.headerReads, i < p.skb.len
  options : p.dhcpReply = true → ∀ k off, Reaches p.optionTurn 0 0 k off →
    ∀ i ∈ p.optionReads off, i < p.skb.len

end Packet

/-! ## The options of a packet -/

/-- Options as code, length and value. A 0 is a pad without a length, 255 is the end. -/
def options : List UInt8 → List (UInt8 × List UInt8)
  | [] => []
  | c::rest =>
    if c = DHCP_OPTION_END then []
    else if c = 0 then options rest
    else
      match rest with
      | [] => []
      | n::rest => if rest.length < n.toNat then []
        else (c, rest.take n.toNat)::options (rest.drop n.toNat)
termination_by l => l.length
decreasing_by
  · simp_wf
  · simp_wf
    omega

namespace Packet
variable (p : Packet)

/-- What of the packet is options, up to the UDP length. -/
def optionBytes : List UInt8 :=
  (p.skb.bytes.drop (p.udph+FIXED_LEN)).take (p.udpLen-FIXED_LEN)

def Acked : Prop :=
  p.dhcpReply = true ∧ (DHCP_OPTION_MESSAGE_TYPE, [DHCP_ACK]) ∈ options p.optionBytes

/-- A request is sent exactly for an acknowledgement, with the address in it. -/
def Exact : Prop :=
  ∀ out, p.Sends out → (out ≠ [] ↔ p.Acked) ∧ ∀ q ∈ out, q = p.enReq

/-! ## What the packet has to be like -/

/-- The fields of each header are there once the header in front of it says so. -/
def HeaderFits : Prop :=
  p.isIp = true → 10 ≤ p.skb.len ∧ (p.byte 9 = IPPROTO_UDP → p.udph+2 ≤ p.skb.len ∧
    (p.source = SERVER_PORT → p.udph+4 ≤ p.skb.len ∧
      (p.dest = CLIENT_PORT → p.udph+FIXED_LEN ≤ p.skb.len)))

/-- The offsets that the walk comes to. -/
def walk : ℕ → ℕ → List ℕ
  | 0, _ => []
  | n+1, off => off::if p.ended off then [] else walk n (off+2+(p.option (off+1)).toNat)

/-- The first byte of the option is there, unless the walk ends with it its length, and the value
of a message type. -/
def OptionFits (off : ℕ) : Prop :=
  p.udph+FIXED_LEN+off < p.skb.len ∧ (p.ended off = false →
    p.udph+FIXED_LEN+off+1 < p.skb.len ∧
      (p.option off = DHCP_OPTION_MESSAGE_TYPE → p.udph+FIXED_LEN+off+2 < p.skb.len))

def Fits : Prop :=
  p.HeaderFits ∧ (p.dhcpReply = true → ∀ off ∈ p.walk p.skb.len 0, p.OptionFits off)

/-- No pad, no option that goes on behind the UDP length, and no message type with a length other
than 1 whose next byte looks like an acknowledgement. -/
def PlainOption (off : ℕ) : Prop :=
  p.ended off = false → p.option off ≠ 0 ∧
    off+2+(p.option (off+1)).toNat ≤ p.udpLen-FIXED_LEN ∧
      (p.acks off = true → p.option (off+1) = 1)

def Plain : Prop := p.dhcpReply = true → ∀ off ∈ p.walk p.skb.len 0, p.PlainOption off

end Packet

namespace Packet
variable {p : Packet}

/-! ## The header -/

theorem dhcpReads_inside (n : ℕ) :
    (∀ i ∈ p.dhcpReads, i < n) ↔ p.udph+FIXED_LEN ≤ n := by
  constructor
  · intro h
    have hlast := h (p.udph+247) (by simp [dhcpReads, List.mem_range'_1])
    rw [FIXED_LEN]
    omega
  · intro h i hi
    have hbound : i < p.udph+248 := by
      unfold dhcpReads at hi
      split_ifs at hi <;> simp [List.mem_range'_1] at hi <;> omega
    rw [FIXED_LEN] at h
    omega

theorem headerReads_inside : (∀ i ∈ p.headerReads, i < p.skb.len) ↔ p.HeaderFits := by
  unfold headerReads HeaderFits
  cases p.isIp with
  | false => simp
  | true =>
    by_cases hudp : p.byte 9 = IPPROTO_UDP
    swap
    · have hne : (p.byte 9 != IPPROTO_UDP) = true := by simpa using hudp
      simp only [hne, hudp]
      simp
      omega
    by_cases hs : p.source = SERVER_PORT
    swap
    · have hne : (p.source != SERVER_PORT) = true := by simpa using hs
      simp only [hne, hudp, hs]
      simp
      omega
    by_cases hd : p.dest = CLIENT_PORT
    swap
    · have hne : (p.dest != CLIENT_PORT) = true := by simpa using hd
      simp only [hne, hudp, hs, hd]
      simp
      omega
    simp only [hudp, hs, hd, bne_self_eq_false, Bool.not_true, Bool.false_eq_true, if_false,
      List.mem_cons, forall_eq_or_imp, dhcpReads_inside, forall_true_left]
    rw [FIXED_LEN]
    omega

/-! ## The walk -/

theorem optionReads_inside {off : ℕ} (hb : p.udph+FIXED_LEN ≤ p.skb.len) :
    (∀ i ∈ p.optionReads off, i < p.skb.len) ↔ p.OptionFits off := by
  have hyiaddr : ∀ i ∈ List.range' (p.udph+24) 4, i < p.skb.len := by
    intro i hi
    rw [List.mem_range'_1] at hi
    rw [FIXED_LEN] at hb
    omega
  unfold optionReads OptionFits
  cases he : p.ended off with
  | true => simp
  | false =>
    by_cases ht : p.option off = DHCP_OPTION_MESSAGE_TYPE
    swap
    · have hne : (p.option off != DHCP_OPTION_MESSAGE_TYPE) = true := by simpa using ht
      simp [hne, ht]
    simp only [ht, bne_self_eq_false, Bool.false_eq_true, if_false, List.mem_cons,
      forall_eq_or_imp, forall_true_left]
    cases p.acks off with
    | false => simp
    | true =>
      simp only [if_true]
      tauto

theorem reply_header (h : p.HeaderFits) (hr : p.dhcpReply = true) :
    p.udph+FIXED_LEN ≤ p.skb.len := by
  simp only [dhcpReply, Bool.and_eq_true, beq_iff_eq] at hr
  obtain ⟨⟨⟨⟨⟨⟨hip, hudp⟩, hs⟩, hd⟩, -⟩, -⟩, -⟩ := hr
  exact (((h hip).2 hudp).2 hs).2 hd

/-- Inside the packet the offset does not run over. -/
theorem next_offset {k off : ℕ} (he : p.ended off = false) (h : p.OptionFits off) :
    p.optionTurn k off = .next (off+2+(p.option (off+1)).toNat)
      (if p.acks off then [p.enReq] else []) := by
  have hlen := (h.2 he).1
  have hshort := p.short
  have hbyte := (p.option (off+1)).toNat_lt
  rw [FIXED_LEN] at hlen
  have hsmall : u16 (off+2+(p.option (off+1)).toNat) = off+2+(p.option (off+1)).toNat := by
    rw [u16]
    omega
  rw [optionTurn, he, if_neg (by decide), hsmall]

theorem reached_fits {n k off : ℕ}
    (h : ∀ j t, Reaches p.optionTurn k off j t → p.OptionFits t) :
    ∀ t ∈ p.walk n off, p.OptionFits t := by
  induction n generalizing k off with
  | zero => simp [walk]
  | succ n ih =>
    have hhere := h k off .refl
    intro t ht
    rw [walk, List.mem_cons] at ht
    rcases ht with rfl | ht
    · exact hhere
    · cases he : p.ended off with
      | true => simp [he] at ht
      | false =>
        simp only [he, Bool.false_eq_true, if_false] at ht
        exact ih (fun j t hr => h j t (.next (next_offset he hhere) hr)) t ht

theorem fits_reached {n k off : ℕ} (h : ∀ t ∈ p.walk (n+1) off, p.OptionFits t)
    (hn : p.skb.len ≤ p.udph+FIXED_LEN+off+n) {j t : ℕ}
    (hr : Reaches p.optionTurn k off j t) : p.OptionFits t := by
  induction n generalizing k off with
  | zero =>
    have hin := (h off (by simp [walk])).1
    omega
  | succ n ih =>
    have hhere := h off (by simp [walk])
    cases hr with
    | refl => exact hhere
    | next here more =>
      cases he : p.ended off with
      | true =>
        rw [optionTurn, he, if_pos rfl] at here
        cases here
      | false =>
        rw [next_offset he hhere] at here
        injection here with hnext _
        rw [← hnext] at more
        refine ih ?_ (by omega) more
        intro t ht
        refine h t ?_
        rw [walk, he]
        exact List.mem_cons_of_mem _ ht

theorem walk_ends {n k off : ℕ} (h : ∀ t ∈ p.walk (n+1) off, p.OptionFits t)
    (hn : p.skb.len ≤ p.udph+FIXED_LEN+off+n) :
    ∃ out, Ends p.optionTurn k off () out ∧ ∀ q ∈ out, q = p.enReq := by
  induction n generalizing k off with
  | zero =>
    have hin := (h off (by simp [walk])).1
    omega
  | succ n ih =>
    have hhere := h off (by simp [walk])
    cases he : p.ended off with
    | true => exact ⟨[], .stop (by rw [optionTurn, he, if_pos rfl]), by simp⟩
    | false =>
      have hrest : ∀ t ∈ p.walk (n+1) (off+2+(p.option (off+1)).toNat), p.OptionFits t := by
        intro t ht
        refine h t ?_
        rw [walk, he]
        exact List.mem_cons_of_mem _ ht
      obtain ⟨out, hout, hreq⟩ := ih (k := k+1) hrest (by omega)
      refine ⟨_, .next (next_offset he hhere) hout, ?_⟩
      intro q hq
      rcases List.mem_append.mp hq with hq | hq
      · cases hack : p.acks off <;> simp [hack] at hq
        exact hq
      · exact hreq q hq

/-! ## The options that it finds -/

theorem optionBytes_length (p : Packet) : p.optionBytes.length =
    min (p.udpLen-FIXED_LEN) (p.skb.len-(p.udph+FIXED_LEN)) := by
  simp [optionBytes, SkBuff.bytes, SkBuff.slice]

theorem optionBytes_drop {off : ℕ} (h : off < p.optionBytes.length) :
    p.optionBytes.drop off = p.option off::p.optionBytes.drop (off+1) := by
  rw [List.drop_eq_getElem_cons h]
  simp [optionBytes, SkBuff.bytes, SkBuff.slice, option]

/-- An option that is not a pad and lies before the UDP length is an option of the packet. -/
theorem options_drop {off : ℕ} (he : p.ended off = false) (hp : p.PlainOption off)
    (hnext : p.udph+FIXED_LEN+(off+2+(p.option (off+1)).toNat) < p.skb.len) :
    options (p.optionBytes.drop off) =
      (p.option off, (p.optionBytes.drop (off+2)).take (p.option (off+1)).toNat)::
        options (p.optionBytes.drop (off+2+(p.option (off+1)).toNat)) := by
  obtain ⟨hpad, hudp, -⟩ := hp he
  have hlen := optionBytes_length p
  have hin : off+2+(p.option (off+1)).toNat ≤ p.optionBytes.length := by omega
  have hend : p.option off ≠ DHCP_OPTION_END := by
    simp only [ended, Bool.or_eq_false_iff, beq_eq_false_iff_ne] at he
    exact he.1
  have hrest : ¬ (p.optionBytes.drop (off+2)).length < (p.option (off+1)).toNat := by
    rw [List.length_drop]
    omega
  rw [optionBytes_drop (by omega), optionBytes_drop (by omega), options, if_neg hend, if_neg hpad,
    if_neg hrest, List.drop_drop]

theorem options_ended {off : ℕ} (he : p.ended off = true) :
    options (p.optionBytes.drop off) = [] := by
  by_cases hin : off < p.optionBytes.length
  · have hlen := optionBytes_length p
    simp only [ended, Bool.or_eq_true, beq_iff_eq, decide_eq_true_eq] at he
    have hpos : ¬ p.length ≤ off := by
      rw [length]
      have hudp : p.udpLen < 65536 := by
        have h1 := (p.skb.data (p.udph+4)).toNat_lt
        have h2 := (p.skb.data (p.udph+4+1)).toNat_lt
        rw [udpLen, ntohs, byte, byte]
        omega
      omega
    rw [optionBytes_drop hin, options.eq_def]
    exact if_pos (he.resolve_right hpos)
  · rw [List.drop_eq_nil_of_le (by omega)]
    simp [options]

/-- What the walk takes for an acknowledgement is one, and the other way round. -/
theorem acks_iff {off : ℕ} (he : p.ended off = false) (hp : p.PlainOption off)
    (hnext : p.udph+FIXED_LEN+(off+2+(p.option (off+1)).toNat) < p.skb.len) :
    (DHCP_OPTION_MESSAGE_TYPE, [DHCP_ACK]) =
        (p.option off, (p.optionBytes.drop (off+2)).take (p.option (off+1)).toNat) ↔
      p.acks off = true := by
  obtain ⟨-, hudp, hone⟩ := hp he
  have hlen := optionBytes_length p
  have hvalue : ∀ n, p.option (off+1) = 1 →
      (p.optionBytes.drop (off+2)).take (n+1) = p.option (off+2)::
        (p.optionBytes.drop (off+3)).take n := by
    intro n h1
    rw [h1] at hudp hnext
    have h1' : (1 : UInt8).toNat = 1 := rfl
    rw [optionBytes_drop (by omega), List.take_succ_cons]
  simp only [acks, Bool.and_eq_true, beq_iff_eq, Prod.mk.injEq]
  constructor
  · rintro ⟨hcode, hval⟩
    have htake := congrArg List.length hval
    rw [List.length_take, List.length_drop, List.length_singleton] at htake
    have hlen1 : (p.option (off+1)).toNat = 1 := by omega
    have h1 : p.option (off+1) = 1 := UInt8.toNat.inj hlen1
    rw [hlen1, hvalue 0 h1, List.take_zero, List.cons.injEq] at hval
    exact ⟨hcode.symm, hval.1.symm⟩
  · rintro ⟨hcode, hval⟩
    have h1 := hone (by simp [acks, hcode, hval])
    have hlen1 : (p.option (off+1)).toNat = 1 := by
      rw [h1]
      rfl
    exact ⟨hcode.symm, by rw [hlen1, hvalue 0 h1, List.take_zero, hval]⟩

theorem walk_exact {n k off : ℕ} (h : ∀ t ∈ p.walk (n+1) off, p.OptionFits t)
    (hp : ∀ t ∈ p.walk (n+1) off, p.PlainOption t)
    (hn : p.skb.len ≤ p.udph+FIXED_LEN+off+n) {out : List ArpoffloadEnReq}
    (ho : Ends p.optionTurn k off () out) :
    out ≠ [] ↔ (DHCP_OPTION_MESSAGE_TYPE, [DHCP_ACK]) ∈ options (p.optionBytes.drop off) := by
  induction n generalizing k off out with
  | zero =>
    have hin := (h off (by simp [walk])).1
    omega
  | succ n ih =>
    have hhere := h off (by simp [walk])
    have hplain := hp off (by simp [walk])
    cases he : p.ended off with
    | true =>
      rw [options_ended he]
      cases ho with
      | stop here => simp
      | next here more =>
        rw [optionTurn, he, if_pos rfl] at here
        cases here
    | false =>
      have hmem : ∀ t ∈ p.walk (n+1) (off+2+(p.option (off+1)).toNat),
          t ∈ p.walk (n+1+1) off := by
        intro t ht
        rw [walk, he]
        exact List.mem_cons_of_mem _ ht
      have hnext := (h _ (hmem (off+2+(p.option (off+1)).toNat) (by simp [walk]))).1
      rw [options_drop he hplain hnext, List.mem_cons, acks_iff he hplain hnext]
      cases ho with
      | stop here =>
        rw [next_offset he hhere] at here
        cases here
      | next here more =>
        rw [next_offset he hhere] at here
        injection here with hoff hreq
        subst hoff hreq
        rw [← ih (fun t ht => h t (hmem t ht)) (fun t ht => hp t (hmem t ht)) (by omega) more]
        cases p.acks off <;> simp

end Packet

open Packet

/-- A DHCP packet to the interface, with a UDP length of `n` and the options given, `extra` zero
bytes behind them. -/
def sampleBytes (n : UInt8) (opts : List UInt8) : List UInt8 :=
  [0x45]++List.replicate 8 0++[17]++List.replicate 10 0++[0, 67, 0, 68, 0, n, 0, 0]++[2]++
    List.replicate 27 0++[1, 2, 3, 4, 5, 6]++List.replicate 202 0++DHCP_MAGIC++opts

def samplePacket (n : UInt8) (opts : List UInt8) (h : opts.length ≤ 60) : Packet where
  skb := SkBuff.ofList (sampleBytes n opts)
  isIp := true
  devAddr := [1, 2, 3, 4, 5, 6]
  pairedCipherType := WLAN_CIPHER_SUITE_CCMP
  groupCipherType := WLAN_CIPHER_SUITE_CCMP
  short := by
    simp only [SkBuff.ofList, sampleBytes, DHCP_MAGIC, List.length_append, List.length_replicate,
      List.length_cons, List.length_nil]
    omega

/-- An acknowledgement behind a pad. -/
def paddedReply : Packet :=
  samplePacket 253 ([0, 53, 1, 5, 255]++List.replicate 55 0) (by decide)

end AIC.ArpOffload
