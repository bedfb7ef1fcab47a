import Aic8800.AmsduSplit

/-!
# Data frames as Ethernet frames

A data frame as 802.11 lays it out, and the Ethernet frame that it stands for.
The receive path puts an Ethernet header in front of what is behind the LLC
header, and is right about where that is for frames with three addresses, an HT
control field only behind a QoS field, and the ciphers of its own table.
-/

set_option autoImplicit false

namespace AIC.MpduConversion
open AIC.DefragMachine AIC.AmsduSplit

structure MacAddr where
  b0 : UInt8
  b1 : UInt8
  b2 : UInt8
  b3 : UInt8
  b4 : UInt8
  b5 : UInt8

def MacAddr.bytes (a : MacAddr) : List UInt8 := [a.b0, a.b1, a.b2, a.b3, a.b4, a.b5]

/-- `RWNX_RX_HD_DECR_*` -/
inductive Cipher where
  | unenc | wep | tkip | ccmp128 | ccmp256 | gcmp128 | gcmp256 | wapi
  deriving DecidableEq

def Cipher.decrStatus : Cipher → ℕ
  | .unenc => 0
  | .wep => 1
  | .tkip => 2
  | .ccmp128 => 3
  | .ccmp256 => 4
  | .gcmp128 => 5
  | .gcmp256 => 6
  | .wapi => 7

/-- The bytes that the cipher has in front of the data. -/
def Cipher.headerLen : Cipher → ℕ
  | .unenc => 0
  | .wep => 4
  | .tkip | .ccmp128 | .ccmp256 | .gcmp128 | .gcmp256 => 8
  | .wapi => 18

/-- The QoS control field of a frame that is not an A-MSDU. -/
structure QosCtrl where
  tid : Fin 16
  policy : Fin 8
  high : UInt8

/-- A data frame that is not a fragment. `addr4` and `htc` are in it where the flags say so. -/
structure Mpdu where
  cf : Fin 4
  toDs : Bool
  fromDs : Bool
  retry : Bool
  powerMgmt : Bool
  moreData : Bool
  isProtected : Bool
  order : Bool
  duration : UInt8 × UInt8
  addr1 : MacAddr
  addr2 : MacAddr
  addr3 : MacAddr
  addr4 : MacAddr
  seqLow : Fin 16
  seqHigh : UInt8
  qos : Option QosCtrl
  htc : UInt8 × UInt8 × UInt8 × UInt8
  cipher : Cipher
  cipherHdr : List UInt8
  cipherSized : cipherHdr.length = cipher.headerLen
  oui : UInt8 × UInt8 × UInt8
  etherType : UInt8 × UInt8
  payload : List UInt8

namespace Mpdu
variable (m : Mpdu)

def fc0 : UInt8 := UInt8.ofNat (8+16*m.cf.val+128*m.qos.isSome.toNat)

def fc1 : UInt8 :=
  UInt8.ofNat (m.toDs.toNat+2*m.fromDs.toNat+8*m.retry.toNat+16*m.powerMgmt.toNat+
    32*m.moreData.toNat+64*m.isProtected.toNat+128*m.order.toNat)

def fourth : List UInt8 := if m.toDs && m.fromDs then m.addr4.bytes else []

def qosBytes : List UInt8 :=
  match m.qos with
  | none => []
  | some q => [UInt8.ofNat (q.tid.val+16*q.policy.val), q.high]

/-- The HT control field is only in QoS frames; without QoS the bit asks for strict order. -/
def htcBytes : List UInt8 :=
  if m.qos.isSome && m.order then [m.htc.1, m.htc.2.1, m.htc.2.2.1, m.htc.2.2.2] else []

/-- All behind the sequence control field and in front of the ether type. -/
def headers : List UInt8 :=
  m.fourth++m.qosBytes++m.htcBytes++m.cipherHdr++[0xAA, 0xAA, 0x03, m.oui.1, m.oui.2.1, m.oui.2.2]

def bytes : List UInt8 :=
  [m.fc0, m.fc1, m.duration.1, m.duration.2]++m.addr1.bytes++m.addr2.bytes++m.addr3.bytes++
    [UInt8.ofNat (16*m.seqLow.val), m.seqHigh]++
    (m.headers++[m.etherType.1, m.etherType.2]++m.payload)

/-- The table of addresses: the destination, and the source. -/
def da : MacAddr := if m.toDs then m.addr3 else m.addr1

def sa : MacAddr := if m.fromDs then if m.toDs then m.addr4 else m.addr3 else m.addr2

def ethernet : List UInt8 :=
  m.da.bytes++m.sa.bytes++[m.etherType.1, m.etherType.2]++m.payload

def frame (flagsDstIdx : ℕ) (flagsNeedReord : Bool) : RxFrame :=
  ⟨SkBuff.ofList m.bytes, m.cipher.decrStatus, flagsDstIdx, flagsNeedReord, false⟩

end Mpdu

/-- What is handed on is the Ethernet frame that it stands for. -/
def Converts (tailroom : ℕ) (hw : RwnxHw) (alloc : Bool) (m : Mpdu) (flagsDstIdx : ℕ)
    (flagsNeedReord : Bool) : Prop :=
  (rwnxRxdataind tailroom hw (m.frame flagsDstIdx flagsNeedReord) alloc true).2 =
    [.whole (m.frame flagsDstIdx flagsNeedReord) m.ethernet]

def zeroAddr : MacAddr := ⟨0, 0, 0, 0, 0, 0⟩

/-- One of the bits, or none of them and both addresses zero; an order bit only with QoS; and a
cipher whose header is known. -/
def Convertible (m : Mpdu) : Prop :=
  (m.toDs ≠ m.fromDs ∨
    m.toDs = false ∧ m.fromDs = false ∧ m.addr1 = zeroAddr ∧ m.addr2 = zeroAddr) ∧
  (m.order = true → m.qos.isSome = true) ∧
  m.cipher ≠ .ccmp256 ∧ m.cipher ≠ .gcmp128 ∧ m.cipher ≠ .gcmp256

/-! ## The fields of the header -/

section Header
variable (m : Mpdu) (flagsDstIdx : ℕ) (flagsNeedReord : Bool)

theorem fc0_isData : (m.frame flagsDstIdx flagsNeedReord).isData = true := by
  have hall : ∀ (cf : Fin 4) (b : Bool),
      ((UInt8.ofNat (8+16*cf.val+128*b.toNat)).toNat &&& 0x0F == 0x08) = true := by decide
  exact hall m.cf m.qos.isSome

theorem fc0_isQos : (m.frame flagsDstIdx flagsNeedReord).isQos = m.qos.isSome := by
  have hall : ∀ (cf : Fin 4) (b : Bool),
      ((UInt8.ofNat (8+16*cf.val+128*b.toNat)).toNat &&& 0x80 == 0x80) = b := by decide
  exact hall m.cf m.qos.isSome

theorem fc1_order : (m.frame flagsDstIdx flagsNeedReord).byte 1 &&& 0x80 ≠ 0 ↔ m.order = true := by
  have hall : ∀ a b c d e f g : Bool, (UInt8.ofNat (a.toNat+2*b.toNat+8*c.toNat+16*d.toNat+
      32*e.toNat+64*f.toNat+128*g.toNat)).toNat &&& 0x80 ≠ 0 ↔ g = true := by decide +kernel
  exact hall m.toDs m.fromDs m.retry m.powerMgmt m.moreData m.isProtected m.order

theorem fc1_ds : (m.frame flagsDstIdx flagsNeedReord).byte 1 &&& 0x3 =
    m.toDs.toNat+2*m.fromDs.toNat := by
  have hall : ∀ a b c d e f g : Bool, (UInt8.ofNat (a.toNat+2*b.toNat+8*c.toNat+16*d.toNat+
      32*e.toNat+64*f.toNat+128*g.toNat)).toNat &&& 0x3 = a.toNat+2*b.toNat := by decide +kernel
  exact hall m.toDs m.fromDs m.retry m.powerMgmt m.moreData m.isProtected m.order

theorem not_moreFrag : (m.frame flagsDstIdx flagsNeedReord).moreFrag = false := by
  have hall : ∀ a b c d e f g : Bool, ∀ (cf : Fin 4) (h : Bool),
      (256*(UInt8.ofNat (a.toNat+2*b.toNat+8*c.toNat+16*d.toNat+32*e.toNat+64*f.toNat+
        128*g.toNat)).toNat+(UInt8.ofNat (8+16*cf.val+128*h.toNat)).toNat &&& 0x0400 != 0) =
          false := by decide +kernel
  exact hall m.toDs m.fromDs m.retry m.powerMgmt m.moreData m.isProtected m.order m.cf m.qos.isSome

theorem fragNum_zero : (m.frame flagsDstIdx flagsNeedReord).fragNum = 0 := by
  have hall : ∀ s : Fin 16, (UInt8.ofNat (16*s.val)).toNat &&& 0x0F = 0 := by decide
  exact hall m.seqLow

/-- The QoS control field is where the code looks for it. -/
theorem not_isAmsdu (h : ¬ (m.toDs = true ∧ m.fromDs = true)) :
    (m.frame flagsDstIdx flagsNeedReord).isAmsdu = false := by
  have hall : ∀ (t : Fin 16) (p : Fin 8),
      ((UInt8.ofNat (t.val+16*p.val)).toNat &&& 0x80 != 0) = false := by decide
  have hfourth : m.fourth = [] := if_neg (by simpa using h)
  unfold RxFrame.isAmsdu
  rw [fc0_isQos]
  cases hqos : m.qos with
  | none => rfl
  | some q =>
    have hbyte : (m.frame flagsDstIdx flagsNeedReord).byte 24 =
        (UInt8.ofNat (q.tid.val+16*q.policy.val)).toNat := by
      have hbytes : m.qosBytes = [UInt8.ofNat (q.tid.val+16*q.policy.val), q.high] := by
        rw [Mpdu.qosBytes, hqos]
      unfold RxFrame.byte Mpdu.frame Mpdu.bytes Mpdu.headers
      rw [hfourth, hbytes]
      rfl
    rw [hbyte, hall]
    rfl

/-! ## What is pulled -/

theorem hdrLen_eq : (m.frame flagsDstIdx flagsNeedReord).hdrLen =
    24+2*m.qos.isSome.toNat+4*m.order.toNat := by
  unfold RxFrame.hdrLen
  rw [fc0_isQos]
  simp only [fc1_order]
  cases m.qos.isSome <;> cases m.order <;> rfl

/-- The ciphers that the code knows have their own header, the others none. -/
theorem cipherLen_eq : (m.frame flagsDstIdx flagsNeedReord).cipherLen =
    if m.cipher = .ccmp256 ∨ m.cipher = .gcmp128 ∨ m.cipher = .gcmp256 then 0
    else m.cipher.headerLen := by
  unfold RxFrame.cipherLen Mpdu.frame
  cases m.cipher <;> rfl

theorem headers_length : m.headers.length =
    6*(m.toDs && m.fromDs).toNat+2*m.qos.isSome.toNat+4*(m.qos.isSome && m.order).toNat+
      m.cipher.headerLen+6 := by
  have hfourth : m.fourth.length = 6*(m.toDs && m.fromDs).toNat := by
    unfold Mpdu.fourth
    cases m.toDs && m.fromDs <;> rfl
  have hqos : m.qosBytes.length = 2*m.qos.isSome.toNat := by
    unfold Mpdu.qosBytes
    cases m.qos <;> rfl
  have hhtc : m.htcBytes.length = 4*(m.qos.isSome && m.order).toNat := by
    unfold Mpdu.htcBytes
    cases m.qos.isSome && m.order <;> rfl
  unfold Mpdu.headers
  simp only [List.length_append, hfourth, hqos, hhtc, m.cipherSized, List.length_cons,
    List.length_nil]

theorem bytes_length : m.bytes.length = 24+m.headers.length+2+m.payload.length := by
  unfold Mpdu.bytes MacAddr.bytes
  simp only [List.length_append, List.length_cons, List.length_nil]
  omega

/-- Where the three conditions on the header hold, and nowhere else, the code pulls
what is in front of the payload. -/
def WellPulled : Prop :=
  ¬ (m.toDs = true ∧ m.fromDs = true) ∧ (m.order = true → m.qos.isSome = true) ∧
    m.cipher ≠ .ccmp256 ∧ m.cipher ≠ .gcmp128 ∧ m.cipher ≠ .gcmp256

theorem pullLen_eq_iff : (m.frame flagsDstIdx flagsNeedReord).pullLen = 26+m.headers.length ↔
    WellPulled m := by
  unfold RxFrame.pullLen WellPulled
  rw [hdrLen_eq, cipherLen_eq, headers_length]
  cases m.toDs <;> cases m.fromDs <;> cases m.order <;> cases m.qos.isSome <;> cases m.cipher <;>
    simp [Cipher.headerLen]

/-! ## The frame handed on -/

theorem ethernet_length (f : RxFrame) : f.ethernet.length =
    14+if f.skb.len < f.pullLen then f.skb.len else f.skb.len-f.pullLen := by
  have hra : f.ra.length = 6 := by
    unfold RxFrame.ra
    split_ifs <;> simp [SkBuff.slice]
  have hta : f.ta.length = 6 := by
    unfold RxFrame.ta
    split_ifs <;> simp [SkBuff.slice]
  have htype : f.etherType.length = 2 := by simp [RxFrame.etherType, SkBuff.slice]
  unfold RxFrame.ethernet
  rw [List.length_append, List.length_append, List.length_append, hra, hta, htype]
  split_ifs <;> simp [SkBuff.bytes, SkBuff.slice]

/-- The length alone shows a wrong place of the payload. -/
theorem wellPulled_of_ethernet
    (h : (m.frame flagsDstIdx flagsNeedReord).ethernet = m.ethernet) : WellPulled m := by
  have hlen := congrArg List.length h
  have hwhole : (m.frame flagsDstIdx flagsNeedReord).skb.len = m.bytes.length := rfl
  rw [ethernet_length, hwhole, bytes_length] at hlen
  simp only [Mpdu.ethernet, MacAddr.bytes, List.length_append, List.length_cons,
    List.length_nil] at hlen
  rw [← pullLen_eq_iff m flagsDstIdx flagsNeedReord]
  split_ifs at hlen <;> omega

theorem ethernet_of_wellPulled (h : WellPulled m) :
    (m.frame flagsDstIdx flagsNeedReord).ethernet =
      (m.frame flagsDstIdx flagsNeedReord).ra++(m.frame flagsDstIdx flagsNeedReord).ta++
        [m.etherType.1, m.etherType.2]++m.payload := by
  have hpull := (pullLen_eq_iff m flagsDstIdx flagsNeedReord).mpr h
  have hlen := bytes_length m
  have hskb : (m.frame flagsDstIdx flagsNeedReord).skb = SkBuff.ofList m.bytes := rfl
  have hwhole : (m.frame flagsDstIdx flagsNeedReord).skb.len = m.bytes.length := rfl
  have hsplit : m.bytes.drop (24+m.headers.length) =
      [m.etherType.1, m.etherType.2]++m.payload := by
    rw [← List.drop_drop]
    change (m.headers++[m.etherType.1, m.etherType.2]++m.payload).drop m.headers.length = _
    rw [List.append_assoc, List.drop_left]
  have htype : (m.frame flagsDstIdx flagsNeedReord).etherType =
      [m.etherType.1, m.etherType.2] := by
    have hoff : (m.frame flagsDstIdx flagsNeedReord).hdrLen+6+
        (m.frame flagsDstIdx flagsNeedReord).cipherLen = 24+m.headers.length := by
      unfold RxFrame.pullLen at hpull
      omega
    rw [RxFrame.etherType, hoff, hskb, slice_ofList (by omega), hsplit]
    rfl
  have hpayload : m.bytes.drop (26+m.headers.length) = m.payload := by
    rw [show 26+m.headers.length = 24+m.headers.length+2 by omega, ← List.drop_drop, hsplit]
    rfl
  unfold RxFrame.ethernet
  rw [htype, hwhole, hpull, if_neg (by omega), hskb, slice_ofList (by omega), hpayload,
    List.take_of_length_le (by omega)]

theorem bytes_inj {a b : MacAddr} (h : a.bytes = b.bytes) : a = b := by
  simp only [MacAddr.bytes, List.cons.injEq, and_true] at h
  obtain ⟨h0, h1, h2, h3, h4, h5⟩ := h
  cases a
  cases b
  simp only [MacAddr.mk.injEq]
  exact ⟨h0, h1, h2, h3, h4, h5⟩

/-- The addresses of the code are those of the table, or both of them zero. -/
theorem addresses_eq_iff (h : ¬ (m.toDs = true ∧ m.fromDs = true)) :
    (m.frame flagsDstIdx flagsNeedReord).ra = m.da.bytes ∧
      (m.frame flagsDstIdx flagsNeedReord).ta = m.sa.bytes ↔
    m.toDs ≠ m.fromDs ∨
      m.toDs = false ∧ m.fromDs = false ∧ m.addr1 = zeroAddr ∧ m.addr2 = zeroAddr := by
  unfold RxFrame.ra RxFrame.ta Mpdu.da Mpdu.sa
  rw [fc1_ds]
  cases hto : m.toDs <;> cases hfrom : m.fromDs
  · have hzero : List.replicate 6 (0 : UInt8) = zeroAddr.bytes := rfl
    rw [hzero]
    constructor
    · rintro ⟨h1, h2⟩
      exact Or.inr ⟨rfl, rfl, (bytes_inj h1).symm, (bytes_inj h2).symm⟩
    · rintro (hne | ⟨-, -, h1, h2⟩)
      · exact absurd rfl hne
      · rw [h1, h2]
        exact ⟨rfl, rfl⟩
  · exact iff_of_true ⟨rfl, rfl⟩ (Or.inl Bool.false_ne_true)
  · exact iff_of_true ⟨rfl, rfl⟩ (Or.inl Bool.false_ne_true.symm)
  · exact absurd ⟨hto, hfrom⟩ h

theorem ethernet_eq_iff :
    (m.frame flagsDstIdx flagsNeedReord).ethernet = m.ethernet ↔ Convertible m := by
  have haddr : ∀ a : MacAddr, a.bytes.length = 6 := fun a => rfl
  constructor
  · intro h
    have hpull := wellPulled_of_ethernet m flagsDstIdx flagsNeedReord h
    rw [ethernet_of_wellPulled m flagsDstIdx flagsNeedReord hpull, Mpdu.ethernet,
      List.append_left_inj, List.append_left_inj] at h
    have hra : (m.frame flagsDstIdx flagsNeedReord).ra.length = m.da.bytes.length := by
      unfold RxFrame.ra
      split_ifs <;> simp [SkBuff.slice, haddr]
    exact ⟨(addresses_eq_iff m flagsDstIdx flagsNeedReord hpull.1).mp (List.append_inj h hra),
      hpull.2⟩
  · rintro ⟨hds, hrest⟩
    have hthree : ¬ (m.toDs = true ∧ m.fromDs = true) := by
      rintro ⟨hto, hfrom⟩
      rw [hto, hfrom] at hds
      obtain hne | ⟨hno, -⟩ := hds
      · exact hne rfl
      · cases hno
    obtain ⟨hra, hta⟩ := (addresses_eq_iff m flagsDstIdx flagsNeedReord hthree).mpr hds
    rw [ethernet_of_wellPulled m flagsDstIdx flagsNeedReord ⟨hthree, hrest⟩, hra, hta,
      Mpdu.ethernet]

end Header

theorem rxdataind_eq (tailroom : ℕ) (hw : RwnxHw) (alloc : Bool) (m : Mpdu) (flagsDstIdx : ℕ)
    (flagsNeedReord : Bool) :
    (rwnxRxdataind tailroom hw (m.frame flagsDstIdx flagsNeedReord) alloc true).2 =
      if (m.frame flagsDstIdx flagsNeedReord).isAmsdu then
        [.amsdu (m.frame flagsDstIdx flagsNeedReord)]
      else
        [.whole (m.frame flagsDstIdx flagsNeedReord)
          (m.frame flagsDstIdx flagsNeedReord).ethernet] := by
  unfold rwnxRxdataind
  rw [fc0_isData, not_moreFrag, fragNum_zero]
  cases (m.frame flagsDstIdx flagsNeedReord).isAmsdu <;> simp [deliver, Mpdu.frame]

/-- A data frame that is handed on in its right place, from any state, with any station of the
descriptor. -/
theorem converts_iff (tailroom : ℕ) (hw : RwnxHw) (alloc : Bool) (m : Mpdu) (flagsDstIdx : ℕ)
    (flagsNeedReord : Bool) :
    Converts tailroom hw alloc m flagsDstIdx flagsNeedReord ↔ Convertible m := by
  rw [← ethernet_eq_iff m flagsDstIdx flagsNeedReord, Converts, rxdataind_eq]
  constructor
  · intro h
    split_ifs at h
    · cases h
    · simpa using h
  · intro h
    have hpull := wellPulled_of_ethernet m flagsDstIdx flagsNeedReord h
    rw [not_isAmsdu m flagsDstIdx flagsNeedReord hpull.1, h]
    rfl

/-- A frame with four addresses, no QoS and no cipher. -/
def fourAddresses : Mpdu where
  cf := 0
  toDs := true
  fromDs := true
  retry := false
  powerMgmt := false
  moreData := false
  isProtected := false
  order := false
  duration := (0, 0)
  addr1 := ⟨2, 0, 0, 0, 0, 1⟩
  addr2 := ⟨2, 0, 0, 0, 0, 2⟩
  addr3 := ⟨2, 0, 0, 0, 0, 3⟩
  addr4 := ⟨2, 0, 0, 0, 0, 4⟩
  seqLow := 0
  seqHigh := 0
  qos := none
  htc := (0, 0, 0, 0)
  cipher := .unenc
  cipherHdr := []
  cipherSized := rfl
  oui := (0, 0, 0)
  etherType := (8, 0)
  payload := [1, 2, 3, 4]

/-- It comes out without its addresses, and with a part of its LLC header as payload. -/
theorem fourAddresses_lost :
    (fourAddresses.frame 0xFF false).ethernet =
      [0, 0, 0, 0, 0, 0, 0, 0, 0, 0, 0, 0, 0xAA, 0xAA, 0x03, 0, 0, 0, 8, 0, 1, 2, 3, 4] ∧
      ¬ Converts 2000 ⟨[], false⟩ true fourAddresses 0xFF false := by
  have hbytes : (fourAddresses.frame 0xFF false).ethernet =
      [0, 0, 0, 0, 0, 0, 0, 0, 0, 0, 0, 0, 0xAA, 0xAA, 0x03, 0, 0, 0, 8, 0, 1, 2, 3, 4] := by
    decide
  refine ⟨hbytes, fun h => ?_⟩
  rw [Converts, rxdataind_eq, hbytes] at h
  have hwhole : (fourAddresses.frame 0xFF false).isAmsdu = false := by decide
  rw [hwhole] at h
  injection h with hframe _
  injection hframe with _ hlist
  exact absurd hlist (by decide)

end AIC.MpduConversion
