import Aic8800.Nat25Translation
import Aic8800.Lib.InternetChecksum

/-!
# What a frame that is sent looks like

Whatever the database answers, a frame of the Internet protocol that is sent has the
address of the interface as its source and is else as it was, but for the flag and
the checksum of a request of DHCP. The checksum is wrong where another of the flags
was set, and where there was none.
-/

set_option autoImplicit false

namespace AIC.Nat25Sent
open Lib.CallProgram Lib.FlatMemory Lib.InternetChecksum AIC.Nat25Table AIC.Nat25Frame
  AIC.Nat25Translation

variable {env : Env} {vif : Vif} {skb : SkBuff}

/-! ## The words of a datagram -/

theorem fold16_spec {n : ℕ} (h : n < 2^17) :
    fold16 n ≤ 65535 ∧ fold16 n % 65535 = n % 65535 ∧ (0 < n → 0 < fold16 n) := by
  unfold fold16
  simp only
  split_ifs <;> omega

theorem byte_lt (skb : SkBuff) (i : ℕ) : byte skb i < 256 := UInt8.toNat_lt _

theorem word_lt (skb : SkBuff) (i : ℕ) : word skb i < 2^16 := by
  have h := byte_lt skb i
  have h' := byte_lt skb (i+1)
  unfold word
  omega

theorem leWord_lt (skb : SkBuff) (i : ℕ) : leWord skb i < 2^16 := by
  have h := byte_lt skb i
  have h' := byte_lt skb (i+1)
  unfold leWord
  omega

/-- The other order of the bytes counts 256 times as much. -/
theorem word_leWord (skb : SkBuff) (i : ℕ) : word skb i % 65535 = 256*leWord skb i % 65535 := by
  unfold word leWord
  omega

theorem byte_put {i j : ℕ} {bytes : List UInt8} (h : j < i ∨ i+bytes.length ≤ j) :
    byte (put skb i bytes) j = byte skb j := congrArg UInt8.toNat (put_outside h)

theorem word_outside {i j : ℕ} {bytes : List UInt8} (h : j+1 < i ∨ i+bytes.length ≤ j) :
    word (put skb i bytes) j = word skb j := by
  rw [word, word, byte_put (by omega), byte_put (by omega)]

theorem leWord_outside {i j : ℕ} {bytes : List UInt8} (h : j+1 < i ∨ i+bytes.length ≤ j) :
    leWord (put skb i bytes) j = leWord skb j := by
  rw [leWord, leWord, byte_put (by omega), byte_put (by omega)]

theorem leWord_put {i n : ℕ} (h : n < 2^16) : leWord (putLeWord skb i n) i = n := by
  have hlow : byte (putLeWord skb i n) i = n % 256 := by
    have hdata : (putLeWord skb i n).data i = UInt8.ofNat n := by simp [putLeWord, put, store, fill]
    rw [byte, hdata]
    simp
  have hhigh : byte (putLeWord skb i n) (i+1) = n/256 := by
    have hdata : (putLeWord skb i n).data (i+1) = UInt8.ofNat (n/256) := by
      simp [putLeWord, put, store, fill]
    rw [byte, hdata]
    simp
    omega
  rw [leWord, hlow, hhigh]
  omega

/-! ## What the receiver adds up -/

def udpLen (skb : SkBuff) : ℕ := word skb (udpAt skb+4)

def udpCheck (skb : SkBuff) : ℕ := word skb (udpAt skb+6)

def dhcpFlags (skb : SkBuff) : ℕ := word skb (udpAt skb+18)

/-- A last byte alone is followed by a zero. -/
def udpWord (skb : SkBuff) (k : ℕ) : ℕ :=
  if 2*k+1 < udpLen skb then word skb (udpAt skb+2*k) else 256*byte skb (udpAt skb+2*k)

/-- The datagram with its pseudo header. -/
def udpSum (skb : SkBuff) : ℕ :=
  word skb 26+word skb 28+word skb 30+word skb 32+17+udpLen skb+
    total (udpWord skb) ((udpLen skb+1)/2)

/-- A receiver takes the datagram. -/
def UdpAccepted (skb : SkBuff) : Prop := udpCheck skb = 0 ∨ Verifies (udpSum skb)

/-! ## The flag of DHCP -/

theorem byte_flagged (skb : SkBuff) (i : ℕ) (h : byte skb i < 128) :
    byte (put skb i [skb.data i ||| 0x80]) i = byte skb i+128 := by
  have hdata : (put skb i [skb.data i ||| 0x80]).data i = skb.data i ||| 0x80 := by
    simp [put, store, fill]
  have hor : byte skb i ||| 2^7*1 = 2^7*1+byte skb i := by
    rw [Nat.or_comm]
    exact (Nat.two_pow_add_eq_or_of_lt h 1).symm
  rw [byte, hdata, UInt8.toNat_or]
  exact hor.trans (Nat.add_comm _ _)

/-- Only the checksum and the flags have changed. -/
theorem dhcp_outside {i : ℕ} (hcheck : i ≠ udpAt skb+6 ∧ i ≠ udpAt skb+7)
    (hflag : i ≠ udpAt skb+18) : (dhcpFlagBcast vif skb).data i = skb.data i := by
  unfold dhcpFlagBcast
  split_ifs
  · have hlen : ∀ n, [UInt8.ofNat n, UInt8.ofNat (n/256)].length = 2 := fun _ => rfl
    refine (put_outside (by rw [hlen]; omega)).trans (put_outside ?_)
    simp only [List.length_singleton]
    omega
  · rfl

theorem dhcp_len : (dhcpFlagBcast vif skb).len = skb.len := by
  unfold dhcpFlagBcast
  split_ifs <;> rfl

theorem dhcp_udpAt : udpAt (dhcpFlagBcast vif skb) = udpAt skb := by
  have h14 : (dhcpFlagBcast vif skb).data 14 = skb.data 14 := by
    refine dhcp_outside ?_ ?_
    all_goals
      unfold udpAt
      omega
  rw [udpAt, byte, h14]
  rfl

section Flagged

variable (hwants : wantsBroadcast vif skb = true)
include hwants

/-- The frame between the two writes. -/
theorem dhcp_steps : ∃ flagged, flagged = put skb (udpAt skb+18) [skb.data (udpAt skb+18) ||| 0x80] ∧
    dhcpFlagBcast vif skb = putLeWord flagged (udpAt skb+6)
      (65535-fold16 (65535-leWord flagged (udpAt skb+6)+leWord flagged (udpAt skb+18))) :=
  ⟨_, rfl, if_pos hwants⟩

theorem flag_clear : byte skb (udpAt skb+18) < 128 := by
  have h := hwants
  unfold wantsBroadcast at h
  simp only [Bool.and_eq_true, decide_eq_true_eq] at h
  exact h.2

/-- The checksum that is written is what remains of the old one without the new word of flags. -/
theorem dhcp_words : leWord (dhcpFlagBcast vif skb) (udpAt skb+18) = leWord skb (udpAt skb+18)+128 ∧
    leWord (dhcpFlagBcast vif skb) (udpAt skb+6) < 65535 ∧
    (leWord (dhcpFlagBcast vif skb) (udpAt skb+6)+(leWord skb (udpAt skb+18)+128)) % 65535 =
      leWord skb (udpAt skb+6) % 65535 := by
  obtain ⟨flagged, rfl, hdhcp⟩ := dhcp_steps hwants
  have hold := leWord_lt skb (udpAt skb+6)
  have hcheck : leWord (put skb (udpAt skb+18) [skb.data (udpAt skb+18) ||| 0x80]) (udpAt skb+6) =
      leWord skb (udpAt skb+6) := leWord_outside (by omega)
  have hflags : leWord (put skb (udpAt skb+18) [skb.data (udpAt skb+18) ||| 0x80])
      (udpAt skb+18) = leWord skb (udpAt skb+18)+128 := by
    rw [leWord, leWord, byte_flagged skb _ (flag_clear hwants), byte_put (.inr (by simp))]
    omega
  have hsmall : leWord skb (udpAt skb+18)+128 < 2^16 := hflags ▸ leWord_lt _ _
  rw [hcheck, hflags] at hdhcp
  obtain ⟨hle, hmod, hpos⟩ := fold16_spec (n := 65535-leWord skb (udpAt skb+6)+
    (leWord skb (udpAt skb+18)+128)) (by omega)
  have hfold := hpos (by omega)
  have hwritten : leWord (dhcpFlagBcast vif skb) (udpAt skb+6) =
      65535-fold16 (65535-leWord skb (udpAt skb+6)+(leWord skb (udpAt skb+18)+128)) := by
    rw [hdhcp]
    exact leWord_put (by omega)
  refine ⟨?_, ?_, ?_⟩
  · rw [hdhcp, putLeWord, leWord_outside (.inr (by simp)), hflags]
  · omega
  · omega

/-- The same in the order of the network. -/
theorem dhcp_network_words : dhcpFlags (dhcpFlagBcast vif skb) = dhcpFlags skb+2^15 ∧
    dhcpFlags skb < 2^15 ∧
    (udpCheck (dhcpFlagBcast vif skb)+(dhcpFlags skb+2^15)) % 65535 = udpCheck skb % 65535 ∧
    udpCheck (dhcpFlagBcast vif skb) < 65535 := by
  obtain ⟨hflags, hcheck, hsum⟩ := dhcp_words hwants
  have hclear := flag_clear hwants
  have hb := fun i => byte_lt skb i
  have hb' := fun i => byte_lt (dhcpFlagBcast vif skb) i
  have h6 := hb (udpAt skb+6)
  have h7 := hb (udpAt skb+6+1)
  have h19 := hb (udpAt skb+18+1)
  have h6' := hb' (udpAt skb+6)
  have h7' := hb' (udpAt skb+6+1)
  have h18' := hb' (udpAt skb+18)
  have h19' := hb' (udpAt skb+18+1)
  unfold leWord at hflags hcheck hsum
  unfold dhcpFlags udpCheck word
  rw [dhcp_udpAt]
  refine ⟨by omega, by omega, by omega, by omega⟩

end Flagged

/-- What is added up has changed in two words. -/
theorem dhcp_sum (vif : Vif) (hheader : 5 ≤ byte skb 14 % 16) (hlen : 20 ≤ udpLen skb) :
    ∃ rest, 0 < rest ∧ udpSum skb = rest+udpCheck skb+dhcpFlags skb ∧
      udpSum (dhcpFlagBcast vif skb) =
        rest+udpCheck (dhcpFlagBcast vif skb)+dhcpFlags (dhcpFlagBcast vif skb) := by
  have hat : 34 ≤ udpAt skb := by
    unfold udpAt
    omega
  have hbyte : ∀ i, i ≠ udpAt skb+6 ∧ i ≠ udpAt skb+7 → i ≠ udpAt skb+18 →
      byte (dhcpFlagBcast vif skb) i = byte skb i :=
    fun i hcheck hflag => congrArg UInt8.toNat (dhcp_outside hcheck hflag)
  have hword : ∀ i < 33, word (dhcpFlagBcast vif skb) i = word skb i := by
    intro i hi
    rw [word, word, hbyte i (by omega) (by omega), hbyte (i+1) (by omega) (by omega)]
  have hudpLen : udpLen (dhcpFlagBcast vif skb) = udpLen skb := by
    rw [udpLen, udpLen, dhcp_udpAt, word, word, hbyte _ (by omega) (by omega),
      hbyte _ (by omega) (by omega)]
  have hother : ∀ k, k ≠ 3 → k ≠ 9 → udpWord (dhcpFlagBcast vif skb) k = udpWord skb k := by
    intro k h3 h9
    rw [udpWord, udpWord, hudpLen, dhcp_udpAt, word, word, hbyte _ (by omega) (by omega),
      hbyte _ (by omega) (by omega)]
  have htwo : ∀ s, udpLen s = udpLen skb → udpWord s 3 = udpCheck s ∧ udpWord s 9 = dhcpFlags s :=
    fun s hs => ⟨if_pos (by omega), if_pos (by omega)⟩
  obtain ⟨hcheck, hflags⟩ := htwo skb rfl
  obtain ⟨hcheck', hflags'⟩ := htwo _ hudpLen
  obtain ⟨rest, hsum, hsum'⟩ := total_replaced (n := (udpLen skb+1)/2) (i := 3) (j := 9)
    (by omega) (by omega) (by decide) hother
  refine ⟨word skb 26+word skb 28+word skb 30+word skb 32+17+udpLen skb+rest, by omega, ?_, ?_⟩
  · rw [udpSum, hsum, hcheck, hflags]
    omega
  · rw [udpSum, hudpLen, hsum', hcheck', hflags', hword 26 (by decide), hword 28 (by decide),
      hword 30 (by decide), hword 32 (by decide)]
    omega

theorem dhcp_accepted_iff (hwants : wantsBroadcast vif skb = true)
    (hheader : 5 ≤ byte skb 14 % 16) (hlen : 20 ≤ udpLen skb) (h : UdpAccepted skb) :
    UdpAccepted (dhcpFlagBcast vif skb) ↔
      if udpCheck skb = 0 then dhcpFlags skb = 0x7fff ∨ udpSum skb % 65535 = dhcpFlags skb
      else dhcpFlags skb = 0 ∨ udpCheck skb = dhcpFlags skb+2^15 := by
  obtain ⟨hflags, hclear, hcheck, hsmall⟩ := dhcp_network_words hwants
  obtain ⟨rest, hrest, hsum, hsum'⟩ := dhcp_sum vif hheader hlen
  have hold : udpCheck skb < 2^16 := word_lt _ _
  have hverifies : Verifies (udpSum (dhcpFlagBcast vif skb)) ↔ (rest+udpCheck skb) % 65535 = 0 := by
    rw [hsum', hflags]
    exact verifies_replaced (by omega) (by omega)
  unfold UdpAccepted at h ⊢
  rw [hverifies]
  split_ifs with hzero
  · omega
  · -- The datagram has a checksum, so that it adds up.
    obtain ⟨-, hadds⟩ := h.resolve_left hzero
    omega

/-- A request for an address, with the checksum and the flags as said. -/
def discover (check flags : List UInt8) : SkBuff :=
  .ofList (List.replicate 6 0xFF++[2, 0, 0, 0, 0, 5]++[0x08, 0x00]++
    [0x45, 0, 1, 20, 0, 0, 0, 0, 64, 17, 0, 0, 0, 0, 0, 0, 255, 255, 255, 255]++
    [0, 68, 0, 67, 0, 248]++check++List.replicate 10 0++flags++List.replicate 224 0++
    [0x63, 0x82, 0x53, 0x63])

theorem dhcp_accepted_iff_discover :
    UdpAccepted (dhcpFlagBcast homeVif (discover [0x46, 0x92] [0, 0])) ↔
      if udpCheck (discover [0x46, 0x92] [0, 0]) = 0 then
        dhcpFlags (discover [0x46, 0x92] [0, 0]) = 0x7fff ∨
          udpSum (discover [0x46, 0x92] [0, 0]) % 65535 = dhcpFlags (discover [0x46, 0x92] [0, 0])
      else dhcpFlags (discover [0x46, 0x92] [0, 0]) = 0 ∨
        udpCheck (discover [0x46, 0x92] [0, 0]) = dhcpFlags (discover [0x46, 0x92] [0, 0])+2^15 :=
  dhcp_accepted_iff (by decide +kernel) (by decide +kernel) (by decide +kernel)
    (.inr (by decide +kernel))

/-! ## What is sent -/

/-- The frame without its tag when it is sent. -/
def masked (vif : Vif) (skb : SkBuff) : SkBuff := put (inner skb) 6 vif.devAddr.val

/-- What a sent frame has in common with the one that was given. -/
structure Masked (vif : Vif) (skb sent : SkBuff) : Prop where
  source : sent.slice 6 6 = vif.devAddr.val
  dest : sent.slice 0 6 = skb.slice 0 6
  len : sent.len = skb.len
  tag : isTagged sent = isTagged skb ∧ (isTagged skb = true → sent.slice 14 2 = skb.slice 14 2)
  rest : (inner sent).data = (masked vif skb).data ∨
    (inner sent).data = (dhcpFlagBcast vif (masked vif skb)).data

/-- Every result of the program that returns 0 has the property. -/
def Sends (post : SkBuff → Prop) (p : Program) : Prop :=
  Ends (fun _ => True) (fun _ _ => True) (fun r => ∀ h, r = some h → h.ret = 0 → post h.skb) p

variable {post : SkBuff → Prop}

theorem sends_ended {ret : ℤ} (h : ret = 0 → post skb) : Sends post (ended ret vif skb) :=
  fun _ hr hret => Option.some.inj hr ▸ h (by rw [← hret, ← Option.some.inj hr])

theorem sends_ite {c : Prop} [Decidable c] {p q : Program} (hp : c → Sends post p)
    (hq : ¬ c → Sends post q) : Sends post (if c then p else q) := by
  split_ifs with h
  · exact hp h
  · exact hq h

theorem sends_ask {c : Call} {next : Answer → Program} (h : ∀ a, Sends post (next a)) :
    Sends post (.ask c next) := ⟨trivial, fun a _ => h a⟩

theorem sentFrom_sends (h : post skb) : Sends post (sentFrom vif skb) := sends_ended fun _ => h

/-- A frame of the Internet protocol is registered and goes on as it is. -/
theorem insert_ends (hproto : protocol skb = ETH_P_IP) (hheader : 4*(byte skb 14 % 16) < skb.len) :
    Ends (fun _ => True) (fun _ _ => True) (fun r => r = some ⟨0, vif, skb⟩)
      (nat25DbHandle env vif skb .insert) := by
  have hrun : nat25DbHandle env vif skb .insert = handleIp env vif skb .insert := if_pos hproto
  have hlen : ¬ 14+skb.len ≤ 14+4*(byte skb 14 % 16) := by omega
  rw [hrun, handleIp, if_neg hlen]
  change Ends _ _ _ (if _ then _ else _)
  split_ifs
  · exact rfl
  · exact ⟨trivial, fun _ _ => rfl⟩

theorem check_ip (hproto : protocol skb = ETH_P_IP) :
    nat25DbHandle env vif skb .check = ended (-1) vif skb := by
  have hrun : nat25DbHandle env vif skb .check = handleIp env vif skb .check := if_pos hproto
  rw [hrun, handleIp]
  exact ite_self _

theorem not_tagged (h : protocol skb = ETH_P_IP) : isTagged skb = false := by
  simp [isTagged, h, ETH_P_IP, ETH_P_8021Q]

theorem protocol_same {sent : SkBuff} (h : ∀ i, 12 ≤ i → i < 14 → sent.data i = skb.data i) :
    protocol sent = protocol skb := by
  rw [protocol, protocol, word, word, byte, byte, byte, byte, h 12 (by decide) (by decide),
    h 13 (by decide) (by decide)]

theorem slice_same {sent : SkBuff} {i n : ℕ} (h : ∀ j < n, sent.data (i+j) = skb.data (i+j)) :
    sent.slice i n = skb.slice i n :=
  List.map_congr_left fun j hj => h j (List.mem_range.mp hj)

theorem masked_source : (masked vif skb).slice 6 6 = vif.devAddr.val :=
  put_slice (mac_length vif.devAddr)

theorem masked_outside {i : ℕ} (h : i < 6 ∨ 12 ≤ i) :
    (masked vif skb).data i = (inner skb).data i :=
  put_outside (by rw [mac_length]; omega)

/-- The frame is given back its tag. -/
theorem masked_tagged (hproto : protocol (inner skb) = ETH_P_IP)
    (hlen : 0 < (inner skb).len) {sent : SkBuff} (hsource : sent.slice 6 6 = vif.devAddr.val)
    (hdest : sent.slice 0 6 = (inner skb).slice 0 6) (hsame : sent.len = (inner skb).len)
    (hkept : ∀ i, 12 ≤ i → i < 14 → sent.data i = (inner skb).data i)
    (hrest : sent.data = (masked vif skb).data ∨
      sent.data = (dhcpFlagBcast vif (masked vif skb)).data) :
    Masked vif skb
      (if isTagged skb then pushTag (frontOf skb) (skb.slice 14 2) sent else sent) := by
  by_cases htag : isTagged skb = true
  · have htci : skb.slice 14 2 = [skb.data 14, skb.data 15] := rfl
    rw [if_pos htag]
    have hpush := pushTag_data (frontOf skb) (skb.data 14, skb.data 15) sent
    have htagged : isTagged (pushTag (frontOf skb) (skb.slice 14 2) sent) = true := by
      rw [isTagged, htci, protocol, word, byte, byte, hpush, hpush]
      rfl
    refine ⟨?_, ?_, ?_, ⟨htagged.trans htag.symm, fun _ => ?_⟩, ?_⟩
    · rw [← hsource]
      exact slice_same fun i hi => by rw [htci, hpush, if_pos (by omega)]
    · rw [pushTag_dest, hdest, inner_slice]
    · have hinner : (inner skb).len = skb.len-4 := by
        rw [AIC.Nat25Translation.inner, if_pos htag]
        rfl
      change sent.len+4 = skb.len
      omega
    · exact put_slice rfl
    · rw [AIC.Nat25Translation.inner, if_pos htagged, pullTag_pushTag]
      exact hrest
  · have hinner : inner skb = skb := if_neg htag
    have huntagged : isTagged sent = false := not_tagged ((protocol_same hkept).trans hproto)
    rw [if_neg htag]
    refine ⟨hsource, hdest.trans (by rw [hinner]), hsame.trans (by rw [hinner]),
      ⟨huntagged.trans (Bool.eq_false_iff.mpr htag).symm, fun h => absurd h htag⟩, ?_⟩
    rw [AIC.Nat25Translation.inner, huntagged]
    exact hrest

/-- The frame at the end of `aic_br_client_tx`, with or without the change for DHCP. -/
theorem flagged_masked (hproto : protocol (inner skb) = ETH_P_IP) (hlen : 0 < (inner skb).len) :
    Masked vif skb (if isTagged skb then
      pushTag (frontOf skb) (skb.slice 14 2) (dhcpFlagBcast vif (masked vif skb))
      else dhcpFlagBcast vif (masked vif skb)) := by
  have hlow : ∀ i < 14, (dhcpFlagBcast vif (masked vif skb)).data i = (masked vif skb).data i := by
    intro i hi
    refine dhcp_outside ?_ ?_
    all_goals
      unfold udpAt
      omega
  refine masked_tagged hproto hlen ?_ ?_ dhcp_len (fun i hi hi14 => ?_) (.inr rfl)
  · exact (slice_same fun i hi => hlow _ (by omega)).trans masked_source
  · exact slice_same fun i hi => (hlow _ (by omega)).trans (masked_outside (.inl (by omega)))
  · exact (hlow i hi14).trans (masked_outside (.inr hi))

theorem clientTxTable_sends {vif' : Vif} (hdev : vif'.devAddr = vif.devAddr)
    (hbcst : vif'.dhcpBcstDisable = vif.dhcpBcstDisable)
    (hproto : protocol (inner skb) = ETH_P_IP)
    (hheader : 4*(byte (inner skb) 14 % 16) < (inner skb).len) (doNat25 : Bool) :
    Sends (Masked vif skb) (clientTxTable env skb (isTagged skb) (skb.slice 14 2) vif' (inner skb)
      doNat25) := by
  have hend : Sends (Masked vif skb) (clientTxEnd skb (isTagged skb) (skb.slice 14 2) vif'
      (inner skb)) := by
    have hsame : dhcpFlagBcast vif' (put (inner skb) 6 vif'.devAddr.val) =
        dhcpFlagBcast vif (masked vif skb) := by
      rw [masked, hdev]
      unfold dhcpFlagBcast wantsBroadcast
      rw [hbcst]
    rw [clientTxEnd, hsame]
    exact sentFrom_sends (flagged_masked hproto (by omega))
  cases doNat25 with
  | false => exact hend
  | true =>
    have hret : ¬ (-1 : ℤ) = 0 := by decide
    have hinserted : Sends (Masked vif skb) ((nat25DbHandle env vif' (inner skb) .insert).bind
        (clientTxInserted skb (isTagged skb) (skb.slice 14 2))) :=
      Ends.bind (Ends.mono (insert_ends hproto hheader) fun r hr => hr ▸ hend)
    simp only [clientTxTable, if_true, check_ip hproto, ended, Prog.bind, hret, decide_false,
      Bool.false_and, Bool.false_eq_true, if_false]
    exact sends_ite (fun _ => hinserted) fun _ => sends_ended fun h => absurd h hret

/-- Every server of the database is allowed, and so is every time at which others have their
turns. -/
theorem sent_masked {σ : Type} {serve : σ → Call → Option (σ × Answer)} {s s' : σ} {r : Handled}
    (hproto : protocol (inner skb) = ETH_P_IP)
    (hheader : 4*(byte (inner skb) 14 % 16) < (inner skb).len)
    (hrun : (aicBrClientTx env vif skb).run serve s = some (s', some r)) (hret : r.ret = 0) :
    Masked vif skb r.skb := by
  have hlong : ∀ vif' : Vif, vif'.devAddr = vif.devAddr →
      vif'.dhcpBcstDisable = vif.dhcpBcstDisable →
      Sends (Masked vif skb) (if protocol (inner skb) = ETH_P_IP then
        .ask (.cacheSource env.cacheTime ((inner skb).slice 6 6) ((inner skb).slice 26 4)) fun a =>
          clientTxTable env skb (isTagged skb) (skb.slice 14 2) vif' (inner skb) a.1
        else clientTxTable env skb (isTagged skb) (skb.slice 14 2) vif' (inner skb) true) :=
    fun vif' hdev hbcst => sends_ite
      (fun _ => sends_ask fun _ => clientTxTable_sends hdev hbcst hproto hheader _)
      fun h => absurd hproto h
  have hways : Sends (Masked vif skb) (aicBrClientTx env vif skb) := by
    refine sends_ite (fun hshort => sends_ask fun _ => sends_ite (fun _ => ?_) fun _ => ?_)
      fun _ => ?_
    · -- Only a frame without a tag takes the short way, and its flags stay as they are.
      have htag : isTagged skb = false := not_tagged hshort.2.2.2
      have hinner : inner skb = skb := by
        rw [AIC.Nat25Translation.inner, htag]
        rfl
      have hmasked : Masked vif skb _ := masked_tagged hproto (by omega) masked_source
        (slice_same fun i hi => masked_outside (.inl (by omega))) rfl
        (fun i hi _ => masked_outside (.inr hi)) (.inl rfl)
      rw [htag, masked, hinner] at hmasked
      exact sentFrom_sends hmasked
    · exact hlong _ (by split_ifs <;> rfl) (by split_ifs <;> rfl)
    · exact hlong _ (by split_ifs <;> rfl) (by split_ifs <;> rfl)
  exact Ends.of_run hways hrun r rfl hret

theorem sent_masked_discover :
    ∃ db r, (aicBrClientTx homeEnv homeVif (discover [0x46, 0x92] [0, 0])).run (Db.call 100)
        Db.empty = some (db, some r) ∧ r.ret = 0 ∧
      Masked homeVif (discover [0x46, 0x92] [0, 0]) r.skb := by
  have hret : (((aicBrClientTx homeEnv homeVif (discover [0x46, 0x92] [0, 0])).run (Db.call 100)
      Db.empty).bind fun run => run.2.map Handled.ret) = some 0 := by decide +kernel
  obtain ⟨⟨db, found⟩, hrun, hfound⟩ := Option.bind_eq_some_iff.mp hret
  obtain ⟨r, hr, hzero⟩ := Option.map_eq_some_iff.mp hfound
  obtain rfl : found = some r := hr
  exact ⟨db, r, hrun, hzero, sent_masked (by decide +kernel) (by decide +kernel) hrun hzero⟩

end AIC.Nat25Sent
