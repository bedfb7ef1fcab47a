import Aic8800.ChannelContext
import Aic8800.MeshTables

/-!
# The keys of interfaces and stations

`rwnx_cfg80211_add_key` and `rwnx_cfg80211_del_key` with the index that the firmware
gives to a key. A slot without a key has the index 0, which is also the index of a key.
A deletion that reaches the firmware for such a slot takes the key of another one. What
an addition reads when the firmware has not answered is whatever is in its memory.
-/

set_option autoImplicit false

namespace AIC.KeyTable
open Lib.GuardedRun
open AIC.ChannelContext (Iftype NX_REMOTE_STA_MAX)
open AIC.MeshTables (MacAddr)

def EIO : ℤ := 5
def ENOMEM : ℤ := 12
def EINVAL : ℤ := 22

def MAC_CIPHER_WEP40 : ℕ := 0
def MAC_CIPHER_TKIP : ℕ := 1
def MAC_CIPHER_CCMP : ℕ := 2
def MAC_CIPHER_WEP104 : ℕ := 3
def MAC_CIPHER_WPI_SMS4 : ℕ := 4
def MAC_CIPHER_BIP_CMAC_128 : ℕ := 5

def WLAN_CIPHER_SUITE_WEP40 : ℕ := 0x000FAC01
def WLAN_CIPHER_SUITE_TKIP : ℕ := 0x000FAC02
def WLAN_CIPHER_SUITE_CCMP : ℕ := 0x000FAC04
def WLAN_CIPHER_SUITE_WEP104 : ℕ := 0x000FAC05
def WLAN_CIPHER_SUITE_AES_CMAC : ℕ := 0x000FAC06
def WLAN_CIPHER_SUITE_SMS4 : ℕ := 0x00147201

def WPI_SUBKEY_LEN : ℕ := 16
def WPI_KEY_LEN : ℕ := 32
def MAC_SEC_KEY_LEN : ℕ := 32

structure KeyParams where
  key : List UInt8
  cipher : ℕ

/-- `struct mm_key_add_req` -/
structure MmKeyAddReq where
  keyIdx : ℕ
  staIdx : ℕ
  key : List UInt8
  cipherSuite : ℕ
  instNbr : ℕ
  pairwise : Bool
  deriving DecidableEq

structure MmKeyAddCfm where
  status : ℕ
  hwKeyIdx : ℕ

/-- What comes of an addition. `rwnx_send_msg` returns 0 whether or not the firmware answers, so
that `cfm` is the answer only where there is one. `installed` is where the firmware has put the key.
-/
structure AddReply where
  alloc : Bool
  answered : Bool
  cfm : MmKeyAddCfm
  installed : Option ℕ

/-- Where the driver keeps the index of a key: `vif->key[]` and `sta->key`. -/
inductive Slot where
  | group (vif keyIndex : ℕ)
  | pair (sta : ℕ)
  deriving DecidableEq

/-- The keys in the firmware stand under their indices, with the slot they were added for. `named`
is no data of the driver: the request that was accepted last for a slot and is not deleted. -/
structure State where
  iftype : ℕ → Iftype
  sta : ℕ → Option MacAddr
  hwIdx : Slot → ℕ
  keyFlag : Bool
  keyHasAdd : ℕ → Bool
  pairedCipherType : ℕ → ℕ
  groupCipherType : ℕ → ℕ
  ret : ℤ
  fw : ℕ → Option (Slot × MmKeyAddReq)
  named : Slot → Option MmKeyAddReq

/-! ## The key of SMS4 -/

def swapKey (key : List UInt8) (i j : ℕ) : List UInt8 :=
  (key.set i (key.getD j 0)).set j (key.getD i 0)

/-- One of the two loops, for the half of the key from `b` on. -/
def reverseSubkey (b : ℕ) (key : List UInt8) : List UInt8 :=
  (List.range (WPI_SUBKEY_LEN/2)).foldl
    (fun key i => swapKey key (i+b) (b+WPI_SUBKEY_LEN-1-i)) key

def reverseSubkeys (key : List UInt8) : List UInt8 :=
  reverseSubkey WPI_SUBKEY_LEN (reverseSubkey 0 key)

theorem swapKey_length (key : List UInt8) (i j : ℕ) : (swapKey key i j).length = key.length := by
  simp [swapKey]

theorem swapKey_getElem? {key : List UInt8} {i j : ℕ} (hi : i < key.length) (hj : j < key.length)
    (k : ℕ) : (swapKey key i j)[k]? = key[if k = j then i else if k = i then j else k]? := by
  have hgi : key[i]? = some (key.getD i 0) := by simp [hi]
  have hgj : key[j]? = some (key.getD j 0) := by simp [hj]
  rw [swapKey, List.getElem?_set, List.getElem?_set, List.length_set]
  by_cases hkj : k = j
  · rw [if_pos hkj.symm, if_pos hj, if_pos hkj, hgi]
  · rw [if_neg (Ne.symm hkj), if_neg hkj]
    by_cases hki : k = i
    · rw [if_pos hki.symm, if_pos hi, if_pos hki, hgj]
    · rw [if_neg (Ne.symm hki), if_neg hki]

theorem reverseSubkey_spec {b : ℕ} {key : List UInt8} (hlen : b+WPI_SUBKEY_LEN ≤ key.length) :
    (reverseSubkey b key).length = key.length ∧ ∀ k, (reverseSubkey b key)[k]? =
      key[if b ≤ k ∧ k < b+WPI_SUBKEY_LEN then 2*b+WPI_SUBKEY_LEN-1-k else k]? := by
  -- After `n` turns the first `n` bytes and the last `n` ones have changed places.
  have hturns : ∀ n ≤ 8,
      ((List.range n).foldl (fun key i => swapKey key (i+b) (b+16-1-i)) key).length =
        key.length ∧
      ∀ k, ((List.range n).foldl (fun key i => swapKey key (i+b) (b+16-1-i)) key)[k]? =
        key[if b ≤ k ∧ k < b+n ∨ b+16-n ≤ k ∧ k < b+16 then 2*b+16-1-k else k]? := by
    intro n hn
    unfold WPI_SUBKEY_LEN at hlen
    induction n with
    | zero =>
      refine ⟨rfl, fun k => ?_⟩
      rw [if_neg (by omega)]
      rfl
    | succ n ih =>
      obtain ⟨hsame, hget⟩ := ih (by omega)
      rw [List.range_succ, List.foldl_append, List.foldl_cons, List.foldl_nil]
      refine ⟨(swapKey_length ..).trans hsame, fun k => ?_⟩
      rw [swapKey_getElem? (by omega) (by omega), hget]
      congr 1
      split_ifs <;> omega
  obtain ⟨hsame, hget⟩ := hturns 8 le_rfl
  refine ⟨hsame, fun k => (hget k).trans ?_⟩
  congr 1
  unfold WPI_SUBKEY_LEN
  split_ifs <;> omega

/-- Both halves of the key are turned round. -/
theorem reverseSubkeys_getElem? {key : List UInt8} (h : key.length = WPI_KEY_LEN) (k : ℕ) :
    (reverseSubkeys key)[k]? = key[if k < 16 then 15-k else if k < 32 then 47-k else k]? := by
  have hhalf : 0+WPI_SUBKEY_LEN ≤ key.length := by
    rw [h]
    decide
  obtain ⟨hfirst, hget⟩ := reverseSubkey_spec hhalf
  have hboth : WPI_SUBKEY_LEN+WPI_SUBKEY_LEN ≤ (reverseSubkey 0 key).length := by
    rw [hfirst, h]
    decide
  obtain ⟨-, hget'⟩ := reverseSubkey_spec hboth
  refine ((hget' k).trans (hget _)).trans ?_
  congr 1
  unfold WPI_SUBKEY_LEN
  split_ifs <;> omega

/-! ## The calls -/

/-- The cipher of the firmware. -/
def macCipher (cipher : ℕ) : Option ℕ :=
  if cipher = WLAN_CIPHER_SUITE_WEP40 then some MAC_CIPHER_WEP40
  else if cipher = WLAN_CIPHER_SUITE_WEP104 then some MAC_CIPHER_WEP104
  else if cipher = WLAN_CIPHER_SUITE_TKIP then some MAC_CIPHER_TKIP
  else if cipher = WLAN_CIPHER_SUITE_CCMP then some MAC_CIPHER_CCMP
  else if cipher = WLAN_CIPHER_SUITE_AES_CMAC then some MAC_CIPHER_BIP_CMAC_128
  else if cipher = WLAN_CIPHER_SUITE_SMS4 then some MAC_CIPHER_WPI_SMS4
  else none

/-- `rwnx_send_key_add` without the sending -/
def keyAddReq (vifIdx staIdx : ℕ) (pairwise : Bool) (key : List UInt8) (keyIdx cipherSuite : ℕ) :
    MmKeyAddReq where
  keyIdx := if staIdx ≠ 0xFF then 0 else keyIdx
  staIdx := staIdx
  key := key
  cipherSuite := cipherSuite
  instNbr := vifIdx
  pairwise := pairwise

/-- The key as it is sent. That of SMS4 is turned round, in the memory of the caller. -/
def KeyParams.sentKey (params : KeyParams) : List UInt8 :=
  if params.cipher = WLAN_CIPHER_SUITE_SMS4 then reverseSubkeys params.key else params.key

namespace AddReply

def store (reply : AddReply) (fw : ℕ → Option (Slot × MmKeyAddReq)) (x : Slot)
    (req : MmKeyAddReq) : ℕ → Option (Slot × MmKeyAddReq) :=
  match reply.installed with
  | some i => Function.update fw i (some (x, req))
  | none => fw

/-- The driver takes the key for added. -/
def accepted (reply : AddReply) : Bool := reply.alloc && reply.cfm.status = 0

end AddReply

namespace State

/-- `rwnx_get_sta` -/
def getSta (s : State) (mac : MacAddr) : Option ℕ :=
  (List.range NX_REMOTE_STA_MAX).find? fun i => s.sta i = some mac

def isSta (s : State) (vif : ℕ) : Bool := s.iftype vif = .station || s.iftype vif = .p2pClient

/-- Where the index is kept. There is no slot for an unknown station. -/
def slot (s : State) (vif keyIndex : ℕ) : Option MacAddr → Option Slot
  | some mac => (s.getSta mac).map .pair
  | none => some (.group vif keyIndex)

/-- `sta->sta_idx` or `0xFF` -/
def staIdx : Slot → ℕ
  | .pair i => i
  | .group _ _ => 0xFF

/-- What both calls note of the cipher. -/
def noteCipher (s : State) (vif : ℕ) (x : Slot) (added : Bool) (cipher : ℕ) : State :=
  match x with
  | .pair _ => { s with
      pairedCipherType := if s.isSta vif then Function.update s.pairedCipherType vif cipher
        else s.pairedCipherType }
  | .group _ _ => { s with
      keyHasAdd := Function.update s.keyHasAdd vif added
      groupCipherType := if s.isSta vif then Function.update s.groupCipherType vif cipher
        else s.groupCipherType }

/-- The firmware and the driver after a request. -/
def addAnswer (s : State) (x : Slot) (req : MmKeyAddReq) (reply : AddReply) : State :=
  let s := { s with fw := reply.store s.fw x req }
  if !reply.alloc then { s with ret := -ENOMEM }
  else if reply.cfm.status ≠ 0 then { s with ret := - EIO }
  else { s with
    hwIdx := Function.update s.hwIdx x reply.cfm.hwKeyIdx
    named := Function.update s.named x (some req)
    ret := 0 }

/-- `rwnx_cfg80211_add_key` -/
def addKey (s : State) (vif keyIndex : ℕ) (pairwise : Bool) (mac : Option MacAddr)
    (params : KeyParams) (reply : AddReply) : State :=
  match s.slot vif keyIndex mac with
  | none => { s with ret := -EINVAL }
  | some x =>
    let s := s.noteCipher vif x true params.cipher
    match macCipher params.cipher with
    | none => { s with ret := -EINVAL }
    | some cipher =>
      { s with keyFlag := false }.addAnswer x
        (keyAddReq vif (staIdx x) pairwise params.sentKey keyIndex cipher) reply

/-- `rwnx_cfg80211_del_key`. `taken` says that the firmware has got the message. -/
def delKey (s : State) (vif keyIndex : ℕ) (mac : Option MacAddr) (alloc taken : Bool) : State :=
  if !s.keyFlag && s.iftype vif = .station then { s with ret := 0 }
  else match s.slot vif keyIndex mac with
    | none => { s with ret := -EINVAL }
    | some x =>
      let s := s.noteCipher vif x false 0xff
      { s with
        fw := if alloc && taken then Function.update s.fw (s.hwIdx x) none else s.fw
        hwIdx := Function.update s.hwIdx x 0
        named := Function.update s.named x none
        ret := if alloc then 0 else -ENOMEM }

/-- The firmware drops the key at an index by itself. -/
def fwDrop (s : State) (i : ℕ) : State :=
  { s with
    fw := Function.update s.fw i none
    named := fun x => if s.hwIdx x = i then none else s.named x }

/-- `rwnx_cfg80211_add_station` with its confirmation -/
def addStation (s : State) (i : ℕ) (mac : MacAddr) : State :=
  { s with
    sta := Function.update s.sta i (some mac)
    hwIdx := Function.update s.hwIdx (.pair i) 0
    named := Function.update s.named (.pair i) none }

end State

inductive Act where
  | addKey (vif keyIndex : ℕ) (pairwise : Bool) (mac : Option MacAddr) (params : KeyParams)
      (reply : AddReply)
  | delKey (vif keyIndex : ℕ) (mac : Option MacAddr) (alloc taken : Bool)
  | connect (vif : ℕ)
  | disconnect
  | addStation (i : ℕ) (mac : MacAddr)
  | smConnectInd (i : ℕ) (mac : MacAddr)
  | staGone (i : ℕ)
  | changeIface (vif : ℕ) (iftype : Iftype)
  | fwDrop (i : ℕ)

/-- There is no state where memory behind `vif->key`, the key of the caller or that of the message
is read or written. -/
def Act.fits : Act → Bool
  | .addKey _ keyIndex _ mac params _ => (mac.isSome || keyIndex < 6) &&
      params.key.length ≤ MAC_SEC_KEY_LEN &&
      (params.cipher ≠ WLAN_CIPHER_SUITE_SMS4 || params.key.length = WPI_KEY_LEN)
  | .delKey _ keyIndex mac _ _ => mac.isSome || keyIndex < 6
  | _ => true

/-- `disconnect` is one of an interface that is connected. -/
def step (s : State) (a : Act) : Option State :=
  if a.fits then some <| match a with
    | .addKey vif keyIndex pairwise mac params reply =>
      s.addKey vif keyIndex pairwise mac params reply
    | .delKey vif keyIndex mac alloc taken => s.delKey vif keyIndex mac alloc taken
    | .connect vif => if s.isSta vif then
        { s with pairedCipherType := Function.update s.pairedCipherType vif 0xff
                 groupCipherType := Function.update s.groupCipherType vif 0xff }
      else s
    | .disconnect => { s with keyFlag := true }
    | .addStation i mac => s.addStation i mac
    | .smConnectInd i mac => { s with sta := Function.update s.sta i (some mac) }
    | .staGone i => { s with sta := Function.update s.sta i none }
    | .changeIface vif iftype => { s with iftype := Function.update s.iftype vif iftype }
    | .fwDrop i => s.fwDrop i
  else none

def init (iftype : ℕ → Iftype) : State where
  iftype := iftype
  sta := fun _ => none
  hwIdx := fun _ => 0
  keyFlag := false
  keyHasAdd := fun _ => false
  pairedCipherType := fun _ => 0
  groupCipherType := fun _ => 0
  ret := 0
  fw := fun _ => none
  named := fun _ => none

/-! ## Every key is where the driver will delete it -/

def Installed (s : State) : Prop := ∀ x q, s.named x = some q → s.fw (s.hwIdx x) = some (x, q)

/-- What the firmware does with an addition. An accepted key stands where it says, and where no key
of another slot was. What it does without such an answer touches no key. -/
def Answers (s : State) : Act → Prop
  | .addKey vif keyIndex _ mac _ reply =>
    if reply.accepted = true ∧ reply.answered = true then
      reply.installed = some reply.cfm.hwKeyIdx ∧
        ∀ x, s.slot vif keyIndex mac = some x →
          ∀ y q, s.fw reply.cfm.hwKeyIdx = some (y, q) → y = x
    else ∀ i ∈ reply.installed, s.fw i = none
  | _ => True

/-- A key that the driver takes for added was answered for, or what it reads happens to be right. A
deletion that comes to the firmware is for the index of no other slot's key. -/
def Safe (s : State) : Act → Prop
  | .addKey vif keyIndex pairwise mac params reply => reply.accepted = true →
    reply.answered = true ∨ ∀ x cipher, s.slot vif keyIndex mac = some x →
      macCipher params.cipher = some cipher →
        reply.installed = some reply.cfm.hwKeyIdx ∨ s.fw reply.cfm.hwKeyIdx =
          some (x, keyAddReq vif (State.staIdx x) pairwise params.sentKey keyIndex cipher)
  | .delKey vif keyIndex mac alloc taken =>
    (s.keyFlag = false ∧ s.iftype vif = .station) ∨ (alloc && taken) = false ∨
      ∀ x, s.slot vif keyIndex mac = some x →
        s.named x ≠ none ∨ ∀ y, s.named y ≠ none → s.hwIdx y ≠ s.hwIdx x
  | _ => True

section Steps

variable {s : State} {x : Slot}

@[simp] theorem noteCipher_fw (s : State) (vif : ℕ) (x : Slot) (added : Bool) (cipher : ℕ) :
    (s.noteCipher vif x added cipher).fw = s.fw := by cases x <;> rfl

@[simp] theorem noteCipher_hwIdx (s : State) (vif : ℕ) (x : Slot) (added : Bool) (cipher : ℕ) :
    (s.noteCipher vif x added cipher).hwIdx = s.hwIdx := by cases x <;> rfl

@[simp] theorem noteCipher_named (s : State) (vif : ℕ) (x : Slot) (added : Bool) (cipher : ℕ) :
    (s.noteCipher vif x added cipher).named = s.named := by cases x <;> rfl

/-- The parts of the state that the keys are in. -/
theorem Installed.of_same {t : State} (h : Installed s) (hfw : t.fw = s.fw)
    (hidx : t.hwIdx = s.hwIdx) (hnamed : t.named = s.named) : Installed t := by
  intro x q hq
  rw [hfw, hidx]
  exact h x q (hnamed ▸ hq)

theorem Installed.accepted (h : Installed s) {i : ℕ} (req : MmKeyAddReq)
    (hi : ∀ y q, s.fw i = some (y, q) → y = x) : Installed { s with
      fw := Function.update s.fw i (some (x, req))
      hwIdx := Function.update s.hwIdx x i
      named := Function.update s.named x (some req) } := by
  intro y q hq
  by_cases hy : y = x
  · subst hy
    simp only [Function.update_self] at hq ⊢
    rw [← Option.some.inj hq]
  · simp only [Function.update_of_ne hy] at hq ⊢
    have hold := h y q hq
    have hne : s.hwIdx y ≠ i := fun he => hy (hi y q (he ▸ hold))
    rw [Function.update_of_ne hne]
    exact hold

/-- A key at an index that no key had. -/
theorem Installed.strayed (h : Installed s) {i : ℕ} (req : MmKeyAddReq) (hi : s.fw i = none) :
    Installed { s with fw := Function.update s.fw i (some (x, req)) } := by
  intro y q hq
  have hold := h y q hq
  have hne : s.hwIdx y ≠ i := fun he => by rw [he, hi] at hold; cases hold
  simp only [Function.update_of_ne hne]
  exact hold

theorem Installed.deleted (h : Installed s)
    (hx : s.named x ≠ none ∨ ∀ y, s.named y ≠ none → s.hwIdx y ≠ s.hwIdx x) : Installed { s with
      fw := Function.update s.fw (s.hwIdx x) none
      hwIdx := Function.update s.hwIdx x 0
      named := Function.update s.named x none } := by
  intro y q hq
  by_cases hy : y = x
  · subst hy
    simp only [Function.update_self] at hq
    cases hq
  · simp only [Function.update_of_ne hy] at hq ⊢
    have hold := h y q hq
    have hne : s.hwIdx y ≠ s.hwIdx x := by
      rcases hx with hown | hother
      · -- Both have their keys in the firmware, and one index has one key.
        obtain ⟨p, hp⟩ := Option.ne_none_iff_exists'.mp hown
        intro he
        have hmine := h x p hp
        rw [← he, hold] at hmine
        exact hy (congrArg Prod.fst (Option.some.inj hmine))
      · exact hother y (by simp [hq])
    rw [Function.update_of_ne hne]
    exact hold

/-- A slot gives its key up. -/
theorem Installed.forgot (h : Installed s) (x : Slot) : Installed { s with
      hwIdx := Function.update s.hwIdx x 0
      named := Function.update s.named x none } := by
  intro y q hq
  by_cases hy : y = x
  · subst hy
    simp only [Function.update_self] at hq
    cases hq
  · simp only [Function.update_of_ne hy] at hq ⊢
    exact h y q hq

/-- The driver finds the index of a key that is in the firmware for the slot. -/
theorem Installed.found (h : Installed s) {i : ℕ} {req : MmKeyAddReq}
    (hi : s.fw i = some (x, req)) : Installed { s with
      hwIdx := Function.update s.hwIdx x i
      named := Function.update s.named x (some req) } := by
  have hown : ∀ y q, s.fw i = some (y, q) → y = x := by
    intro y q hq
    rw [hi] at hq
    exact (congrArg Prod.fst (Option.some.inj hq)).symm
  refine (h.accepted req hown).of_same ?_ rfl rfl
  simp only [← hi, Function.update_eq_self]

theorem Installed.addAnswer (h : Installed s) {req : MmKeyAddReq} {reply : AddReply}
    (ha : if reply.accepted = true ∧ reply.answered = true then
        reply.installed = some reply.cfm.hwKeyIdx ∧
          ∀ y q, s.fw reply.cfm.hwKeyIdx = some (y, q) → y = x
      else ∀ i ∈ reply.installed, s.fw i = none)
    (hp : reply.accepted = true → reply.answered = true ∨
      reply.installed = some reply.cfm.hwKeyIdx ∨ s.fw reply.cfm.hwKeyIdx = some (x, req)) :
    Installed (s.addAnswer x req reply) := by
  have hstray : (∀ i ∈ reply.installed, s.fw i = none) →
      Installed { s with fw := reply.store s.fw x req } := by
    intro hfree
    unfold AddReply.store
    cases hinstalled : reply.installed with
    | none => exact h
    | some i => exact h.strayed req (hfree i hinstalled)
  have htaken : reply.installed = some reply.cfm.hwKeyIdx →
      (∀ y q, s.fw reply.cfm.hwKeyIdx = some (y, q) → y = x) → Installed { s with
        fw := reply.store s.fw x req
        hwIdx := Function.update s.hwIdx x reply.cfm.hwKeyIdx
        named := Function.update s.named x (some req) } := by
    intro hinstalled hi
    simp only [AddReply.store, hinstalled]
    exact h.accepted req hi
  unfold State.addAnswer
  by_cases haccepted : reply.accepted = true
  · have hboth := haccepted
    simp only [AddReply.accepted, Bool.and_eq_true, decide_eq_true_eq] at hboth
    simp only [hboth.1, hboth.2, Bool.not_true, Bool.false_eq_true, ne_eq, not_true_eq_false,
      if_false]
    by_cases hanswered : reply.answered = true
    · rw [if_pos ⟨haccepted, hanswered⟩] at ha
      exact (htaken ha.1 ha.2).of_same rfl rfl rfl
    · rw [if_neg fun hand => hanswered hand.2] at ha
      rcases (hp haccepted).resolve_left hanswered with hinstalled | hthere
      · refine (htaken hinstalled fun y q hq => ?_).of_same rfl rfl rfl
        rw [ha _ hinstalled] at hq
        cases hq
      · -- The key that has come too late stands at another index.
        have hstays : reply.store s.fw x req reply.cfm.hwKeyIdx = some (x, req) := by
          unfold AddReply.store
          cases hinstalled : reply.installed with
          | none => exact hthere
          | some i =>
            have hne : reply.cfm.hwKeyIdx ≠ i := by
              rintro rfl
              rw [ha _ hinstalled] at hthere
              cases hthere
            simp only [Function.update_of_ne hne]
            exact hthere
        exact ((hstray ha).found hstays).of_same rfl rfl rfl
  · rw [if_neg fun hand => haccepted hand.1] at ha
    have hleft := hstray ha
    split_ifs with halloc hstatus
    · exact hleft.of_same rfl rfl rfl
    · exact hleft.of_same rfl rfl rfl
    · refine absurd ?_ haccepted
      simpa [AddReply.accepted] using And.intro halloc hstatus

theorem Installed.addKey (h : Installed s) {vif keyIndex : ℕ} {pairwise : Bool}
    {mac : Option MacAddr} {params : KeyParams} {reply : AddReply}
    (ha : Answers s (.addKey vif keyIndex pairwise mac params reply))
    (hp : Safe s (.addKey vif keyIndex pairwise mac params reply)) :
    Installed (s.addKey vif keyIndex pairwise mac params reply) := by
  unfold State.addKey
  cases hslot : s.slot vif keyIndex mac with
  | none => exact h.of_same rfl rfl rfl
  | some x =>
    have hnoted : Installed (s.noteCipher vif x true params.cipher) :=
      h.of_same (noteCipher_fw ..) (noteCipher_hwIdx ..) (noteCipher_named ..)
    simp only
    cases hcipher : macCipher params.cipher with
    | none => exact hnoted.of_same rfl rfl rfl
    | some cipher =>
      have hflag : Installed { s.noteCipher vif x true params.cipher with keyFlag := false } :=
        hnoted.of_same rfl rfl rfl
      refine hflag.addAnswer ?_ fun haccepted => ?_
      · simp only [noteCipher_fw]
        by_cases hok : reply.accepted = true ∧ reply.answered = true
        · simp only [Answers, if_pos hok] at ha
          rw [if_pos hok]
          exact ⟨ha.1, ha.2 x hslot⟩
        · simp only [Answers, if_neg hok] at ha
          rw [if_neg hok]
          exact ha
      · simp only [noteCipher_fw]
        exact (hp haccepted).imp_right fun hmem => hmem x cipher hslot hcipher

theorem Installed.delKey (h : Installed s) {vif keyIndex : ℕ} {mac : Option MacAddr}
    {alloc taken : Bool} (hp : Safe s (.delKey vif keyIndex mac alloc taken)) :
    Installed (s.delKey vif keyIndex mac alloc taken) := by
  unfold State.delKey
  by_cases hgate : (!s.keyFlag && s.iftype vif = .station) = true
  · rw [if_pos hgate]
    exact h.of_same rfl rfl rfl
  rw [if_neg hgate]
  cases hslot : s.slot vif keyIndex mac with
  | none => exact h.of_same rfl rfl rfl
  | some x =>
    have hnoted : Installed (s.noteCipher vif x false 0xff) :=
      h.of_same (noteCipher_fw ..) (noteCipher_hwIdx ..) (noteCipher_named ..)
    cases hgot : alloc && taken with
    | false => exact (hnoted.forgot x).of_same (by simp) rfl rfl
    | true =>
      have hx : s.named x ≠ none ∨ ∀ y, s.named y ≠ none → s.hwIdx y ≠ s.hwIdx x := by
        rcases hp with ⟨hflag, htype⟩ | htaken | hx
        · exact absurd (by simp [hflag, htype]) hgate
        · rw [hgot] at htaken
          cases htaken
        · exact hx x hslot
      refine (hnoted.deleted ?_).of_same (by simp) rfl rfl
      simpa only [noteCipher_named, noteCipher_hwIdx] using hx

theorem Installed.fwDrop (h : Installed s) (i : ℕ) : Installed (s.fwDrop i) := by
  intro x q hq
  simp only [State.fwDrop] at hq ⊢
  split_ifs at hq with hi
  rw [Function.update_of_ne hi]
  exact h x q hq

theorem installed_step {t : State} (a : Act) (ha : Answers s a) (hp : Safe s a)
    (hstep : step s a = some t) (h : Installed s) : Installed t := by
  unfold step at hstep
  split_ifs at hstep
  obtain rfl := Option.some.inj hstep
  cases a with
  | addKey => exact h.addKey ha hp
  | delKey => exact h.delKey hp
  | connect vif =>
    simp only
    split_ifs
    · exact h.of_same rfl rfl rfl
    · exact h
  | disconnect => exact h.of_same rfl rfl rfl
  | addStation i mac => exact (h.forgot (.pair i)).of_same rfl rfl rfl
  | smConnectInd i mac => exact h.of_same rfl rfl rfl
  | staGone i => exact h.of_same rfl rfl rfl
  | changeIface vif iftype => exact h.of_same rfl rfl rfl
  | fwDrop i => exact h.fwDrop i

/-- A step after which every key is where it should be was a safe one. -/
theorem safe_of_installed (a : Act) (hfits : a.fits = true)
    (h : ∀ t ∈ step s a, Installed t) : Safe s a := by
  cases a with
  | addKey vif keyIndex pairwise mac params reply =>
    intro haccepted
    refine .inr fun x cipher hslot hcipher => ?_
    have hadd : Installed (s.addKey vif keyIndex pairwise mac params reply) :=
      h _ (by rw [step, if_pos hfits]; rfl)
    have hboth := haccepted
    simp only [AddReply.accepted, Bool.and_eq_true, decide_eq_true_eq] at hboth
    have hfound := hadd x (keyAddReq vif (State.staIdx x) pairwise params.sentKey keyIndex cipher)
    simp only [State.addKey, hslot, hcipher, State.addAnswer, hboth.1, hboth.2, Bool.not_true,
      Bool.false_eq_true, ne_eq, not_true_eq_false, if_false, Function.update_self,
      noteCipher_fw, forall_const, AddReply.store] at hfound
    cases hinstalled : reply.installed with
    | none =>
      rw [hinstalled] at hfound
      exact .inr hfound
    | some i =>
      rw [hinstalled] at hfound
      by_cases hi : reply.cfm.hwKeyIdx = i
      · exact .inl (congrArg some hi.symm)
      · simp only [Function.update_of_ne hi] at hfound
        exact .inr hfound
  | delKey vif keyIndex mac alloc taken =>
    have hdel : Installed (s.delKey vif keyIndex mac alloc taken) :=
      h _ (by rw [step, if_pos hfits]; rfl)
    by_cases hgate : (!s.keyFlag && s.iftype vif = .station) = true
    · exact .inl (by simpa using hgate)
    cases hgot : alloc && taken with
    | false => exact .inr (.inl hgot)
    | true =>
      refine .inr (.inr fun x hslot => ?_)
      by_contra hno
      rw [not_or, not_not] at hno
      obtain ⟨hnone, hother⟩ := hno
      push Not at hother
      obtain ⟨y, hy, hsame⟩ := hother
      obtain ⟨q, hq⟩ := Option.ne_none_iff_exists'.mp hy
      have hne : y ≠ x := fun he => hy (he ▸ hnone)
      have hlost := hdel y q
      simp only [State.delKey, if_neg hgate, hslot, noteCipher_named, noteCipher_hwIdx,
        noteCipher_fw, Function.update_of_ne hne, hgot, if_true, hsame,
        Function.update_self] at hlost
      cases hlost hq
  | _ => trivial

end Steps

/-! ## Slots without a key -/

def UnnamedZero (s : State) : Prop := ∀ x, s.named x = none → s.hwIdx x = 0

theorem UnnamedZero.of_same {s t : State} (h : UnnamedZero s) (hidx : t.hwIdx = s.hwIdx)
    (hnamed : t.named = s.named) : UnnamedZero t := fun x hx => by
  rw [hidx]
  exact h x (hnamed ▸ hx)

theorem UnnamedZero.forgot {s t : State} (h : UnnamedZero s) {x : Slot}
    (hidx : t.hwIdx = Function.update s.hwIdx x 0)
    (hnamed : t.named = Function.update s.named x none) : UnnamedZero t := by
  intro y hy
  rw [hidx]
  rw [hnamed] at hy
  by_cases hyx : y = x
  · rw [hyx, Function.update_self]
  · rw [Function.update_of_ne hyx] at hy ⊢
    exact h y hy

theorem UnnamedZero.addAnswer {s : State} (h : UnnamedZero s) (x : Slot) (req : MmKeyAddReq)
    (reply : AddReply) : UnnamedZero (s.addAnswer x req reply) := by
  unfold State.addAnswer
  dsimp only
  split_ifs
  · exact h.of_same rfl rfl
  · exact h.of_same rfl rfl
  · intro y hy
    by_cases hyx : y = x
    · subst hyx
      simp only [Function.update_self] at hy
      cases hy
    · simp only [Function.update_of_ne hyx] at hy ⊢
      exact h y hy

theorem UnnamedZero.addKey {s : State} (h : UnnamedZero s) (vif keyIndex : ℕ) (pairwise : Bool)
    (mac : Option MacAddr) (params : KeyParams) (reply : AddReply) :
    UnnamedZero (s.addKey vif keyIndex pairwise mac params reply) := by
  unfold State.addKey
  cases s.slot vif keyIndex mac with
  | none => exact h.of_same rfl rfl
  | some x =>
    have hflag : UnnamedZero { s.noteCipher vif x true params.cipher with keyFlag := false } :=
      h.of_same (noteCipher_hwIdx ..) (noteCipher_named ..)
    simp only
    cases macCipher params.cipher with
    | none => exact hflag.of_same rfl rfl
    | some cipher => exact hflag.addAnswer _ _ _

theorem UnnamedZero.delKey {s : State} (h : UnnamedZero s) (vif keyIndex : ℕ)
    (mac : Option MacAddr) (alloc taken : Bool) :
    UnnamedZero (s.delKey vif keyIndex mac alloc taken) := by
  unfold State.delKey
  by_cases hgate : (!s.keyFlag && s.iftype vif = .station) = true
  · rw [if_pos hgate]
    exact h.of_same rfl rfl
  rw [if_neg hgate]
  cases s.slot vif keyIndex mac with
  | none => exact h.of_same rfl rfl
  | some x =>
    have hnoted : UnnamedZero (s.noteCipher vif x false 0xff) :=
      h.of_same (noteCipher_hwIdx ..) (noteCipher_named ..)
    exact hnoted.forgot rfl rfl

theorem unnamedZero_step {s t : State} (a : Act) (hdrop : ∀ i, a ≠ .fwDrop i)
    (hstep : step s a = some t) (h : UnnamedZero s) : UnnamedZero t := by
  unfold step at hstep
  split_ifs at hstep
  obtain rfl := Option.some.inj hstep
  cases a with
  | addKey => exact h.addKey _ _ _ _ _ _
  | delKey => exact h.delKey _ _ _ _ _
  | connect vif =>
    simp only
    split_ifs
    · exact h.of_same rfl rfl
    · exact h
  | addStation i mac => exact h.forgot rfl rfl
  | fwDrop i => exact absurd rfl (hdrop i)
  | _ => exact h.of_same rfl rfl

/-- Where the firmware drops no key by itself, a slot without one has the index 0. -/
theorem unnamed_zero {iftype : ℕ → Iftype} {as : List Act} {s : State}
    (hdrop : ∀ a ∈ as, ∀ i, a ≠ .fwDrop i) (hrun : exec step (init iftype) as = some s) :
    UnnamedZero s :=
  exec_invariant (fun _ a _ ha hstep h => unnamedZero_step a ha hstep h) (fun _ _ => rfl)
    (meets_of_mem _ hdrop) hrun

/-- What the callers and the firmware promise. -/
def Promised (s : State) (a : Act) : Prop := a.fits = true ∧ Answers s a

theorem keys_installed_iff (iftype : ℕ → Iftype) (as : List Act)
    (h : Meets step Promised (init iftype) as) :
    Throughout step Installed (init iftype) as ↔ Meets step Safe (init iftype) as :=
  throughout_iff_assuming (fun _ a _ ha hp hstep h => installed_step a ha.2 hp hstep h)
    (fun _ h => h) (fun _ a ha _ hstep => safe_of_installed a ha.1 hstep)
    (fun _ _ h => by cases h) h

/-- An access point has the key at 0, and a station that leaves its network deletes one it does not
have. -/
def clash : List Act :=
  [.addKey 0 0 false none ⟨List.replicate 16 7, WLAN_CIPHER_SUITE_CCMP⟩
      ⟨true, true, ⟨0, 0⟩, some 0⟩,
    .disconnect, .delKey 1 1 none true true]

def apAndSta (vif : ℕ) : Iftype := if vif = 0 then .ap else .station

theorem keys_installed_iff_clash : Throughout step Installed (init apAndSta) clash ↔
    Meets step Safe (init apAndSta) clash := by
  refine keys_installed_iff apAndSta clash ⟨⟨by decide, ?_⟩, fun t ht => ?_⟩
  · refine ⟨rfl, fun x _ y q hq => ?_⟩
    cases hq
  · exact ⟨⟨rfl, trivial⟩, fun u hu => ⟨⟨rfl, trivial⟩, fun _ _ => trivial⟩⟩

end AIC.KeyTable
