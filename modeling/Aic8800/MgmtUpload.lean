import Aic8800.Lib.SafeReads
import Aic8800.MpduConversion
import Aic8800.RxDataInd

/-!
# Management frames

`remove_sec_hdr_mgmt_frame`, `rwnx_rx_mgmt_any` and `rwnx_rx_mgmt` with what they read of a frame
and the pointers and lengths that they pass on. Reads stay inside for all but short frames of a few
kinds.
-/

set_option autoImplicit false

namespace AIC.MgmtUpload
open AIC.RxDataInd (Hw Vif NlIftype getVif)
open AIC.AmsduSplit (Copy)
open AIC.MpduConversion (Cipher)
open Lib.IndexedReads Lib.SafeReads

abbrev Bytes := List UInt8

def RWNX_INVALID_VIF : ℕ := 0xFF

/-- The fields of the descriptor. `gaFrame` is a group address. -/
structure RxDesc where
  gaFrame : Bool
  cipher : Cipher
  flagsNewPeer : Bool
  flagsVifIdx : ℕ

/-- The calls of cfg80211, with what they get of the frame. -/
inductive Upcall where
  | notifyNewPeerCandidate (sa ies : Copy)
  | reportObssBeacon (frame : Copy)
  | rxUnprotMlmeMgmt (frame : Copy)
  | ftEvent (targetAp ies : Copy)
  | rxMgmt (frame : Copy)

def Upcall.copies : Upcall → List Copy
  | .notifyNewPeerCandidate sa ies => [sa, ies]
  | .ftEvent targetAp ies => [targetAp, ies]
  | .reportObssBeacon frame | .rxUnprotMlmeMgmt frame | .rxMgmt frame => [frame]

def Upcall.Inside (n : ℕ) (u : Upcall) : Prop := ∀ c ∈ u.copies, c.Inside n

/-! ## Frame control -/

def isMgmt (fc0 : UInt8) : Bool := fc0 &&& 0x0C == 0
def isBeacon (fc0 : UInt8) : Bool := fc0 &&& 0xFC == 0x80
def isDeauth (fc0 : UInt8) : Bool := fc0 &&& 0xFC == 0xC0
def isDisassoc (fc0 : UInt8) : Bool := fc0 &&& 0xFC == 0xA0
def isAction (fc0 : UInt8) : Bool := fc0 &&& 0xFC == 0xD0
def isProtected (fc1 : UInt8) : Bool := fc1 &&& 0x40 == 0x40

/-! ## The functions -/

def removeSecHdrMgmtFrame (d : RxDesc) (skb : Bytes) : Reading Upcall Bytes :=
  if d.gaFrame then pure skb
  else fetch (skb[·]?) 0 >>= fun fc0 =>
    if !isMgmt fc0 then pure skb
    else fetch (skb[·]?) 1 >>= fun fc1 =>
      if !isProtected fc1 then pure skb
      else if d.cipher ≠ .ccmp128 then pure skb
      else fetchRange (skb[·]?) 0 24 >>= fun mgmtHeader =>
        -- the header is written again behind the 8 bytes pulled
        fetchRange (skb[·]?) 8 24 >>= fun _ => pure (mgmtHeader++skb.drop 32)

section Rx
variable (d : RxDesc) (vif : Vif) (skb : Bytes)

def whole : Copy := ⟨0, skb.length⟩

/-- Fast BSS transition, or anything else. -/
def rxAction (fc0 : UInt8) : Reading Upcall Unit :=
  if vif.iftype = .station ∧ isAction fc0 then
    fetch (skb[·]?) 24 >>= fun category =>
      if category = 6 then send (.ftEvent ⟨32, 6⟩ ⟨38, (skb.length : ℤ)-38⟩)
      else send (.rxMgmt (whole skb))
  else send (.rxMgmt (whole skb))

/-- What is done with a frame of a length that is taken. -/
def rxKind (fc0 : UInt8) : Reading Upcall Unit :=
  if isBeacon fc0 then
    if vif.iftype = .meshPoint ∧ d.flagsNewPeer then
      send (.notifyNewPeerCandidate ⟨10, 6⟩ ⟨36, (skb.length : ℤ)-36⟩)
    else send (.reportObssBeacon (whole skb))
  else if isDeauth fc0 || isDisassoc fc0 then
    fetch (skb[·]?) 24 >>= fun low =>
    fetch (skb[·]?) 25 >>= fun high =>
      if high = 0 ∧ (low = 6 ∨ low = 7) then send (.rxUnprotMlmeMgmt (whole skb))
      else rxAction vif skb fc0
  else rxAction vif skb fc0

def rwnxRxMgmt : Reading Upcall Unit :=
  fetch (skb[·]?) 0 >>= fun fc0 =>
  fetch (skb[·]?) 1 >>= fun _ =>
    if isMgmt fc0 ∧ (skb.length ≤ 24 ∨ 768 < skb.length) then pure ()
    else rxKind d vif skb fc0

end Rx

/-- The interface of the descriptor, or all that are up. -/
def receivers (hw : Hw) (vifs : List Vif) (d : RxDesc) : List Vif :=
  if d.flagsVifIdx = RWNX_INVALID_VIF then vifs.filter Vif.up
  else (getVif hw d.flagsVifIdx).toList

def rwnxRxMgmtAny (hw : Hw) (vifs : List Vif) (d : RxDesc) (skb : Bytes) : Reading Upcall Unit :=
  each (rwnxRxMgmt d · skb) (receivers hw vifs d)

/-! ## What is right -/

def fc0 (skb : Bytes) : UInt8 := skb.getD 0 0
def fc1 (skb : Bytes) : UInt8 := skb.getD 1 0

def ProtectedMgmt (skb : Bytes) : Prop := isMgmt (fc0 skb) = true ∧ isProtected (fc1 skb) = true

/-- Reads and what is passed on lie inside the frame, and a cipher header of 8 bytes is
taken out of a protected unicast frame that has one. -/
structure InBounds (hw : Hw) (vifs : List Vif) (d : RxDesc) (skb : Bytes) : Prop where
  removal : Within skb.length (removeSecHdrMgmtFrame d skb)
  upload : ∀ s, (removeSecHdrMgmtFrame d skb).value = some s →
    Safe s.length (Upcall.Inside s.length) (rwnxRxMgmtAny hw vifs d s)
  stripped : d.gaFrame = false → ProtectedMgmt skb → d.cipher.headerLen = 8 → 32 ≤ skb.length →
    (removeSecHdrMgmtFrame d skb).value = some (skb.take 24++skb.drop 32)

/-- There is a first byte, and a second one of management frames. Those protected with a header of 8
bytes have all of both headers if they are of the one cipher that is known, and else not. -/
def RemovalFits (d : RxDesc) (skb : Bytes) : Prop :=
  d.gaFrame = false → 1 ≤ skb.length ∧ (isMgmt (fc0 skb) = true → 2 ≤ skb.length) ∧
    (ProtectedMgmt skb → d.cipher.headerLen = 8 → (d.cipher = .ccmp128 ↔ 32 ≤ skb.length))

instance (skb : Bytes) : Decidable (ProtectedMgmt skb) := inferInstanceAs (Decidable (_ ∧ _))

/-- The frame behind `remove_sec_hdr_mgmt_frame`. -/
def handed (d : RxDesc) (skb : Bytes) : Bytes :=
  if d.gaFrame = false ∧ ProtectedMgmt skb ∧ d.cipher = .ccmp128 then skb.take 24++skb.drop 32
  else skb

/-- The bytes that each kind needs behind the header: a beacon of a new mesh peer its fixed fields,
a deauthentication or disassociation its reason, and an FT action for a station both addresses. -/
def KindFits (d : RxDesc) (vif : Vif) (s : Bytes) : Prop :=
  (isBeacon (fc0 s) = true → vif.iftype = .meshPoint → d.flagsNewPeer = true → 36 ≤ s.length) ∧
  (isDeauth (fc0 s) = true ∨ isDisassoc (fc0 s) = true → 26 ≤ s.length) ∧
  (isAction (fc0 s) = true → vif.iftype = .station → s.getD 24 0 = 6 → 38 ≤ s.length)

/-- Only the frame control field is read of a frame with a length that is not taken. -/
def UploadFits (d : RxDesc) (vif : Vif) (s : Bytes) : Prop :=
  2 ≤ s.length ∧ (24 < s.length → s.length ≤ 768 → KindFits d vif s)

def Bounded (hw : Hw) (vifs : List Vif) (d : RxDesc) (skb : Bytes) : Prop :=
  RemovalFits d skb ∧ ∀ vif ∈ receivers hw vifs d, UploadFits d vif (handed d skb)

/-! ## The cipher header -/

section Removal
variable {d : RxDesc} {skb : Bytes}

theorem removal_group (h : d.gaFrame = true) : removeSecHdrMgmtFrame d skb = pure skb := if_pos h

/-- Only the reads of the frame control field, or also those of both headers. -/
theorem removal_within (h : d.gaFrame = false) :
    Within skb.length (removeSecHdrMgmtFrame d skb) ↔
      1 ≤ skb.length ∧ (isMgmt (fc0 skb) = true → 2 ≤ skb.length ∧
        (isProtected (fc1 skb) = true → d.cipher = .ccmp128 → 32 ≤ skb.length)) := by
  unfold removeSecHdrMgmtFrame
  rw [if_neg (by rw [h]; exact Bool.false_ne_true), within_fetch_list 0]
  refine and_congr_right fun _ => ?_
  change Within _ (if !isMgmt (fc0 skb) then _ else _) ↔ _
  cases isMgmt (fc0 skb) with
  | false => exact iff_of_true (within_pure _ _) fun hno => absurd hno Bool.false_ne_true
  | true =>
    simp only [Bool.not_true, Bool.false_eq_true, if_false, true_implies]
    rw [within_fetch_list 0]
    refine and_congr_right fun _ => ?_
    change Within _ (if !isProtected (fc1 skb) then _ else _) ↔ _
    cases isProtected (fc1 skb) with
    | false => exact iff_of_true (within_pure _ _) fun hno => absurd hno Bool.false_ne_true
    | true =>
      simp only [Bool.not_true, Bool.false_eq_true, if_false, true_implies]
      split_ifs with hcipher
      · exact iff_of_true (within_pure _ _) fun hccmp => absurd hccmp hcipher
      · have hccmp : d.cipher = .ccmp128 := not_not.mp hcipher
        rw [within_bind, within_fetchRange]
        constructor
        · rintro ⟨hheader, hrest⟩ _
          have hread := hrest _ (congrArg Reading.value (fetchRange_inside (by omega)))
          rw [within_bind, within_fetchRange] at hread
          omega
        · intro hlong
          have hlen := hlong hccmp
          refine ⟨by omega, fun hdr _ => ?_⟩
          rw [within_bind, within_fetchRange]
          exact ⟨by omega, fun _ _ => within_pure _ _⟩

theorem removal_value (hread : Within skb.length (removeSecHdrMgmtFrame d skb)) :
    (removeSecHdrMgmtFrame d skb).value = some (handed d skb) := by
  by_cases hga : d.gaFrame = true
  · rw [removal_group hga, handed, if_neg fun h => Bool.false_ne_true (h.1.symm.trans hga)]
    rfl
  have hga : d.gaFrame = false := Bool.eq_false_iff.mpr hga
  obtain ⟨hfirst, hmgmt⟩ := (removal_within hga).mp hread
  rw [removeSecHdrMgmtFrame, if_neg (by rw [hga]; exact Bool.false_ne_true),
    value_fetch_list 0 hfirst]
  change (if !isMgmt (fc0 skb) then _ else _ : Reading Upcall Bytes).value = _
  by_cases htype : isMgmt (fc0 skb) = true
  · obtain ⟨hsecond, hlong⟩ := hmgmt htype
    rw [if_neg (by simp [htype]), value_fetch_list 0 hsecond]
    change (if !isProtected (fc1 skb) then _ else _ : Reading Upcall Bytes).value = _
    by_cases hprot : isProtected (fc1 skb) = true
    · rw [if_neg (by simp [hprot])]
      by_cases hcipher : d.cipher = .ccmp128
      · have hlen := hlong hprot hcipher
        rw [if_neg (not_not.mpr hcipher), fetchRange_inside (by omega : 0+24 ≤ skb.length),
          value_bind, Option.bind_some, value_bind,
          fetchRange_inside (by omega : 8+24 ≤ skb.length), Option.bind_some, handed,
          if_pos ⟨hga, ⟨htype, hprot⟩, hcipher⟩]
        rfl
      · rw [if_pos hcipher, handed, if_neg fun h => hcipher h.2.2]
        rfl
    · rw [if_pos (by simpa using hprot), handed, if_neg fun h => hprot h.2.1.2]
      rfl
  · rw [if_pos (by simpa using htype), handed, if_neg fun h => htype h.2.1.1]
    rfl

end Removal

/-! ## The upload -/

section Upload
variable {d : RxDesc} {vif : Vif} {s : Bytes}

theorem whole_inside (u : Upcall) (h : u.copies = [whole s]) : u.Inside s.length := by
  intro c hc
  rw [h, List.mem_singleton] at hc
  subst hc
  exact ⟨Int.natCast_nonneg _, by simp [whole]⟩

/-- The kinds of management frames exclude each other. -/
theorem isMgmt_of_kind {fc0 kind : UInt8} (h : (fc0 &&& 0xFC == kind) = true)
    (hkind : kind &&& 0x0C = 0) : isMgmt fc0 = true := by
  have hmask : fc0 &&& 0x0C = (fc0 &&& 0xFC) &&& 0x0C := by
    rw [UInt8.and_assoc]
    rfl
  unfold isMgmt
  rw [hmask, beq_iff_eq.mp h, hkind]
  rfl

theorem rxAction_safe : Safe s.length (Upcall.Inside s.length) (rxAction vif s (fc0 s)) ↔
    (vif.iftype = .station ∧ isAction (fc0 s) = true →
      24 < s.length ∧ (s.getD 24 0 = 6 → 38 ≤ s.length)) := by
  unfold rxAction
  split_ifs with hft
  · rw [safe_fetch_bind 0, forall_prop_of_true hft]
    refine and_congr_right fun _ => ?_
    split_ifs with hcat
    · rw [safe_send, forall_prop_of_true hcat]
      simp only [Upcall.Inside, Upcall.copies, List.forall_mem_cons, Copy.Inside]
      constructor
      · rintro ⟨-, ⟨hpos, -⟩, -⟩
        omega
      · intro h
        exact ⟨by omega, by omega, fun _ hno => absurd hno List.not_mem_nil⟩
    · rw [safe_send]
      exact iff_of_true (whole_inside _ rfl) fun h => absurd h hcat
  · rw [safe_send]
    exact iff_of_true (whole_inside _ rfl) fun h => absurd h hft

theorem rxAction_complete : Complete s.length (rxAction vif s (fc0 s)) := by
  unfold rxAction
  split_ifs with hft
  · refine complete_fetch_bind 24 fun category => ?_
    split_ifs
    · exact complete_send _
    · exact complete_send _
  · exact complete_send _

theorem rxKind_complete : Complete s.length (rxKind d vif s (fc0 s)) := by
  unfold rxKind
  split_ifs
  · exact complete_send _
  · exact complete_send _
  · refine complete_fetch_bind 24 fun low => complete_fetch_bind 25 fun high => ?_
    split_ifs
    · exact complete_send _
    · exact rxAction_complete
  · exact rxAction_complete

theorem rwnxRxMgmt_complete (d : RxDesc) (vif : Vif) (s : Bytes) :
    Complete s.length (rwnxRxMgmt d vif s) := by
  intro h
  obtain ⟨hfirst, hrest⟩ := (within_fetch_list 0 ..).mp h
  obtain ⟨hsecond, hrest⟩ := (within_fetch_list 0 ..).mp hrest
  rw [rwnxRxMgmt, value_fetch_list 0 hfirst, value_fetch_list 0 hsecond]
  split_ifs at hrest ⊢ with herr
  · rfl
  · exact rxKind_complete hrest

theorem kind_ne {fc0 kind other : UInt8} (h : (fc0 &&& 0xFC == kind) = true)
    (hne : kind ≠ other) : ¬ (fc0 &&& 0xFC == other) = true := by
  rw [beq_iff_eq.mp h, beq_iff_eq]
  exact hne

theorem kindFits_beacon (h : isBeacon (fc0 s) = true) : KindFits d vif s ↔
    (vif.iftype = .meshPoint ∧ d.flagsNewPeer = true → 36 ≤ s.length) := by
  have hreason : ¬ (isDeauth (fc0 s) = true ∨ isDisassoc (fc0 s) = true) :=
    fun hr => hr.elim (kind_ne h (by decide)) (kind_ne h (by decide))
  have haction : ¬ isAction (fc0 s) = true := kind_ne h (by decide)
  constructor
  · rintro ⟨hbeacon, -⟩ ⟨hmesh, hnew⟩
    exact hbeacon h hmesh hnew
  · intro hbeacon
    exact ⟨fun _ hmesh hnew => hbeacon ⟨hmesh, hnew⟩, fun hr => absurd hr hreason,
      fun ha => absurd ha haction⟩

theorem kindFits_reason (h : isDeauth (fc0 s) = true ∨ isDisassoc (fc0 s) = true) :
    KindFits d vif s ↔ 26 ≤ s.length := by
  have hbeacon : ¬ isBeacon (fc0 s) = true :=
    h.elim (fun hr => kind_ne hr (by decide)) fun hr => kind_ne hr (by decide)
  have haction : ¬ isAction (fc0 s) = true :=
    h.elim (fun hr => kind_ne hr (by decide)) fun hr => kind_ne hr (by decide)
  exact ⟨fun hfits => hfits.2.1 h,
    fun hlen => ⟨fun hb => absurd hb hbeacon, fun _ => hlen, fun ha => absurd ha haction⟩⟩

theorem kindFits_other (hbeacon : ¬ isBeacon (fc0 s) = true)
    (hreason : ¬ (isDeauth (fc0 s) = true ∨ isDisassoc (fc0 s) = true)) :
    KindFits d vif s ↔
      (isAction (fc0 s) = true → vif.iftype = .station → s.getD 24 0 = 6 → 38 ≤ s.length) :=
  ⟨fun hfits => hfits.2.2,
    fun haction => ⟨fun hb => absurd hb hbeacon, fun hr => absurd hr hreason, haction⟩⟩

theorem rxKind_safe (hlong : isMgmt (fc0 s) = true → 24 < s.length) :
    Safe s.length (Upcall.Inside s.length) (rxKind d vif s (fc0 s)) ↔ KindFits d vif s := by
  unfold rxKind
  by_cases hbeacon : isBeacon (fc0 s) = true
  · rw [if_pos hbeacon, kindFits_beacon hbeacon]
    split_ifs with hmesh
    · rw [safe_send, forall_prop_of_true hmesh]
      simp only [Upcall.Inside, Upcall.copies, List.forall_mem_cons, Copy.Inside]
      constructor
      · rintro ⟨-, ⟨hpos, -⟩, -⟩
        omega
      · intro h
        exact ⟨by omega, by omega, fun _ hno => absurd hno List.not_mem_nil⟩
    · rw [safe_send]
      exact iff_of_true (whole_inside _ rfl) fun h => absurd h hmesh
  rw [if_neg hbeacon]
  by_cases hreason : isDeauth (fc0 s) = true ∨ isDisassoc (fc0 s) = true
  · have haction : ¬ isAction (fc0 s) = true :=
      hreason.elim (fun h => kind_ne h (by decide)) fun h => kind_ne h (by decide)
    have hrest : Safe s.length (Upcall.Inside s.length)
        (if s.getD 25 0 = 0 ∧ (s.getD 24 0 = 6 ∨ s.getD 24 0 = 7) then
          send (.rxUnprotMlmeMgmt (whole s))
        else rxAction vif s (fc0 s)) := by
      split_ifs
      · exact (safe_send _).mpr (whole_inside _ rfl)
      · exact rxAction_safe.mpr fun h => absurd h.2 haction
    rw [if_pos (by simpa using hreason), safe_fetch_bind 0, safe_fetch_bind 0,
      and_iff_left hrest, kindFits_reason hreason]
    omega
  · rw [if_neg (by simpa using hreason), rxAction_safe, kindFits_other hbeacon hreason]
    constructor
    · intro h haction hsta
      exact (h ⟨hsta, haction⟩).2
    · rintro h ⟨hsta, haction⟩
      exact ⟨hlong (isMgmt_of_kind haction (by decide)), h haction hsta⟩

/-- A frame that is not a management frame has none of the kinds. -/
theorem kindFits_of_not_mgmt (h : ¬ isMgmt (fc0 s) = true) : KindFits d vif s := by
  refine ⟨fun hb => ?_, fun hr => ?_, fun ha => ?_⟩
  · exact absurd (isMgmt_of_kind hb (by decide)) h
  · exact hr.elim (fun hd => absurd (isMgmt_of_kind hd (by decide)) h)
      fun hd => absurd (isMgmt_of_kind hd (by decide)) h
  · exact absurd (isMgmt_of_kind ha (by decide)) h

/-- What is read and passed on of the frame lies inside it exactly if its kind has its bytes. -/
theorem rwnxRxMgmt_safe :
    Safe s.length (Upcall.Inside s.length) (rwnxRxMgmt d vif s) ↔ UploadFits d vif s := by
  unfold rwnxRxMgmt UploadFits
  have hread : (0 < s.length ∧ 1 < s.length) ↔ 2 ≤ s.length := by omega
  have hfirst : s.getD 0 0 = fc0 s := rfl
  rw [safe_fetch_bind 0, safe_fetch_bind 0, ← and_assoc, hread, hfirst]
  refine and_congr_right fun _ => ?_
  split_ifs with herr
  · exact iff_of_true (safe_pure ()) fun hlong hshort => by omega
  · by_cases hmgmt : isMgmt (fc0 s) = true
    · have hlen : ¬ (s.length ≤ 24 ∨ 768 < s.length) := fun h => herr ⟨hmgmt, h⟩
      rw [rxKind_safe fun _ => by omega]
      exact ⟨fun h _ _ => h, fun h => h (by omega) (by omega)⟩
    · rw [rxKind_safe fun h => absurd h hmgmt]
      exact iff_of_true (kindFits_of_not_mgmt hmgmt) fun _ _ => kindFits_of_not_mgmt hmgmt

theorem rwnxRxMgmtAny_safe {hw : Hw} {vifs : List Vif} :
    Safe s.length (Upcall.Inside s.length) (rwnxRxMgmtAny hw vifs d s) ↔
      ∀ vif ∈ receivers hw vifs d, UploadFits d vif s := by
  rw [rwnxRxMgmtAny, safe_each fun vif _ => rwnxRxMgmt_complete d vif s]
  exact forall₂_congr fun vif _ => rwnxRxMgmt_safe

end Upload

theorem removal_stripped {d : RxDesc} {skb : Bytes} (hga : d.gaFrame = false)
    (hprot : ProtectedMgmt skb) (hread : Within skb.length (removeSecHdrMgmtFrame d skb))
    (hlen : 32 ≤ skb.length) :
    (removeSecHdrMgmtFrame d skb).value = some (skb.take 24++skb.drop 32) ↔
      d.cipher = .ccmp128 := by
  rw [removal_value hread, handed, Option.some.injEq]
  constructor
  · intro h
    by_contra hcipher
    rw [if_neg fun hall => hcipher hall.2.2] at h
    have hshort := congrArg List.length h
    rw [List.length_append, List.length_take, List.length_drop] at hshort
    omega
  · intro hcipher
    rw [if_pos ⟨hga, hprot, hcipher⟩]

theorem removal_iff {d : RxDesc} {skb : Bytes} :
    (Within skb.length (removeSecHdrMgmtFrame d skb) ∧
      (d.gaFrame = false → ProtectedMgmt skb → d.cipher.headerLen = 8 → 32 ≤ skb.length →
        (removeSecHdrMgmtFrame d skb).value = some (skb.take 24++skb.drop 32))) ↔
      RemovalFits d skb := by
  by_cases hga : d.gaFrame = true
  · have hunicast : ¬ d.gaFrame = false := fun h => Bool.false_ne_true (h.symm.trans hga)
    refine iff_of_true ⟨?_, fun h => absurd h hunicast⟩ fun h => absurd h hunicast
    rw [removal_group hga]
    exact within_pure _ _
  have hga : d.gaFrame = false := Bool.eq_false_iff.mpr hga
  unfold RemovalFits
  rw [forall_prop_of_true hga, forall_prop_of_true hga]
  constructor
  · rintro ⟨hread, hstripped⟩
    obtain ⟨hfirst, hmgmt⟩ := (removal_within hga).mp hread
    refine ⟨hfirst, fun h => (hmgmt h).1, fun hprot hheader => ⟨(hmgmt hprot.1).2 hprot.2, ?_⟩⟩
    intro hlen
    exact (removal_stripped hga hprot hread hlen).mp (hstripped hprot hheader hlen)
  · rintro ⟨hfirst, hsecond, hprotected⟩
    have hread : Within skb.length (removeSecHdrMgmtFrame d skb) := by
      refine (removal_within hga).mpr ⟨hfirst, fun h => ⟨hsecond h, fun hprot hcipher => ?_⟩⟩
      exact (hprotected ⟨h, hprot⟩ (by rw [hcipher]; rfl)).mp hcipher
    refine ⟨hread, fun hprot hheader hlen => ?_⟩
    exact (removal_stripped hga hprot hread hlen).mpr ((hprotected hprot hheader).mpr hlen)

/-- The upload of a frame, by whatever interfaces there are. -/
theorem mgmt_inBounds_iff (hw : Hw) (vifs : List Vif) (d : RxDesc) (skb : Bytes) :
    InBounds hw vifs d skb ↔ Bounded hw vifs d skb := by
  unfold Bounded
  rw [← removal_iff]
  constructor
  · rintro ⟨hread, hupload, hstripped⟩
    exact ⟨⟨hread, hstripped⟩, rwnxRxMgmtAny_safe.mp (hupload _ (removal_value hread))⟩
  · rintro ⟨⟨hread, hstripped⟩, hfits⟩
    refine ⟨hread, fun s hs => ?_, hstripped⟩
    obtain rfl := Option.some.inj ((removal_value hread).symm.trans hs)
    exact rwnxRxMgmtAny_safe.mpr hfits

def station : Vif := ⟨0, .station, true, false⟩

def noVifs : Hw := ⟨fun _ => none, fun _ => ⟨false, 0⟩, 0, [], MsduPool.init⟩

/-- Not protected, for all interfaces that are up. -/
def plain : RxDesc := ⟨false, .unenc, false, 0xFF⟩

/-- An action frame with nothing but the category for fast BSS transition. -/
def bareFtAction : Bytes := 0xD0::List.replicate 23 0++[6]

theorem bareFtAction_outside :
    (rwnxRxMgmtAny noVifs [station] plain bareFtAction).sent = [.ftEvent ⟨32, 6⟩ ⟨38, -13⟩] ∧
      ¬ InBounds noVifs [station] plain bareFtAction := by
  have hsent : (rwnxRxMgmtAny noVifs [station] plain bareFtAction).sent =
      [.ftEvent ⟨32, 6⟩ ⟨38, -13⟩] := rfl
  refine ⟨hsent, fun h => ?_⟩
  have hsafe := (h.upload bareFtAction rfl).sends _ (by rw [hsent]; exact List.mem_cons_self)
  exact absurd (hsafe ⟨38, -13⟩ (by decide)) (by decide)

end AIC.MgmtUpload
