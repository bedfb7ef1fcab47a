import Aic8800.Lib.ElementList
import Aic8800.TdlsFrame

/-!
# The information elements of a TDLS frame

What each writer adds to the frame, the elements this makes, and how their number
compares with the size that was asked for. A setup frame reserves two bytes for each
band and two for the association ID, whether it writes them or not.
-/

set_option autoImplicit false

namespace AIC.TdlsWellFormed
open AIC.TdlsFrame Lib.ReservedArea Lib.ElementList

/-- Cells that are all written, with elements. -/
def Elements (cs : List (Option UInt8)) : Prop := ∃ area : List UInt8, cs = area.map some ∧
  WellFormed area

section
variable (k : Cfg80211) (hw : Hw) (vif : Vif hw) (peer : Bytes 6)

/-- The frame is built, or none is to be built. A frame has written bytes only, elements behind
its fixed fields, and the size that was asked for is not exceeded. -/
def WellBuilt (slack : ℕ) (action : Action) (dialog : UInt8) (initiator : Bool)
    (extra : List UInt8) : Prop :=
  ∃ sent, tdlsSendMgmtPacketData k hw vif peer (some slack) action dialog 0 initiator extra =
      some sent ∧
    ∀ ies skb, sent = .frame ies skb → none ∉ skb.cells ∧ Elements (skb.cells.drop ies) ∧
      skb.len ≤ allocSize hw extra.length

/-- The sum of the sizes before it is cut to an unsigned int. -/
def needed (extraIesLen : ℕ) : ℕ :=
  173+(hw.band2.channels.length+hw.channels5.length)+extraIesLen

/-- The device has channels on both bands and no VHT on the band of the access point, where
that matters, and the sizes do not overflow. A confirm to an unknown station has no elements. -/
def Complete (extra : List UInt8) : Action → Prop
  | .setupRequest | .setupResponse | .discoverRes =>
    needed hw extra.length < 2^32 ∧ hw.band2.channels ≠ [] ∧ hw.channels5 ≠ [] ∧
      vif.sband.vhtCap.vhtSupported = false
  | .setupConfirm =>
    needed hw extra.length < 2^32 ∨ hw.getSta peer = none ∧ 20 ≤ needed hw extra.length % 2^32
  | .teardown | .discoveryRequest => needed hw extra.length < 2^32
  | .other _ => True

end

/-! ## What the writers add -/

variable {as bs : List (Option UInt8)}

theorem Elements.of {area : List UInt8} (h : WellFormed area) : Elements (area.map some) :=
  ⟨area, rfl, h⟩

theorem Elements.nil : Elements [] := .of .nil

theorem Elements.append (ha : Elements as) (hb : Elements bs) : Elements (as++bs) := by
  obtain ⟨xs, rfl, hxs⟩ := ha
  obtain ⟨ys, rfl, hys⟩ := hb
  exact ⟨xs++ys, List.map_append.symm, hxs.append hys⟩

theorem Elements.ite {c : Prop} [Decidable c] (h : c → Elements as) :
    Elements (if c then as else []) := by
  split_ifs with hc
  · exact h hc
  · exact .nil

theorem none_notMem_map (area : List UInt8) : none ∉ area.map some := by simp

theorem Elements.written (h : Elements as) : none ∉ as := by
  obtain ⟨area, rfl, -⟩ := h
  exact none_notMem_map area

section
variable (k : Cfg80211) (hw : Hw) (vif : Vif hw) (peer : Bytes 6)

/-- The two bytes of a band. -/
def slot (channels : List ℕ) : List (Option UInt8) :=
  if 0 < channels.length then (subband k channels).map some else [none, none]

def suppChannels : List (Option UInt8) :=
  [some WLAN_EID_SUPPORTED_CHANNELS, some (UInt8.ofNat (2*subbandCnt hw))]++
    (slot k hw.band2.channels++slot k hw.channels5)

/-- The byte behind the association ID is reserved only. -/
def vhtIes : List (Option UInt8) :=
  (aidIe hw vif).map some++[none]++(vhtCapIe vif.sband.vhtCap).map some

def operClassIes : List UInt8 := (opClass k hw vif).elim [] operClasses

def setupStartIes (action : Action) (initiator : Bool) (extra : List UInt8) :
    List (Option UInt8) :=
  let htCap := vif.sband.htCap
  suppChannels k hw++((extCapab hw).map some++
    ((if action ≠ .discoverRes then (wmmInfoIe 0).map some else [])++
    ((operClassIes k hw vif).map some++
    ((if isSetupOrDiscoverRes action ∧ htCap.htSupported then (htCapIe htCap).map some else [])++
    ((if htCap.htSupported ∧ htCap.cap &&& IEEE80211_HT_CAP_SUP_WIDTH_20_40 ≠ 0 then
        bssCoexIe.map some else [])++
    ((linkIe hw vif peer initiator).map some++
    ((if vif.sband.vhtCap.vhtSupported then vhtIes hw vif else [])++extra.map some)))))))

def setupCfmIes (sta : Sta) (initiator : Bool) (extra : List UInt8) : List (Option UInt8) :=
  let htCap := vif.sband.htCap
  (if sta.qos then (wmmParamIe vif.ap.acm vif.ap.acParam).map some else [])++
    ((if htCap.htSupported ∧ !vif.ap.ht ∧ sta.ht then (htOperIe k hw vif htCap 0).map some else [])++
    ((linkIe hw vif peer initiator).map some++
    ((if vif.sband.vhtCap.vhtSupported ∧ !vif.ap.vht ∧ sta.vht then (vhtOperIe k hw vif).map some
      else [])++extra.map some)))

/-- The elements of the frame with the status 0. -/
def ies (action : Action) (initiator : Bool) (extra : List UInt8) : List (Option UInt8) :=
  match action with
  | .setupRequest | .setupResponse | .discoverRes =>
    sratesIe.map some++(extSratesIe.map some++
      setupStartIes k hw vif peer action initiator extra)
  | .setupConfirm =>
    (hw.getSta peer).elim [] fun sta => setupCfmIes k hw vif peer sta initiator extra
  | .teardown | .discoveryRequest => extra.map some++(linkIe hw vif peer initiator).map some
  | .other _ => []

theorem addSubband_adds (channels : List ℕ) :
    Adds (addSubband k · channels) (slot k channels) := by
  intro skb
  show (put 2 skb).bind (fun reserved => if 0 < channels.length then
    poke skb.len (subband k channels) reserved else some reserved) = _
  unfold slot
  split_ifs
  · exact fill_all (subband k channels) skb
  · exact Option.bind_fun_some (put 2 skb)

theorem tdlsAddSuppChannels_adds : Adds (tdlsAddSuppChannels k hw) (suppChannels k hw) := by
  intro skb
  have hhead : Adds (fill 2 [WLAN_EID_SUPPORTED_CHANNELS])
      [some WLAN_EID_SUPPORTED_CHANNELS, none] := fill_eq (by decide)
  have hbands := (hhead.bind ((addSubband_adds k hw.band2.channels).bind
    (addSubband_adds k hw.channels5))) skb
  have hinside : 1+[UInt8.ofNat (2*subbandCnt hw)].length ≤
      ([some WLAN_EID_SUPPORTED_CHANNELS, none]++
        (slot k hw.band2.channels++slot k hw.channels5)).length := by
    simp only [List.length_append, List.length_cons, List.length_nil]
    omega
  have hpoke := append_poke (a := skb) hinside
  rw [← hbands] at hpoke
  calc tdlsAddSuppChannels k hw skb
    _ = _ := by simp only [tdlsAddSuppChannels, Option.bind_eq_bind, Option.bind_assoc]
    _ = _ := hpoke

theorem tdlsAddOperClasses_adds :
    Adds (tdlsAddOperClasses k hw vif) ((operClassIes k hw vif).map some) := by
  intro skb
  unfold tdlsAddOperClasses operClassIes
  cases opClass k hw vif with
  | none => exact (append_nil skb).symm
  | some op => exact fill_all (operClasses op) skb

theorem linkIe_length (initiator : Bool) : (linkIe hw vif peer initiator).length = 20 := by
  cases initiator <;>
    simp [linkIe, vif.ap.macAddr.property, hw.permAddr.property, peer.property]

theorem htCapIe_length (htCap : HtCap) : (htCapIe htCap).length = 26+2 := by
  simp [htCapIe, le16, htCap.mcs.property]

theorem vhtCapIe_length (vhtCap : VhtCap) : (vhtCapIe vhtCap).length = 14 := by
  simp [vhtCapIe, le32, le16, vhtCap.vhtMcs.property]

theorem wmmParamIe_length (acm : ℕ) (acParams : Fin 4 → ℕ) :
    (wmmParamIe acm acParams).length = 26 := rfl

theorem htOperIe_length (htCap : HtCap) : (htOperIe k hw vif htCap 0).length = 2+22 := by
  simp [htOperIe, le16, htCap.mcs.property]

theorem vhtSegments_length : (vhtSegments k hw vif).length = 3 := by
  unfold vhtSegments
  split <;> rfl

theorem vhtOperIe_length : (vhtOperIe k hw vif).length = 2+5 := by
  simp [vhtOperIe, le16, vhtSegments_length]

theorem tdlsAddVhtIes_adds : Adds (tdlsAddVhtIes hw vif) (vhtIes hw vif) := by
  have hlen : (aidIe hw vif).length ≤ 4 := Nat.le_succ 3
  have haid : Adds (tdlsAddAidIe hw vif) ((aidIe hw vif).map some++[none]) := fill_eq hlen
  exact haid.bind (fill_adds (vhtCapIe_length vif.sband.vhtCap))

theorem addExtraIes_adds {extra : List UInt8} (h : extra.length < 2^32) :
    Adds (addExtraIes · extra) (extra.map some) := by
  intro skb
  dsimp only [addExtraIes]
  split_ifs with hlen
  · rw [Nat.mod_eq_of_lt h]
    exact fill_all extra skb
  · rw [List.length_eq_zero_iff.mp (not_not.mp hlen)]
    exact (append_nil skb).symm

variable (initiator : Bool) {extra : List UInt8} {skb : Skb}

/-- The rates look for room of their own accord. -/
theorem rates_eq (hroom : skb.len+16 ≤ skb.room) :
    (addSratesIe skb >>= addExtSratesIe) =
      append (sratesIe.map some++extSratesIe.map some) skb := by
  have hsrates : addSratesIe skb = append (sratesIe.map some) skb := by
    have htail : ¬ skb.tailroom < 8+2 := by rw [Area.tailroom]; omega
    rw [addSratesIe, if_neg htail]
    exact fill_all sratesIe skb
  rw [← append_append, hsrates]
  show (append (sratesIe.map some) skb).bind addExtSratesIe = _
  cases hfirst : append (sratesIe.map some) skb with
  | none => rfl
  | some first =>
    have hlen : first.len = skb.len+10 := by
      rw [Area.len, append_some hfirst, List.length_append]
      rfl
    have htail : ¬ first.tailroom < exrates+2 := by
      rw [Area.tailroom, hlen, append_room hfirst]
      show ¬ skb.room-(skb.len+10) < 6
      omega
    show addExtSratesIe first = append _ first
    rw [addExtSratesIe, if_neg htail]
    exact fill_all extSratesIe first

theorem tdlsAddSetupStartIes_eq (action : Action) (hextra : extra.length < 2^32)
    (hroom : skb.len+16 ≤ skb.room) :
    tdlsAddSetupStartIes k hw vif peer action initiator extra skb =
      append (sratesIe.map some++(extSratesIe.map some++
        setupStartIes k hw vif peer action initiator extra)) skb := by
  have hrest : Adds _ (setupStartIes k hw vif peer action initiator extra) :=
    (tdlsAddSuppChannels_adds k hw).bind
    ((fill_adds (by rfl : (extCapab hw).length = 7)).bind
    ((Adds.ite (fill_adds (by rfl : (wmmInfoIe 0).length = 9))).bind
    ((tdlsAddOperClasses_adds k hw vif).bind
    ((Adds.ite (fill_adds (htCapIe_length vif.sband.htCap))).bind
    ((Adds.ite (fill_adds (by rfl : bssCoexIe.length = 3))).bind
    ((fill_adds (linkIe_length hw vif peer initiator)).bind
    ((Adds.ite (tdlsAddVhtIes_adds hw vif)).bind (addExtraIes_adds hextra))))))))
  rw [← List.append_assoc, ← append_append, ← rates_eq hroom, ← funext hrest]
  exact (Option.bind_assoc (addSratesIe skb) addExtSratesIe _).symm

theorem tdlsAddSetupCfmIes_eq {sta : Sta} (hsta : hw.getSta peer = some sta)
    (hextra : extra.length < 2^32) :
    tdlsAddSetupCfmIes k hw vif peer initiator extra skb =
      append (setupCfmIes k hw vif peer sta initiator extra) skb := by
  have hall : Adds _ (setupCfmIes k hw vif peer sta initiator extra) :=
    (Adds.ite (fill_adds (wmmParamIe_length vif.ap.acm vif.ap.acParam))).bind
    ((Adds.ite (fill_adds (htOperIe_length k hw vif vif.sband.htCap))).bind
    ((fill_adds (linkIe_length hw vif peer initiator)).bind
    ((Adds.ite (fill_adds (vhtOperIe_length k hw vif))).bind (addExtraIes_adds hextra))))
  unfold tdlsAddSetupCfmIes
  rw [hsta]
  exact hall skb

theorem tdlsAddIes_eq (action : Action) (hextra : extra.length < 2^32)
    (hroom : skb.len+16 ≤ skb.room) :
    tdlsAddIes k hw vif peer action 0 initiator extra skb =
      append (ies k hw vif peer action initiator extra) skb := by
  have hlast : Adds _ (extra.map some++(linkIe hw vif peer initiator).map some) :=
    (addExtraIes_adds hextra).bind (fill_adds (linkIe_length hw vif peer initiator))
  cases action with
  | setupRequest | setupResponse | discoverRes =>
    exact tdlsAddSetupStartIes_eq k hw vif peer initiator _ hextra hroom
  | setupConfirm =>
    show tdlsAddSetupCfmIes k hw vif peer initiator extra skb = _
    unfold ies
    cases hsta : hw.getSta peer with
    | none =>
      unfold tdlsAddSetupCfmIes
      rw [hsta]
      exact (append_nil skb).symm
    | some sta => exact tdlsAddSetupCfmIes_eq k hw vif peer initiator hsta hextra
  | teardown | discoveryRequest => exact hlast skb
  | other code => exact (append_nil skb).symm

/-! ## What they take -/

theorem suppChannels_length : (suppChannels k hw).length = 6 := by
  have hslot (channels : List ℕ) : (slot k channels).length = 2 := by
    unfold slot
    split_ifs <;> rfl
  rw [suppChannels, List.length_append, List.length_append, hslot, hslot]
  rfl

theorem operClassIes_length : (operClassIes k hw vif).length ≤ 4 := by
  unfold operClassIes
  cases opClass k hw vif with
  | none => exact Nat.zero_le 4
  | some op => exact le_rfl

theorem setupStartIes_length (action : Action) :
    (setupStartIes k hw vif peer action initiator extra).length ≤ 95+extra.length := by
  have hoper := operClassIes_length k hw vif
  simp only [setupStartIes, List.length_append, apply_ite List.length, List.length_map,
    suppChannels_length, htCapIe_length, linkIe_length, vhtIes, vhtCapIe_length]
  have hcap : (extCapab hw).length = 7 := rfl
  have hwmm : (wmmInfoIe 0).length = 9 := rfl
  have hcoex : bssCoexIe.length = 3 := rfl
  have haid : (aidIe hw vif).length = 3 := rfl
  simp only [hcap, hwmm, hcoex, haid, List.length_cons, List.length_nil]
  split_ifs <;> omega

theorem setupCfmIes_length (sta : Sta) :
    (setupCfmIes k hw vif peer sta initiator extra).length ≤ 77+extra.length := by
  simp only [setupCfmIes, List.length_append, apply_ite List.length, List.length_map,
    wmmParamIe_length, htOperIe_length, linkIe_length, vhtOperIe_length, List.length_nil]
  split_ifs <;> omega

theorem ies_length (action : Action) :
    (ies k hw vif peer action initiator extra).length ≤ 111+extra.length := by
  cases action with
  | setupRequest | setupResponse | discoverRes =>
    simp only [ies, List.length_append]
    refine (Nat.add_le_add_left (Nat.add_le_add_left
      (setupStartIes_length k hw vif peer initiator _) 6) 10).trans ?_
    omega
  | setupConfirm =>
    unfold ies
    cases hw.getSta peer with
    | none => exact Nat.zero_le _
    | some sta => exact (setupCfmIes_length k hw vif peer initiator sta).trans (by omega)
  | teardown | discoveryRequest =>
    simp only [ies, List.length_append, List.length_map, linkIe_length]
    omega
  | other code => exact Nat.zero_le _

/-! ## The whole frame -/

/-- The fixed fields. -/
def fixed (action : Action) (dialog : UInt8) : List UInt8 :=
  let capab := le16 (getTdlsStaCapab hw vif 0)
  match action with
  | .setupRequest => encapHeader hw peer action++dialog::capab
  | .setupResponse => encapHeader hw peer action++(le16 0++dialog::capab)
  | .setupConfirm => encapHeader hw peer action++(le16 0++[dialog])
  | .teardown => encapHeader hw peer action++le16 0
  | .discoveryRequest => encapHeader hw peer action++[dialog]
  | .discoverRes => mgmtHeader hw vif peer++([4, 14, dialog]++capab)
  | .other _ => []

theorem encapHeader_length (action : Action) : (encapHeader hw peer action).length = 17 := by
  simp [encapHeader, be16, hw.permAddr.property, peer.property]

theorem mgmtHeader_length : (mgmtHeader hw vif peer).length = 24 := by
  simp [mgmtHeader, le16, hw.permAddr.property, peer.property, vif.ap.macAddr.property]

theorem fixed_length (action : Action) (dialog : UInt8) :
    (fixed hw vif peer action dialog).length ≤ 29 := by
  cases action <;> simp [fixed, encapHeader_length, mgmtHeader_length, le16]

theorem prepare_eq {action : Action} (h : ∀ code, action ≠ .other code) (dialog : UInt8)
    (skb : Skb) : prepare hw vif peer action dialog 0 skb =
      (append ((fixed hw vif peer action dialog).map some) skb).map (0, ·) := by
  have hfill {vs ws : List UInt8} {m n : ℕ} (hv : vs.length = m) (hw : ws.length = n) :
      (fill m vs skb).bind (fun skb => (fill n ws skb).map ((0 : ℤ), ·)) =
        (append ((vs++ws).map some) skb).map (0, ·) := by
    rw [List.map_append, ← (fill_adds hv).bind (fill_adds hw) skb]
    exact (Option.map_bind ..).symm
  cases action with
  | other code => exact absurd rfl (h code)
  | discoverRes => exact hfill (mgmtHeader_length hw vif peer) rfl
  | _ => exact hfill (encapHeader_length hw peer _) rfl

theorem send_eq {action : Action} (h : ∀ code, action ≠ .other code) (dialog : UInt8)
    (slack : ℕ) (extra : List UInt8) :
    tdlsSendMgmtPacketData k hw vif peer (some slack) action dialog 0 initiator extra =
      (append ((fixed hw vif peer action dialog).map some)
        (empty (allocSize hw extra.length+slack))).bind fun head =>
          (tdlsAddIes k hw vif peer action 0 initiator extra head).map (Sent.frame head.len) := by
  simp only [tdlsSendMgmtPacketData, prepare_eq hw vif peer h]
  cases append ((fixed hw vif peer action dialog).map some)
    (empty (allocSize hw extra.length+slack)) with
  | none => rfl
  | some head => exact Option.map_eq_bind.symm

/-- A frame that is built stands between its header and what is added to it. -/
theorem wellBuilt_known {action : Action} (h : ∀ code, action ≠ .other code) {dialog : UInt8}
    {slack : ℕ} (extra : List UInt8) : WellBuilt k hw vif peer slack action dialog initiator extra ↔
      ∃ head sent, append ((fixed hw vif peer action dialog).map some)
          (empty (allocSize hw extra.length+slack)) = some head ∧
        tdlsAddIes k hw vif peer action 0 initiator extra head = some sent ∧
        none ∉ sent.cells ∧ Elements (sent.cells.drop head.len) ∧
          sent.len ≤ allocSize hw extra.length := by
  unfold WellBuilt
  rw [send_eq k hw vif peer initiator h]
  constructor
  · rintro ⟨res, hres, hgood⟩
    obtain ⟨head, hhead, hadd⟩ := Option.bind_eq_some_iff.mp hres
    obtain ⟨sent, hsent, rfl⟩ := Option.map_eq_some_iff.mp hadd
    exact ⟨head, sent, hhead, hsent, hgood _ _ rfl⟩
  · rintro ⟨head, sent, hhead, hsent, hgood⟩
    refine ⟨.frame head.len sent, ?_, ?_⟩
    · rw [hhead, Option.bind_some, hsent]
      rfl
    · intro start skb heq
      obtain ⟨rfl, rfl⟩ := Sent.frame.inj heq
      exact hgood

/-- Extra elements are copied into the frame. -/
theorem addExtraIes_grown (extra : List UInt8) (skb : Skb) :
    Grown extra.length (addExtraIes skb extra) := by
  intro sent h
  unfold addExtraIes at h
  split_ifs at h with hlen
  · exact (Nat.le_add_left _ _).trans (fill_len h)
  · rw [not_not.mp hlen]
    exact Nat.zero_le _

theorem tdlsAddIes_grown {action : Action} (h : ∀ code, action ≠ .other code)
    (hsta : action = .setupConfirm → hw.getSta peer ≠ none) :
    Grown extra.length (tdlsAddIes k hw vif peer action 0 initiator extra skb) := by
  have hextra := addExtraIes_grown extra
  cases action with
  | other code => exact absurd rfl (h code)
  | setupRequest | setupResponse | discoverRes =>
    simp only [tdlsAddIes, if_true, tdlsAddSetupStartIes]
    exact .bind fun _ => .bind fun _ => .bind fun _ => .bind fun _ => .bind fun _ =>
      .bind fun _ => .bind fun _ => .bind fun _ => .bind fun _ => .bind hextra
  | setupConfirm =>
    obtain ⟨sta, hget⟩ := Option.ne_none_iff_exists'.mp (hsta rfl)
    simp only [tdlsAddIes, if_true, tdlsAddSetupCfmIes, hget]
    exact .bind fun _ => .bind fun _ => .bind fun _ => .bind hextra
  | teardown | discoveryRequest =>
    intro sent hadd
    obtain ⟨mid, hmid, hlink⟩ := Option.bind_eq_some_iff.mp hadd
    exact (hextra _ _ hmid).trans ((Nat.le_add_right _ _).trans (fill_len hlink))

/-! ## Whether the elements are complete -/

theorem suppChannels_written (h : none ∉ suppChannels k hw) :
    hw.band2.channels ≠ [] ∧ hw.channels5 ≠ [] := by
  have hslot {channels : List ℕ} (hnone : none ∉ slot k channels) : channels ≠ [] := by
    rintro rfl
    exact hnone List.mem_cons_self
  simp only [suppChannels, List.mem_append, not_or] at h
  exact ⟨hslot h.2.1, hslot h.2.2⟩

theorem elements_suppChannels (h2 : hw.band2.channels ≠ []) (h5 : hw.channels5 ≠ []) :
    Elements (suppChannels k hw) := by
  have hpos2 := List.length_pos_iff.mpr h2
  have hpos5 := List.length_pos_iff.mpr h5
  have hcnt : subbandCnt hw = 2 := by rw [subbandCnt, if_pos hpos2, if_pos hpos5]
  have hwf : WellFormed (WLAN_EID_SUPPORTED_CHANNELS::4::
      (subband k hw.band2.channels++subband k hw.channels5)) := .element rfl
  rw [suppChannels, slot, if_pos hpos2, slot, if_pos hpos5, hcnt]
  exact .of hwf

theorem elements_extCapab : Elements ((extCapab hw).map some) := .of (.element rfl)

theorem elements_link : Elements ((linkIe hw vif peer initiator).map some) :=
  .of (.whole rfl (linkIe_length hw vif peer initiator))

theorem elements_operClassIes : Elements ((operClassIes k hw vif).map some) := by
  unfold operClassIes
  cases opClass k hw vif with
  | none => exact .nil
  | some op => exact .of (.element rfl)

theorem setupStartIes_written {action : Action}
    (h : none ∉ setupStartIes k hw vif peer action initiator extra) :
    hw.band2.channels ≠ [] ∧ hw.channels5 ≠ [] ∧ vif.sband.vhtCap.vhtSupported = false := by
  simp only [setupStartIes, List.mem_append, not_or] at h
  obtain ⟨hchannels, -, -, -, -, -, -, hvht, -⟩ := h
  obtain ⟨h2, h5⟩ := suppChannels_written k hw hchannels
  refine ⟨h2, h5, Bool.eq_false_iff.mpr fun hsupp => hvht ?_⟩
  rw [if_pos hsupp]
  exact List.mem_append_left _ (List.mem_append_right _ List.mem_cons_self)

theorem elements_setupStartIes (action : Action) (hextra : WellFormed extra)
    (h2 : hw.band2.channels ≠ []) (h5 : hw.channels5 ≠ [])
    (hvht : vif.sband.vhtCap.vhtSupported = false) :
    Elements (setupStartIes k hw vif peer action initiator extra) := by
  rw [setupStartIes, hvht, if_neg Bool.false_ne_true]
  exact (elements_suppChannels k hw h2 h5).append
    ((elements_extCapab hw).append
    ((Elements.ite fun _ => .of (.element rfl)).append
    ((elements_operClassIes k hw vif).append
    ((Elements.ite fun _ => .of (.whole rfl (htCapIe_length vif.sband.htCap))).append
    ((Elements.ite fun _ => .of (.element rfl)).append
    ((elements_link hw vif peer initiator).append (Elements.nil.append (.of hextra))))))))

theorem elements_setupCfmIes (sta : Sta) (hextra : WellFormed extra) :
    Elements (setupCfmIes k hw vif peer sta initiator extra) :=
  (Elements.ite fun _ => .of (.element rfl)).append
    ((Elements.ite fun _ => .of (.whole rfl
      (htOperIe_length k hw vif vif.sband.htCap))).append
    ((elements_link hw vif peer initiator).append
    ((Elements.ite fun _ => .of (.whole rfl
      (vhtOperIe_length k hw vif))).append (.of hextra))))

theorem elements_ies_iff {action : Action} (hextra : WellFormed extra) :
    Elements (ies k hw vif peer action initiator extra) ↔
      (isSetupOrDiscoverRes action = true → hw.band2.channels ≠ [] ∧ hw.channels5 ≠ [] ∧
        vif.sband.vhtCap.vhtSupported = false) := by
  have hrates : Elements (sratesIe.map some) := .of (.element rfl)
  have hextRates : Elements (extSratesIe.map some) := .of (.element rfl)
  cases action with
  | setupRequest | setupResponse | discoverRes =>
    constructor
    · intro h _
      have hnone := h.written
      simp only [ies, List.mem_append, not_or] at hnone
      exact setupStartIes_written k hw vif peer initiator hnone.2.2
    · intro h
      obtain ⟨h2, h5, hvht⟩ := h rfl
      exact hrates.append (hextRates.append
        (elements_setupStartIes k hw vif peer initiator _ hextra h2 h5 hvht))
  | setupConfirm =>
    refine iff_of_true ?_ fun h => absurd h Bool.false_ne_true
    unfold ies
    cases hw.getSta peer with
    | none => exact .nil
    | some sta => exact elements_setupCfmIes k hw vif peer initiator sta hextra
  | teardown | discoveryRequest =>
    exact iff_of_true ((Elements.of hextra).append (elements_link hw vif peer initiator))
      fun h => absurd h Bool.false_ne_true
  | other code => exact iff_of_true .nil fun h => absurd h Bool.false_ne_true

/-! ## The size -/

theorem allocSize_eq (n : ℕ) : allocSize hw n = needed hw n % 2^32 := by
  unfold allocSize needed
  congr 1
  omega

variable {dialog : UInt8} {slack : ℕ}

theorem head_of_room {header : List UInt8} {room : ℕ} (h : header.length ≤ room) :
    ∃ head : Skb, append (header.map some) (empty room) = some head ∧
      head.cells = header.map some ∧ head.len = header.length ∧ head.room = room := by
  have hroom : (empty room : Skb).len+(header.map some).length ≤ room := by
    rw [List.length_map]
    exact (Nat.zero_add _).trans_le h
  obtain ⟨head, hhead⟩ := Option.isSome_iff_exists.mp (append_of_room hroom)
  have hcells : head.cells = header.map some := append_some hhead
  exact ⟨head, hhead, hcells, by rw [Area.len, hcells, List.length_map], append_room hhead⟩

theorem wellBuilt_fitting {action : Action} (h : ∀ code, action ≠ .other code)
    (hn : needed hw extra.length < 2^32) :
    WellBuilt k hw vif peer slack action dialog initiator extra ↔
      Elements (ies k hw vif peer action initiator extra) := by
  have hsize : allocSize hw extra.length = needed hw extra.length := by
    rw [allocSize_eq, Nat.mod_eq_of_lt hn]
  have hneeded : 173+extra.length ≤ needed hw extra.length := by
    unfold needed
    omega
  have hfixed := fixed_length hw vif peer action dialog
  obtain ⟨head, hhead, hcells, hlen, hroom⟩ :=
    head_of_room (show (fixed hw vif peer action dialog).length ≤ allocSize hw extra.length+slack
      by omega)
  have hadd : tdlsAddIes k hw vif peer action 0 initiator extra head = _ :=
    tdlsAddIes_eq k hw vif peer initiator action (by omega) (by omega)
  have hies : (ies k hw vif peer action initiator extra).length ≤ 111+extra.length :=
    ies_length k hw vif peer initiator action
  have hbehind : head.len+(ies k hw vif peer action initiator extra).length ≤ head.room := by
    omega
  obtain ⟨sent, hsent⟩ := Option.isSome_iff_exists.mp (append_of_room hbehind)
  have hall := append_some hsent
  have hdrop : sent.cells.drop head.len = ies k hw vif peer action initiator extra := by
    rw [hall, Area.len, List.drop_left]
  rw [wellBuilt_known k hw vif peer initiator h]
  constructor
  · rintro ⟨head', sent', hhead', hsent', -, helements, -⟩
    obtain rfl := Option.some.inj (hhead.symm.trans hhead')
    obtain rfl := Option.some.inj (hsent.symm.trans (hadd.symm.trans hsent'))
    rwa [hdrop] at helements
  · intro helements
    refine ⟨head, sent, hhead, hadd.trans hsent, ?_, hdrop ▸ helements, ?_⟩
    · rw [hall, hcells, List.mem_append, not_or]
      exact ⟨none_notMem_map _, helements.written⟩
    · rw [Area.len, hall, List.length_append]
      rw [Area.len] at hlen
      omega

theorem tdlsAddIes_unknown (hsta : hw.getSta peer = none) :
    tdlsAddIes k hw vif peer .setupConfirm 0 initiator extra skb = some skb := by
  simp only [tdlsAddIes, if_true, tdlsAddSetupCfmIes, hsta]
  rfl

/-- If the sizes overflow, what was asked for is less than the extra elements. -/
theorem wellBuilt_overflow {action : Action} (h : ∀ code, action ≠ .other code)
    (hn : 2^32 ≤ needed hw extra.length) :
    WellBuilt k hw vif peer slack action dialog initiator extra ↔
      action = .setupConfirm ∧ hw.getSta peer = none ∧ 20 ≤ allocSize hw extra.length := by
  have hsmall : allocSize hw extra.length < extra.length := by
    have hint := hw.channels_int
    rw [allocSize_eq]
    unfold needed Hw.channels5 at hn ⊢
    omega
  have hcfm : (fixed hw vif peer .setupConfirm dialog).length = 20 := by
    simp only [fixed, List.length_append, encapHeader_length]
    rfl
  rw [wellBuilt_known k hw vif peer initiator h]
  constructor
  · rintro ⟨head, sent, hhead, hsent, -, -, hle⟩
    have hunknown : action = .setupConfirm ∧ hw.getSta peer = none := by
      by_contra hknown
      have hgrown := tdlsAddIes_grown k hw vif peer initiator h
        (fun hact hsta => hknown ⟨hact, hsta⟩) sent hsent
      omega
    obtain ⟨rfl, hsta⟩ := hunknown
    rw [tdlsAddIes_unknown k hw vif peer initiator hsta] at hsent
    have hlen : sent.len = 20 := by
      rw [← Option.some.inj hsent, Area.len, append_some hhead, List.length_append,
        List.length_map, hcfm]
      rfl
    exact ⟨rfl, hsta, hlen ▸ hle⟩
  · rintro ⟨rfl, hsta, hle⟩
    obtain ⟨head, hhead, hcells, hlen, -⟩ :=
      head_of_room (hcfm.trans_le (show 20 ≤ allocSize hw extra.length+slack by omega))
    refine ⟨head, head, hhead, tdlsAddIes_unknown k hw vif peer initiator hsta, ?_, ?_, ?_⟩
    · rw [hcells]
      exact none_notMem_map _
    · rw [Area.len, List.drop_length]
      exact .nil
    · rw [hlen, hcfm]
      exact hle

variable (slack dialog)

theorem complete_of_fitting {action : Action} (hn : needed hw extra.length < 2^32) :
    Complete hw vif peer extra action ↔
      (isSetupOrDiscoverRes action = true → hw.band2.channels ≠ [] ∧ hw.channels5 ≠ [] ∧
        vif.sband.vhtCap.vhtSupported = false) := by
  cases action with
  | setupRequest | setupResponse | discoverRes => exact ⟨fun hc _ => hc.2, fun hr => ⟨hn, hr rfl⟩⟩
  | setupConfirm => exact iff_of_true (.inl hn) fun h => absurd h Bool.false_ne_true
  | teardown | discoveryRequest => exact iff_of_true hn fun h => absurd h Bool.false_ne_true
  | other code => exact iff_of_true trivial fun h => absurd h Bool.false_ne_true

theorem complete_of_overflow {action : Action} (h : ∀ code, action ≠ .other code)
    (hn : 2^32 ≤ needed hw extra.length) :
    Complete hw vif peer extra action ↔
      action = .setupConfirm ∧ hw.getSta peer = none ∧ 20 ≤ allocSize hw extra.length := by
  have hnot := Nat.not_lt.mpr hn
  rw [allocSize_eq]
  cases action with
  | other code => exact absurd rfl (h code)
  | setupConfirm => exact ⟨fun hc => hc.elim (absurd · hnot) (⟨rfl, ·⟩), fun hr => .inr hr.2⟩
  | setupRequest | setupResponse | discoverRes =>
    exact ⟨fun hc => absurd hc.1 hnot, fun hr => nomatch hr.1⟩
  | teardown | discoveryRequest => exact ⟨fun hc => absurd hc hnot, fun hr => nomatch hr.1⟩

/-- A frame is well built exactly if it is complete. -/
theorem wellBuilt_iff (action : Action) (hextra : WellFormed extra) :
    WellBuilt k hw vif peer slack action dialog initiator extra ↔
      Complete hw vif peer extra action := by
  by_cases h : ∀ code, action ≠ .other code
  · rcases Nat.lt_or_ge (needed hw extra.length) (2^32) with hn | hn
    · rw [wellBuilt_fitting k hw vif peer initiator h hn, complete_of_fitting hw vif peer hn]
      exact elements_ies_iff k hw vif peer initiator hextra
    · rw [wellBuilt_overflow k hw vif peer initiator h hn,
        complete_of_overflow hw vif peer h hn]
  · obtain ⟨code, hcode⟩ := not_forall.mp h
    obtain rfl := not_not.mp hcode
    exact iff_of_true ⟨.refused (-ENOTSUPP), rfl, nofun⟩ trivial

end

def sampleCfg : Cfg80211 where
  frequencyToChannel freq := if freq < 2484 then (freq-2407)/5 else (freq-5000)/5
  chandefToOperatingClass chandef := if chandef.centerFreq < 2484 then some 81 else some 115

def sampleBand (channels : List ℕ) (vht : Bool) : SupportedBand where
  channels := channels
  htCap := ⟨true, 0x2, 3, 5, ⟨List.replicate 16 0xff, rfl⟩⟩
  vhtCap := ⟨vht, 0x30, ⟨List.replicate 8 0xaa, rfl⟩⟩

/-- A device with or without the 5 GHz band. -/
def sampleHw (vht : Bool) (channels5 : Option (List ℕ))
    (hint : 2+(channels5.getD []).length < 2^31) : Hw where
  permAddr := ⟨[0, 1, 2, 3, 4, 5], rfl⟩
  band2 := sampleBand [2412, 2417] vht
  band5 := channels5.map (sampleBand · vht)
  tdlsChannelSwitch := false
  mcsMap := 0xfffe
  staTable := []
  channels_int := by cases channels5 <;> exact hint

def sampleVif (vht : Bool) (channels5 : Option (List ℕ))
    (hint : 2+(channels5.getD []).length < 2^31) : Vif (sampleHw vht channels5 hint) where
  ap := ⟨true, .ghz2, .w20, 2412, 2412, 0, true, 0, ⟨[6, 7, 8, 9, 10, 11], rfl⟩, true, false,
    fun _ => 0xa43, 1⟩
  on_band := rfl

def samplePeer : Bytes 6 := ⟨[12, 13, 14, 15, 16, 17], rfl⟩

theorem wellBuilt_iff_two_bands : WellFormed [221, 1, 0] ∧
    WellBuilt sampleCfg (sampleHw false (some [5180]) (by decide))
      (sampleVif false (some [5180]) (by decide)) samplePeer 64 .setupRequest 1 true [221, 1, 0] :=
  ⟨by decide, (wellBuilt_iff sampleCfg _ _ samplePeer true 1 64 .setupRequest (by decide)).mpr
    ⟨by decide, List.cons_ne_nil _ _, List.cons_ne_nil _ _, rfl⟩⟩

/-- Without a 5 GHz band two bytes are not written, and with VHT one is not. -/
theorem one_band_or_vht : WellFormed [] ∧
    ¬ WellBuilt sampleCfg (sampleHw false none (by decide)) (sampleVif false none (by decide))
      samplePeer 64 .setupRequest 1 true [] ∧
    ¬ WellBuilt sampleCfg (sampleHw true (some [5180]) (by decide))
      (sampleVif true (some [5180]) (by decide)) samplePeer 64 .setupRequest 1 true [] := by
  have hknown (code : UInt8) : Action.setupRequest ≠ .other code := nofun
  refine ⟨.nil, fun hone => ?_, fun hvht => ?_⟩
  · have helements := (wellBuilt_fitting sampleCfg _ _ samplePeer true hknown (by decide)).mp hone
    exact absurd ((elements_ies_iff sampleCfg _ _ samplePeer true .nil).mp helements rfl).2.1
      (not_not.mpr rfl)
  · have helements := (wellBuilt_fitting sampleCfg _ _ samplePeer true hknown (by decide)).mp hvht
    exact Bool.noConfusion
      ((elements_ies_iff sampleCfg _ _ samplePeer true .nil).mp helements rfl).2.2

end AIC.TdlsWellFormed
