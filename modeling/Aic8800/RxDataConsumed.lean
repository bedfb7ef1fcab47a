import Aic8800.RxDataAmsdu

/-!
# Consumed once

The paths of `rwnx_rxdataind_aicwf` put together: the exact condition on the
descriptor, the frame, the tables, the contexts and the allocations under which
the buffer passed is consumed once.
-/

set_option autoImplicit false

namespace AIC.RxDataConsumed
open AIC.ReorderMachine AIC.MsduPool AIC.RxDataInd AIC.RxDataOwnership AIC.RxDataAmsdu Lib.LoopRun
open AIC.DefragMachine (RxFrame DefragCtrlInfo Outcome findDefrag)

/-! ## The frame behind the hardware header -/

section Upload
variable {hw : Hw} {env : Env} {hdr : HwRxhdr} {k : ℕ} {f : RxFrame}

/-- A management frame is always freed. -/
def WholeOk (hw : Hw) (env : Env) (hdr : HwRxhdr) (f : RxFrame) : Prop :=
  f.flagsIs80211Mpdu = true ∨ DeliverOk hw env hdr f

def isFragment (f : RxFrame) : Bool := !f.flagsNeedReord && (f.moreFrag || f.fragNum != 0)

/-- `skb_put` has room for the body, whose length is not negative. -/
def Appends (room : ℕ) (c : DefragCtrlInfo) (f : RxFrame) : Prop :=
  f.pullLen-8 ≤ f.skb.len ∧ c.skb.length+f.body.length ≤ room

/-- A fragment that continues a context fits into its buffer, and the last one completes it for an
interface that takes it; a first one fits into a new buffer. -/
def FragmentOk (hw : Hw) (env : Env) (hdr : HwRxhdr) (f : RxFrame) : Prop :=
  match findDefrag f hw.defragList with
  | some c => c.nextFn = f.fragNum → Appends env.defragRoom c f ∧
    (f.moreFrag = false →
      ∀ vif ∈ getVif hw hdr.flagsVifIdx, ¬ SplitFails hdr vif (env.amsduTo8023s 0))
  | none =>
    if f.moreFrag then env.defragAlloc = true → f.ethernet.length ≤ env.defragRoom
    else WholeOk hw env hdr f

def UploadOk (hw : Hw) (env : Env) (hdr : HwRxhdr) (f : RxFrame) : Prop :=
  if f.isData && f.isAmsdu then
    AmsduFits hw env hdr 0 (subframes (skbPull (f.pullLen-8) f.skb).len
      (skbPull (f.pullLen-8) f.skb))
  else if f.isData && isFragment f then FragmentOk hw env hdr f
  else WholeOk hw env hdr f

/-- The fragment path decides in favour of `P`. -/
def Decides (hw : Hw) (k : ℕ) (P : Prop) (o : Option Result) : Prop :=
  (P → Consumes hw k o) ∧ (¬ P → Drops hw o)

theorem decides_freed {P : Prop} (h : P) (cs : List DefragCtrlInfo) :
    Decides hw k P (some ({ hw with defragList := cs }, [(k, .freed)])) :=
  ⟨fun _ => ⟨_, rfl, List.perm_append_singleton k (held hw)⟩, fun hno => absurd h hno⟩

theorem decides_none {P : Prop} (h : ¬ P) : Decides hw k P none :=
  ⟨fun hp => absurd hp h, fun _ => drops_none hw⟩

theorem decides_map {α : Type} {P : Prop} {o : Option α} {r : Result} (hnone : o = none → ¬ P)
    (hsome : o ≠ none → Decides hw k P (some r)) : Decides hw k P (o.map fun _ => r) := by
  cases o with
  | none => exact decides_none (hnone rfl)
  | some a => exact hsome (Option.some_ne_none a)

theorem finish_whole (bytes : List UInt8) :
    Decides hw k (WholeOk hw env hdr f)
      (finish hw env hdr k f (⟨hw.defragList, false⟩,
        DefragMachine.deliver (getVif hw hdr.flagsVifIdx).isSome f bytes)) := by
  unfold finish DefragMachine.deliver
  cases hmgmt : f.flagsIs80211Mpdu with
  | true => exact decides_freed (.inl hmgmt) hw.defragList
  | false =>
    have hwhole : WholeOk hw env hdr f ↔ DeliverOk hw env hdr f := by simp [WholeOk, hmgmt]
    cases hvif : getVif hw hdr.flagsVifIdx with
    | none =>
      have hok : DeliverOk hw env hdr f := by simp [DeliverOk, hvif]
      exact decides_freed (hwhole.mpr hok) hw.defragList
    | some vif =>
      unfold Decides
      rw [hwhole]
      exact deliver_ok

theorem finish_fragment (hfrag : (f.isData && isFragment f) = true) (hno : f.isAmsdu = false) :
    Decides hw k (FragmentOk hw env hdr f)
      (finish hw env hdr k f
        (DefragMachine.rwnxRxdataind env.defragRoom ⟨hw.defragList, false⟩ f env.defragAlloc
          (getVif hw hdr.flagsVifIdx).isSome)) := by
  simp only [Bool.and_eq_true] at hfrag
  have hpath : (!f.flagsNeedReord && (f.moreFrag || f.fragNum != 0)) = true := hfrag.2
  unfold DefragMachine.rwnxRxdataind FragmentOk
  rw [if_pos hfrag.1, hno, if_neg Bool.false_ne_true, if_pos hpath]
  unfold DefragMachine.moreFragment DefragMachine.lastFragment
  dsimp only
  cases hfind : findDefrag f hw.defragList with
  | none =>
    dsimp only
    cases hmore : f.moreFrag with
    | false =>
      simp only [Bool.false_eq_true, if_false]
      exact finish_whole f.ethernet
    | true =>
      simp only [if_true]
      cases halloc : env.defragAlloc with
      | false => exact decides_freed (by simp) hw.defragList
      | true =>
        simp only [Bool.not_true, Bool.false_eq_true, if_false, forall_const]
        unfold DefragCtrlInfo.start
        by_cases hroom : f.ethernet.length ≤ env.defragRoom
        · rw [if_neg (not_lt.mpr hroom)]
          exact decides_freed hroom _
        · rw [if_pos (not_le.mp hroom)]
          exact decides_none hroom
  | some c =>
    dsimp only
    by_cases hnum : c.nextFn = f.fragNum
    · have hskip : ¬ c.nextFn ≠ f.fragNum := not_not.mpr hnum
      by_cases happ : Appends env.defragRoom c f
      · have hshort : ¬ f.skb.len < f.pullLen-8 := not_lt.mpr happ.1
        have hfull : ¬ env.defragRoom < c.skb.length+f.body.length := not_lt.mpr happ.2
        simp only [if_neg hskip, DefragCtrlInfo.append, if_neg hshort, if_neg hfull]
        cases hmore : f.moreFrag with
        | true => exact decides_freed (fun _ => ⟨happ, by simp⟩) _
        | false =>
          cases hvif : getVif hw hdr.flagsVifIdx with
          | none => exact decides_freed (fun _ => ⟨happ, by simp⟩) _
          | some vif =>
            simp only [Option.isSome_some, if_true, Bool.false_eq_true, if_false, finish, hvif]
            apply decides_map
            · intro hdata h
              exact (h hnum).2 trivial vif rfl (rxDataOrFree_none.mp hdata)
            · intro hdata
              refine decides_freed (fun _ => ⟨happ, fun _ v hv => ?_⟩) _
              rw [← Option.some.inj hv]
              exact rxDataOrFree_none.not.mp hdata
      · have hbad : c.append env.defragRoom f = none := by
          unfold DefragCtrlInfo.append
          by_cases hshort : f.skb.len < f.pullLen-8
          · rw [if_pos hshort]
          · have hfull : env.defragRoom < c.skb.length+f.body.length := by
              by_contra hle
              exact happ ⟨not_lt.mp hshort, not_lt.mp hle⟩
            rw [if_neg hshort, if_pos hfull]
        simp only [if_neg hskip, hbad]
        cases f.moreFrag <;> exact decides_none fun h => happ (h hnum).1
    · simp only [ne_eq, hnum, not_false_eq_true, if_true]
      cases f.moreFrag <;> exact decides_freed (fun h => h.elim) hw.defragList

/-- Without a fragment the frame goes on as it is. -/
theorem rwnxRxdataind_whole (hw : Hw) (env : Env) (hdr : HwRxhdr)
    (hamsdu : ¬ (f.isData && f.isAmsdu) = true) (hfrag : ¬ (f.isData && isFragment f) = true) :
    ∃ bytes, DefragMachine.rwnxRxdataind env.defragRoom ⟨hw.defragList, false⟩ f env.defragAlloc
      (getVif hw hdr.flagsVifIdx).isSome = (⟨hw.defragList, false⟩,
        DefragMachine.deliver (getVif hw hdr.flagsVifIdx).isSome f bytes) := by
  unfold DefragMachine.rwnxRxdataind
  cases hdata : f.isData with
  | false => exact ⟨f.skb.bytes, rfl⟩
  | true =>
    have hno : f.isAmsdu = false := by simpa [hdata] using hamsdu
    have hpath : ¬ (!f.flagsNeedReord && (f.moreFrag || f.fragNum != 0)) = true := by
      simpa [hdata, isFragment] using hfrag
    rw [if_pos rfl, hno, if_neg Bool.false_ne_true, if_neg hpath]
    exact ⟨f.ethernet, rfl⟩

theorem upload_consumes (h : UploadOk hw env hdr f) :
    ∃ fuel, Consumes hw k (uploadPath fuel hw env hdr k f) := by
  unfold UploadOk at h
  unfold uploadPath
  by_cases hamsdu : (f.isData && f.isAmsdu) = true
  · rw [if_pos hamsdu] at h
    obtain ⟨out, hends⟩ := amsdu_ends (Nat.le_refl _) h
    obtain ⟨fuel, hloop⟩ := loop_of_ends hends
    refine ⟨fuel, ?_⟩
    rw [if_pos hamsdu, hloop]
    exact consumes_single hw k .freed
  · rw [if_neg hamsdu] at h
    refine ⟨0, ?_⟩
    rw [if_neg hamsdu]
    by_cases hfrag : (f.isData && isFragment f) = true
    · rw [if_pos hfrag] at h
      have hno : f.isAmsdu = false := by
        simp only [Bool.and_eq_true] at hfrag
        simpa [hfrag.1] using hamsdu
      exact (finish_fragment hfrag hno).1 h
    · rw [if_neg hfrag] at h
      have hwhole := rwnxRxdataind_whole hw env hdr hamsdu hfrag
      obtain ⟨bytes, hbytes⟩ := hwhole
      rw [hbytes]
      exact (finish_whole bytes).1 h

theorem upload_drops (h : ¬ UploadOk hw env hdr f) (fuel : ℕ) :
    Drops hw (uploadPath fuel hw env hdr k f) := by
  unfold UploadOk at h
  unfold uploadPath
  by_cases hamsdu : (f.isData && f.isAmsdu) = true
  · rw [if_pos hamsdu] at h ⊢
    cases hloop : loop (amsduTurn hw env hdr) fuel 0 (skbPull (f.pullLen-8) f.skb) with
    | mk res out =>
      cases res with
      | none => exact drops_none hw
      | some res =>
        cases res with
        | false => exact drops_none hw
        | true => exact absurd (amsduFits_of_ends (ends_of_loop hloop) rfl _) h
  · rw [if_neg hamsdu] at h ⊢
    by_cases hfrag : (f.isData && isFragment f) = true
    · rw [if_pos hfrag] at h
      have hno : f.isAmsdu = false := by
        simp only [Bool.and_eq_true] at hfrag
        simpa [hfrag.1] using hamsdu
      exact (finish_fragment hfrag hno).2 h
    · rw [if_neg hfrag] at h
      obtain ⟨bytes, hbytes⟩ := rwnxRxdataind_whole hw env hdr hamsdu hfrag
      rw [hbytes]
      exact (finish_whole bytes).2 h

end Upload

/-! ## The function -/

section Function
variable {hw : Hw} {env : Env} {hdr : HwRxhdr} {k : ℕ} {skb : SkBuff}

/-- The call returns with enough fuel, and the buffer is freed once, handed up once or on one
pending list. -/
def ConsumedOnce (hw : Hw) (env : Env) (hdr : HwRxhdr) (k : ℕ) (skb : SkBuff) : Prop :=
  ∃ fuel r, rwnxRxdataindAicwf fuel hw env hdr k skb = some r ∧ (placed r).count k = 1

/-- The monitor path ends the call. -/
def monitored (hw : Hw) (hdr : HwRxhdr) : Bool :=
  hdr.isMonitorVif && !hdr.flagsUpload && (getVif hw hw.monitorVif).isSome

/-- What the rest of the function takes the buffer for: the monitor path has set its length. -/
def monitorSkb (hw : Hw) (hdr : HwRxhdr) (skb : SkBuff) : SkBuff :=
  if hdr.isMonitorVif && (getVif hw hw.monitorVif).isSome then { skb with len := hdr.len } else skb

def Consumable (hw : Hw) (env : Env) (hdr : HwRxhdr) (skb : SkBuff) : Prop :=
  if monitored hw hdr then
    if env.headroom then hdr.len ≤ env.tailroom else env.copyExpand = true
  else hdr.flagsUpload = true ∧
    UploadOk hw env hdr (frameOf hdr (skbPull (MSDU_OFFSET+2) (monitorSkb hw hdr skb)))

theorem consumable_plain (hmon : monitored hw hdr = false) {f : RxFrame}
    (hf : f = frameOf hdr (skbPull (MSDU_OFFSET+2) (monitorSkb hw hdr skb)))
    (hamsdu : ¬ (f.isData && f.isAmsdu) = true) (hfrag : ¬ (f.isData && isFragment f) = true) :
    Consumable hw env hdr skb ↔ hdr.flagsUpload = true ∧ WholeOk hw env hdr f := by
  unfold Consumable UploadOk
  rw [hmon, if_neg Bool.false_ne_true, ← hf, if_neg hamsdu, if_neg hfrag]

theorem consumable_amsdu (hmon : monitored hw hdr = false) {f : RxFrame}
    (hf : f = frameOf hdr (skbPull (MSDU_OFFSET+2) (monitorSkb hw hdr skb)))
    (hamsdu : (f.isData && f.isAmsdu) = true) :
    Consumable hw env hdr skb ↔ hdr.flagsUpload = true ∧
      AmsduFits hw env hdr 0 (subframes (skbPull (f.pullLen-8) f.skb).len
        (skbPull (f.pullLen-8) f.skb)) := by
  unfold Consumable UploadOk
  rw [hmon, if_neg Bool.false_ne_true, ← hf, if_pos hamsdu]

theorem monitorPath_on (h : monitored hw hdr = false) :
    monitorPath hw env hdr skb = .on (monitorSkb hw hdr skb) := by
  unfold monitorPath monitorSkb
  unfold monitored at h
  cases hmon : hdr.isMonitorVif with
  | false => rfl
  | true =>
    cases hvif : getVif hw hw.monitorVif with
    | none => rfl
    | some vif =>
      have hup : hdr.flagsUpload = true := by simpa [hmon, hvif] using h
      simp only [hup, Bool.not_true, Bool.false_eq_true, if_false, Option.isSome_some,
        Bool.and_self, if_true]

theorem monitorPath_end (env : Env) (skb : SkBuff) (h : monitored hw hdr = true) :
    (if env.headroom then hdr.len ≤ env.tailroom else env.copyExpand = true) ∧
        (∃ u, monitorPath hw env hdr skb = .done u) ∨
      ¬ (if env.headroom then hdr.len ≤ env.tailroom else env.copyExpand = true) ∧
        monitorPath hw env hdr skb = .oops := by
  simp only [monitored, Bool.and_eq_true, Bool.not_eq_true'] at h
  obtain ⟨⟨hmon, hup⟩, hsome⟩ := h
  obtain ⟨vif, hvif⟩ := Option.isSome_iff_exists.mp hsome
  unfold monitorPath
  simp only [hmon, hup, hvif, Bool.not_true, Bool.false_eq_true, if_false]
  cases env.headroom with
  | true =>
    by_cases hroom : hdr.len ≤ env.tailroom
    · exact .inl ⟨hroom, _, by rw [if_pos rfl, if_neg (not_lt.mpr hroom)]⟩
    · exact .inr ⟨hroom, by rw [if_pos rfl, if_pos (not_le.mp hroom)]⟩
  | false =>
    cases env.copyExpand with
    | true => exact .inl ⟨rfl, _, rfl⟩
    | false => exact .inr ⟨by simp, rfl⟩

theorem consumable_consumes (h : Consumable hw env hdr skb) :
    ∃ fuel, Consumes hw k (rwnxRxdataindAicwf fuel hw env hdr k skb) := by
  unfold Consumable at h
  unfold rwnxRxdataindAicwf
  cases hmon : monitored hw hdr with
  | true =>
    rw [hmon, if_pos rfl] at h
    rcases monitorPath_end env skb hmon with ⟨-, u, hu⟩ | ⟨hno, -⟩
    · rw [hu]
      exact ⟨0, consumes_single hw k u⟩
    · exact absurd h hno
  | false =>
    rw [hmon, if_neg Bool.false_ne_true] at h
    obtain ⟨fuel, hfuel⟩ := upload_consumes h.2
    refine ⟨fuel, ?_⟩
    rw [monitorPath_on hmon]
    dsimp only
    rw [if_pos h.1]
    exact hfuel

theorem not_consumable_drops (h : ¬ Consumable hw env hdr skb) (fuel : ℕ) :
    Drops hw (rwnxRxdataindAicwf fuel hw env hdr k skb) := by
  unfold Consumable at h
  unfold rwnxRxdataindAicwf
  cases hmon : monitored hw hdr with
  | true =>
    rw [hmon, if_pos rfl] at h
    rcases monitorPath_end env skb hmon with ⟨hok, -⟩ | ⟨-, hoops⟩
    · exact absurd hok h
    · rw [hoops]
      exact drops_none hw
  | false =>
    rw [hmon, if_neg Bool.false_ne_true] at h
    rw [monitorPath_on hmon]
    dsimp only
    by_cases hup : hdr.flagsUpload = true
    · rw [if_pos hup]
      exact upload_drops (fun hok => h ⟨hup, hok⟩) fuel
    · rw [if_neg hup]
      intro r hr
      obtain rfl := Option.some.inj hr
      rw [placed, List.map_nil, List.append_nil]

/-- The exact condition for a buffer that is on no list before the call. -/
theorem consumed_once_iff (hnew : k ∉ held hw) :
    ConsumedOnce hw env hdr k skb ↔ Consumable hw env hdr skb := by
  constructor
  · rintro ⟨fuel, hcount⟩
    by_contra h
    exact (not_consumable_drops h fuel).count hnew hcount
  · intro h
    obtain ⟨fuel, hfuel⟩ := consumable_consumes h
    exact ⟨fuel, hfuel.count hnew⟩

end Function

/-! ## Inputs -/

def sampleHw (t : NlIftype) : Hw where
  vifTable := fun i => if i = 0 then some ⟨0, t, true, false⟩ else none
  staTable := fun _ => ⟨true, 0⟩
  monitorVif := 0xFF
  defragList := []
  pool := MsduPool.init

def sampleEnv : Env where
  headroom := true
  tailroom := 2000
  copyExpand := true
  subAlloc := fun _ => true
  amsduTo8023s := fun _ => .reused 0 false
  defragAlloc := true
  defragRoom := 2000
  kmalloc := true

def sampleHdr (upload : Bool) (dstIdx : ℕ) : HwRxhdr where
  isMonitorVif := false
  flagsUpload := upload
  flagsIs80211Mpdu := false
  flagsIsAmsdu := false
  flagsNeedReord := false
  flagsVifIdx := 0
  flagsStaIdx := RWNX_INVALID_STA
  flagsDstIdx := dstIdx
  decrStatus := 0
  len := 0

def sampleSkb (frame : List UInt8) : SkBuff := SkBuff.ofList (List.replicate 60 0++frame)

/-- A data frame without QoS field for a unicast address. -/
def plainFrame : List UInt8 :=
  0x08::0x01::List.replicate 20 2++[0, 0]++List.replicate 40 2

/-- An A-MSDU of one sub-frame of seven bytes with one byte of padding. -/
def paddedAmsdu : List UInt8 :=
  0x88::0x01::List.replicate 22 2++[0x80, 0]++List.replicate 12 2++[0, 7]++List.replicate 8 2

theorem sampleHw_held (t : NlIftype) : 0 ∉ held (sampleHw t) := by
  simp [held, sampleHw, MsduPool.init, listed]

theorem sampleHw_vif (t : NlIftype) (hdr : HwRxhdr) (h0 : hdr.flagsVifIdx = 0)
    (hsta : hdr.flagsStaIdx = RWNX_INVALID_STA) :
    (getVif (sampleHw t) hdr.flagsVifIdx).bind (vlanVif (sampleHw t) hdr) =
      some ⟨0, t, true, false⟩ := by
  rw [h0, show getVif (sampleHw t) 0 = some ⟨0, t, true, false⟩ from rfl, Option.bind_some,
    vlanVif, if_pos hsta]

theorem consumed_once_station :
    ConsumedOnce (sampleHw .station) sampleEnv (sampleHdr true RWNX_INVALID_STA) 0
      (sampleSkb plainFrame) := by
  apply (consumed_once_iff (sampleHw_held _)).mpr
  refine (consumable_plain rfl rfl (by decide +kernel) (by decide +kernel)).mpr ⟨rfl, .inr ?_⟩
  unfold DeliverOk
  rw [sampleHw_vif .station _ rfl rfl]
  intro hqos
  exact absurd hqos (by decide +kernel)

/-- A frame without `flags_upload`; one that an access point only sends on; one on an interface
without a branch; an A-MSDU with too little padding. -/
theorem frame_lost :
    ¬ ConsumedOnce (sampleHw .station) sampleEnv (sampleHdr false RWNX_INVALID_STA) 0
      (sampleSkb plainFrame) ∧
    ¬ ConsumedOnce (sampleHw .ap) sampleEnv (sampleHdr true 1) 0 (sampleSkb plainFrame) ∧
    ¬ ConsumedOnce (sampleHw .meshPoint) sampleEnv (sampleHdr true 1) 0 (sampleSkb plainFrame) ∧
    ¬ ConsumedOnce (sampleHw .station) sampleEnv (sampleHdr true RWNX_INVALID_STA) 0
      (sampleSkb paddedAmsdu) := by
  have hlost : ∀ t hdr skb, ¬ Consumable (sampleHw t) sampleEnv hdr skb →
      ¬ ConsumedOnce (sampleHw t) sampleEnv hdr 0 skb := by
    rintro t hdr skb h ⟨fuel, hcount⟩
    exact (not_consumable_drops h fuel).count (sampleHw_held t) hcount
  refine ⟨hlost _ _ _ ?_, hlost _ _ _ ?_, hlost _ _ _ ?_, hlost _ _ _ ?_⟩
  · intro h
    have hup := ((consumable_plain rfl rfl (by decide +kernel) (by decide +kernel)).mp h).1
    cases hup
  · intro h
    have hwhole := ((consumable_plain rfl rfl (by decide +kernel) (by decide +kernel)).mp h).2
    rcases hwhole with hmgmt | hdeliver
    · cases hmgmt
    · unfold DeliverOk at hdeliver
      rw [sampleHw_vif .ap _ rfl rfl] at hdeliver
      have hhanded := hdeliver.2
      revert hhanded
      decide +kernel
  · intro h
    have hwhole := ((consumable_plain rfl rfl (by decide +kernel) (by decide +kernel)).mp h).2
    rcases hwhole with hmgmt | hdeliver
    · cases hmgmt
    · unfold DeliverOk at hdeliver
      rw [sampleHw_vif .meshPoint _ rfl rfl] at hdeliver
      exact hdeliver
  · intro h
    have hfits := ((consumable_amsdu rfl rfl (by decide +kernel)).mp h).2
    unfold AmsduFits at hfits
    have hvif : getVif (sampleHw .station) (sampleHdr true RWNX_INVALID_STA).flagsVifIdx =
        some ⟨0, .station, true, false⟩ := rfl
    rw [hvif] at hfits
    have hadvances := (hfits 0 _ (subframes_head (by decide +kernel) (by decide +kernel))).2.1.2
    revert hadvances
    decide +kernel

end AIC.RxDataConsumed
