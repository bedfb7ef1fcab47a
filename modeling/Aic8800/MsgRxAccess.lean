import Aic8800.MsgRx

/-!
# The indexes taken from a message

The dispatch of a message stays inside the tables exactly for the messages of
the tasks that have handlers, and each handler inside its tables under a
condition on the parameters, the interfaces and the channels of the device.
-/

set_option autoImplicit false

namespace AIC.MsgRxAccess
open AIC.MsgRx Lib.TableAccess
open AIC.RxDataInd (NlIftype NX_VIRT_DEV_MAX)
open AIC.RxDataAccess (NX_REMOTE_STA_MAX)

/-- The `MAX` of the messages of a task; none for a task without handlers. -/
def taskMax : ℕ → ℕ
  | 0 => 135
  | 1 => 33
  | 3 => 9
  | 4 => 12
  | 5 => 23
  | 6 => 13
  | 7 => 10
  | 9 => 16
  | _ => 0

def VifKnown (idx : ℕ) : Prop := idx < NX_VIRT_DEV_MAX+NX_REMOTE_STA_MAX

def StaKnown (idx : ℕ) : Prop := idx < NX_REMOTE_STA_MAX+NX_VIRT_DEV_MAX

/-- The channel behind the last entry of `survey` has another frequency, or one that comes before. -/
def SurveyFits (hw : Hw) (freq : ℕ) : Prop :=
  (channels hw)[SCAN_CHANNEL_MAX]? = some freq → freq ∈ (channels hw).take SCAN_CHANNEL_MAX

/-- The new next hop of a mesh path is kept. -/
def KeepsNextHop (hw : Hw) (kmalloc delete : Bool) (vifIdx pathIdx : ℕ) : Prop :=
  delete = false ∧ ∃ vif ∈ hw.vifTable vifIdx, vif.iftype = .meshPoint ∧
    (pathIdx ∈ vif.mpathList ∨ kmalloc = true)

section Conditions
variable (hw : Hw) (kmalloc : Bool) (m : IpcE2aMsg)

/-- What each handler needs. The others compare the index, or have none. -/
def Fits : Handler → Prop
  | .channelSurveyInd => SurveyFits hw (m.u16 0)
  | .trafficReqInd | .meTxCreditsUpdateInd => StaKnown (m.u8 0)
  | .p2pVifPsChangeInd | .rssiStatusInd | .pktlossNotifyInd | .smExternalAuthRequiredInd =>
    VifKnown (m.u8 0)
  | .meTkipMicFailureInd => VifKnown (m.u8 18)
  | .smConnectInd => VifKnown (m.u8 9) ∧
    ((hw.vifTable (m.u8 9)).isSome = true → m.u16 0 = 0 → StaKnown (m.u8 10))
  | .smDisconnectInd | .meshProxyUpdateInd => VifKnown (m.u8 2)
  | .meshPathCreateCfm | .meshPeerUpdateInd => VifKnown (m.u8 1)
  | .meshPathUpdateInd => VifKnown (m.u8 2) ∧
    (KeepsNextHop hw kmalloc (m.flag 0) (m.u8 2) (m.u8 3) → StaKnown (m.u8 16))
  | _ => True

end Conditions

/-! ## The dispatch -/

theorem hdlrs_length (n : ℕ) (entries : List (ℕ × Handler)) : (hdlrs n entries).length = n := by
  rw [hdlrs, List.length_map, List.length_range]

theorem taskHdlrs_length (task : ℕ) : (taskHdlrs task).length = taskMax task := by
  unfold taskHdlrs
  by_cases h : task < 10
  · interval_cases task <;> first | exact hdlrs_length _ _ | rfl
  · have hnone : msgHdlrs[task]? = none := List.getElem?_eq_none (by simpa [msgHdlrs] using h)
    rw [hnone, taskMax]
    · rfl
    all_goals omega

theorem taskMax_pos {task : ℕ} (h : 0 < taskMax task) : task < msgHdlrs.length := by
  by_contra hge
  have hnone : msgHdlrs[task]? = none := List.getElem?_eq_none (not_lt.mp hge)
  rw [← taskHdlrs_length, taskHdlrs, hnone] at h
  exact absurd h (by decide)

theorem dispatchAccess_inRange {m : IpcE2aMsg} :
    InRange Table.size (dispatchAccess m) ↔ m.msgI < taskMax m.msgT := by
  unfold dispatchAccess
  simp only [inRange_cons, inRange_nil, and_true, Table.size, taskHdlrs_length]
  exact ⟨And.right, fun h => ⟨taskMax_pos (by omega), h⟩⟩

/-! ## The handlers -/

theorem chanctxAccess_inRange (chIdx : ℕ) : InRange Table.size (chanctxAccess chIdx) := by
  unfold chanctxAccess
  simp only [inRange_else, inRange_cons, inRange_nil, and_true, Table.size, not_le, imp_self]

theorem psChangeAccess_inRange (staIdx : ℕ) : InRange Table.size (psChangeAccess staIdx) := by
  unfold psChangeAccess
  simp only [inRange_else, inRange_cons, inRange_nil, and_true, Table.size, not_le, imp_self]

theorem csaFinishAccess_inRange (hw : Hw) (vifIdx status chanIdx : ℕ) :
    InRange Table.size (csaFinishAccess hw vifIdx status chanIdx) := by
  unfold csaFinishAccess
  cases hw.vifs.find? (fun vif => vif.vifIndex == vifIdx) with
  | none => exact inRange_nil
  | some vif =>
    simp only [inRange_else, inRange_append, inRange_ite, chanctxAccess_inRange, implies_true,
      and_self]

/-- The comparison lets the index through that is one too large. -/
theorem channelSurveyAccess_inRange {hw : Hw} {freq : ℕ} :
    InRange Table.size (channelSurveyAccess hw freq) ↔ SurveyFits hw freq := by
  unfold channelSurveyAccess SurveyFits freqToIdx
  cases hidx : (channels hw).findIdx? (· == freq) with
  | none =>
    refine iff_of_true inRange_nil fun hlast => ?_
    have hno := List.findIdx?_eq_none_iff.mp hidx freq (List.mem_of_getElem? hlast)
    simp at hno
  | some idx =>
    obtain ⟨hlt, hfreq, hfirst⟩ := List.findIdx?_eq_some_iff_getElem.mp hidx
    simp only [beq_iff_eq] at hfreq hfirst
    simp only [inRange_else, inRange_cons, inRange_nil, and_true, Table.size, not_lt]
    constructor
    · intro h hlast
      have hle : idx ≤ SCAN_CHANNEL_MAX := by
        by_contra hgt
        rw [List.getElem?_eq_getElem (by omega), Option.some.injEq] at hlast
        exact hfirst SCAN_CHANNEL_MAX (by omega) hlast
      exact List.mem_take_iff_getElem.mpr ⟨idx, by have := h hle; omega, hfreq⟩
    · intro h hle
      by_contra hge
      obtain rfl : idx = SCAN_CHANNEL_MAX := by omega
      obtain ⟨j, hj, hmem⟩ := List.mem_take_iff_getElem.mp
        (h (by rw [List.getElem?_eq_getElem hlt, hfreq]))
      exact hfirst j (by omega) hmem

/-- Only the extra channels reach behind the last entry. -/
theorem surveyFits_standard {hw : Hw} {band5gSupport : Bool}
    (h : hw.bands = wiphyBands false band5gSupport) (freq : ℕ) : SurveyFits hw freq := by
  have hlength : (channels hw).length ≤ SCAN_CHANNEL_MAX := by
    rw [channels, h]
    cases band5gSupport <;> decide
  intro hlast
  rw [List.getElem?_eq_none hlength] at hlast
  cases hlast

theorem smConnectAccess_inRange {hw : Hw} {statusCode vifIdx apIdx chIdx : ℕ} {roamed : Bool} :
    InRange Table.size (smConnectAccess hw statusCode vifIdx apIdx chIdx roamed) ↔
      VifKnown vifIdx ∧
        ((hw.vifTable vifIdx).isSome = true → statusCode = 0 → StaKnown apIdx) := by
  unfold smConnectAccess VifKnown StaKnown
  rw [inRange_cons]
  apply and_congr_right
  intro _
  cases hw.vifTable vifIdx with
  | none => simp
  | some vif =>
    simp only [inRange_ite, inRange_cons, inRange_append, chanctxAccess_inRange, implies_true,
      and_true, Table.size, Option.isSome_some, true_imp_iff]

theorem meshPeerUpdateAccess_inRange {hw : Hw} {estab : Bool} {vifIdx staIdx : ℕ} :
    InRange Table.size (meshPeerUpdateAccess hw estab vifIdx staIdx) ↔ VifKnown vifIdx := by
  unfold meshPeerUpdateAccess VifKnown
  rw [inRange_cons]
  refine and_iff_left ?_
  rw [inRange_else, not_or, not_le, not_le]
  intro hidx
  cases hw.vifTable vifIdx with
  | none => exact inRange_nil
  | some vif =>
    simp only [inRange_else, inRange_cons, inRange_nil, and_true, Table.size]
    omega

theorem meshPathUpdateAccess_inRange {hw : Hw} {kmalloc delete : Bool}
    {vifIdx pathIdx nhopStaIdx : ℕ} :
    InRange Table.size (meshPathUpdateAccess hw kmalloc delete vifIdx pathIdx nhopStaIdx) ↔
      VifKnown vifIdx ∧ (KeepsNextHop hw kmalloc delete vifIdx pathIdx → StaKnown nhopStaIdx) := by
  unfold meshPathUpdateAccess VifKnown StaKnown KeepsNextHop
  rw [inRange_cons, inRange_else, not_le]
  apply and_congr_right
  intro hidx
  have hknown : vifIdx < NX_VIRT_DEV_MAX+NX_REMOTE_STA_MAX := hidx
  rw [imp_iff_right hknown]
  cases hw.vifTable vifIdx with
  | none => simp
  | some vif =>
    simp only [inRange_else, inRange_ite, inRange_cons, inRange_nil, and_true, Table.size, not_or,
      ne_eq, not_not, Bool.not_eq_true, Option.mem_def, Option.some.injEq, exists_eq_left', and_imp]
    exact forall_comm

theorem access_inRange {hw : Hw} {kmalloc : Bool} {m : IpcE2aMsg} (h : Handler) :
    InRange Table.size (h.access hw kmalloc m) ↔ Fits hw kmalloc m h := by
  cases h with
  | chanSwitchInd => exact iff_of_true (chanctxAccess_inRange _) trivial
  | psChangeInd => exact iff_of_true (psChangeAccess_inRange _) trivial
  | csaFinishInd => exact iff_of_true (csaFinishAccess_inRange _ _ _ _) trivial
  | channelSurveyInd => exact channelSurveyAccess_inRange
  | smConnectInd => exact smConnectAccess_inRange
  | meshPeerUpdateInd => exact meshPeerUpdateAccess_inRange
  | meshPathUpdateInd => exact meshPathUpdateAccess_inRange
  | _ => simp [Handler.access, Fits, VifKnown, StaKnown, Table.size]

/-! ## The message -/

/-- The tables have an entry for the message, and the handler it names, if any, keeps inside its
tables. -/
def InTables (hw : Hw) (kmalloc : Bool) (m : IpcE2aMsg) : Prop :=
  InRange Table.size (dispatchAccess m) ∧
    ∀ h ∈ handlerOf m, h.group ≠ .other → InRange Table.size (h.access hw kmalloc m)

instance (hw : Hw) (kmalloc : Bool) (m : IpcE2aMsg) : Decidable (InTables hw kmalloc m) :=
  inferInstanceAs (Decidable (_ ∧ ∀ h ∈ handlerOf m, h.group ≠ .other →
    InRange Table.size (h.access hw kmalloc m)))

theorem inTables_iff (hw : Hw) (kmalloc : Bool) (m : IpcE2aMsg) :
    InTables hw kmalloc m ↔ m.msgI < taskMax m.msgT ∧
      ∀ h ∈ handlerOf m, h.group ≠ .other → Fits hw kmalloc m h := by
  unfold InTables
  simp only [dispatchAccess_inRange, access_inRange]

/-! ## Messages out of range -/

def sampleHw : Hw where
  bands := wiphyBands true true
  vifTable := fun i => if i = 0 then some ⟨0, .station, 0xFF, false, []⟩
    else if i = 1 then some ⟨1, .meshPoint, 0, false, []⟩ else none
  vifs := []
  curChanctx := 0
  monitorVif := 0xFF

def sampleMsg (id : UInt16) (param : List UInt8) : IpcE2aMsg := ⟨id, fun i => param.getD i 0⟩

/-- A task past the table, one with a NULL entry, a message number past that of its task; a survey
of the 43rd channel; a traffic request for station 36; a connection of interface 36 and one with
station 36; a power save change of a P2P interface 36; a mesh peer of interface 36; a mesh path
over station 36. -/
theorem messages_past_tables :
    ¬ InTables sampleHw true (sampleMsg 0x2800 []) ∧
    ¬ InTables sampleHw true (sampleMsg 0x0800 []) ∧
    ¬ InTables sampleHw true (sampleMsg 135 []) ∧
    ¬ InTables sampleHw true (sampleMsg 79 [0x08, 0x16]) ∧
    ¬ InTables sampleHw true (sampleMsg 74 [36]) ∧
    ¬ InTables sampleHw true (sampleMsg 0x1802 [0, 0, 0, 0, 0, 0, 0, 0, 0, 36]) ∧
    ¬ InTables sampleHw true (sampleMsg 0x1802 [0, 0, 0, 0, 0, 0, 0, 0, 0, 0, 36]) ∧
    ¬ InTables sampleHw true (sampleMsg 77 [36]) ∧
    ¬ InTables sampleHw true (sampleMsg 0x240D [1, 36, 0]) ∧
    ¬ InTables sampleHw true
      (sampleMsg 0x240E [0, 0, 1, 0, 2, 2, 2, 2, 2, 2, 0, 0, 0, 0, 0, 0, 36]) := by
  decide +kernel

end AIC.MsgRxAccess
