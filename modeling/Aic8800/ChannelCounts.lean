import Aic8800.ChannelMachine

/-!
# What a channel context counts

A link adds one to the count of its context and does not look at the context the
interface had. So the count is right as long as only interfaces without a context
are linked, and each link of another leaves one too many behind.
-/

set_option autoImplicit false

namespace AIC.ChannelCounts
open AIC.ChannelContext AIC.ChannelMachine Lib.GuardedRun Lib.Tally

def vifs : List VifId := List.finRange _

/-- The interfaces whose `ch_index` is `i`. -/
def links (hw : Hw) (i : ℕ) : ℕ := tally Vif.chIndex (fun _ => 1) vifs hw.vif i

structure Counted (hw : Hw) : Prop where
  count : ∀ i < NX_CHAN_CTXT_CNT, (hw.chanctxTable i).count = links hw i
  released : ∀ i < NX_CHAN_CTXT_CNT,
    (hw.chanctxTable i).count = 0 → (hw.chanctxTable i).chanDef.chan = none
  unwarned : hw.warned = false

/-- A link of `v` does nothing, or `v` has no context yet. -/
def Free (hw : Hw) (v : VifId) (chIdx : ℕ) : Prop :=
  NX_CHAN_CTXT_CNT ≤ chIdx ∨ (hw.vif v).chIndex = RWNX_CH_NOT_SET

/-- The indication is of a new peer of a mesh point that leaves the peering to the firmware. -/
def NewPeer (hw : Hw) (v : VifId) (staIdx : ℕ) (estab : Bool) : Prop :=
  (hw.vif v).iftype = .meshPoint ∧ staIdx < NX_REMOTE_STA_MAX ∧ (hw.vif v).userMpm = false ∧
    estab = true ∧ hw.staValid staIdx = false

def LinksFree (hw : Hw) : Act → Prop
  | .connectInd v statusCode chIdx _ => statusCode = 0 → Free hw v chIdx
  | .startApCfm v status chIdx _ => status = CO_OK → Free hw v chIdx
  | .joinMeshCfm v status chIdx _ _ => status = CO_OK → Free hw v chIdx
  | .meshPeerUpdateInd v staIdx estab => NewPeer hw v staIdx estab → Free hw v (hw.vif v).chIndex
  | .startCacCfm status chIdx => status = CO_OK →
    match hw.rtnl with
    | .startCac v _ => Free hw v chIdx
    | _ => True
  | _ => True

instance (hw : Hw) (v : VifId) (chIdx : ℕ) : Decidable (Free hw v chIdx) :=
  inferInstanceAs (Decidable (_ ∨ _))

instance (hw : Hw) (v : VifId) (staIdx : ℕ) (estab : Bool) :
    Decidable (NewPeer hw v staIdx estab) := inferInstanceAs (Decidable (_ ∧ _))

def decideStartCac (hw : Hw) (chIdx : ℕ) : ∀ r : Rtnl, Decidable (match r with
    | .startCac v _ => Free hw v chIdx
    | _ => True)
  | .startCac v _ => inferInstanceAs (Decidable (Free hw v chIdx))
  | .idle | .monitor _ | .cancel _ _ | .leaving _ _ => inferInstanceAs (Decidable True)

instance (hw : Hw) : ∀ a, Decidable (LinksFree hw a)
  | .connectInd .. | .startApCfm .. | .joinMeshCfm .. => inferInstanceAs (Decidable (_ = _ → _))
  | .meshPeerUpdateInd .. => inferInstanceAs (Decidable (NewPeer .. → _))
  | .startCacCfm _ chIdx =>
    have := decideStartCac hw chIdx hw.rtnl
    inferInstanceAs (Decidable (_ = _ → _))
  | .disconnectInd .. | .csaFinishInd .. | .csaFinish .. | .chanSwitchInd .. | .fire | .work
  | .openVif .. | .setMonitorChannel .. | .monitorCfm .. | .startRadarDetection .. | .close ..
  | .stopAp .. | .leaveMesh .. | .cancelCfm | .left .. => inferInstanceAs (Decidable True)

/-! ## One interface more or less -/

theorem links_setVif (hw : Hw) (v : VifId) (x : Vif) (i : ℕ) :
    links (hw.setVif v x) i+(if (hw.vif v).chIndex = i then 1 else 0) =
      links hw i+(if x.chIndex = i then 1 else 0) :=
  tally_put (List.nodup_finRange _) (List.mem_finRange v)

theorem links_le (hw : Hw) (i : ℕ) : links hw i ≤ 36 := by
  have h : links hw i ≤ vifs.length*1 := tally_le fun _ _ => Nat.le_refl 1
  rwa [vifs, List.length_finRange] at h

theorem links_pos (hw : Hw) (v : VifId) : 0 < links hw (hw.vif v).chIndex := by
  have hle : share Vif.chIndex (fun _ => 1) (hw.vif v).chIndex (hw.vif v) ≤
      links hw (hw.vif v).chIndex := share_le_tally (List.mem_finRange v)
  rwa [share_eq rfl] at hle

/-- The counts are too high by `e`. -/
structure Ledger (hw : Hw) (e : ℕ → ℕ) : Prop where
  count : ∀ i < NX_CHAN_CTXT_CNT, (hw.chanctxTable i).count = links hw i+e i
  released : ∀ i < NX_CHAN_CTXT_CNT,
    (hw.chanctxTable i).count = 0 → (hw.chanctxTable i).chanDef.chan = none
  unwarned : hw.warned = false
  known : ∀ v, (hw.vif v).chIndex = RWNX_CH_NOT_SET ∨ (hw.vif v).chIndex < NX_CHAN_CTXT_CNT

section Ledger
variable {hw t : Hw} {e : ℕ → ℕ} {v : VifId} {i : ℕ} {d : Option Chandef}

theorem Ledger.counted (h : Ledger hw e) (he : ∀ i < NX_CHAN_CTXT_CNT, e i = 0) : Counted hw where
  count i hi := by rw [h.count i hi, he i hi, Nat.add_zero]
  released := h.released
  unwarned := h.unwarned

theorem Ledger.exact (h : Ledger hw e) (hc : Counted hw) (i : ℕ) (hi : i < NX_CHAN_CTXT_CNT) :
    e i = 0 := by
  have hcount := h.count i hi
  rw [hc.count i hi] at hcount
  omega

/-- A step that links and unlinks nobody. -/
theorem Ledger.still (h : Ledger hw e) (hvif : ∀ v, (t.vif v).chIndex = (hw.vif v).chIndex)
    (htable : t.chanctxTable = hw.chanctxTable) (hwarned : t.warned = hw.warned) : Ledger t e where
  count i hi := by
    have hlinks : links t i = links hw i := tally_congr fun v _ => by
      simp only [share, hvif]
    rw [htable, hlinks]
    exact h.count i hi
  released i hi := by
    rw [htable]
    exact h.released i hi
  unwarned := hwarned.trans h.unwarned
  known v := by
    rw [hvif]
    exact h.known v

theorem setChIndex_links (hw : Hw) (v : VifId) (i j : ℕ) :
    links (hw.setChIndex v i) j+(if (hw.vif v).chIndex = j then 1 else 0) =
      links hw j+(if i = j then 1 else 0) := links_setVif hw v _ j

theorem setChIndex_known (h : Ledger hw e) (hi : i = RWNX_CH_NOT_SET ∨ i < NX_CHAN_CTXT_CNT)
    (u : VifId) : ((hw.setChIndex v i).vif u).chIndex = RWNX_CH_NOT_SET ∨
      ((hw.setChIndex v i).vif u).chIndex < NX_CHAN_CTXT_CNT := by
  by_cases hu : u = v
  · rw [hu, Hw.setChIndex_self]
    exact hi
  · rw [Hw.setChIndex_other hw hu]
    exact h.known u

/-- What the interface leaves behind in the context it had. -/
def stale (hw : Hw) (v : VifId) (i : ℕ) : ℕ := if (hw.vif v).chIndex = i then 1 else 0

theorem link_ledger (h : Ledger hw e) (he : ∀ j, e j ≤ 1) (hi : i < NX_CHAN_CTXT_CNT) :
    Ledger (hw.rwnxChanctxLink v i d) fun j => e j+stale hw v j := by
  rw [Hw.rwnxChanctxLink, if_neg (Nat.not_le.mpr hi)]
  constructor
  · intro j hj
    have hlinks := setChIndex_links hw v i j
    have hcount := h.count j hj
    have hle := links_le hw j
    have hej := he j
    have hsame : links ((hw.setChIndex v i).setCtxt i ((hw.chanctxTable i).linked d)) j =
        links (hw.setChIndex v i) j := rfl
    rw [hsame]
    by_cases hji : j = i
    · subst hji
      simp only [Hw.setCtxt, Function.update_self, Chanctx.linked, stale]
      rw [if_pos rfl] at hlinks
      omega
    · rw [if_neg (Ne.symm hji)] at hlinks
      simp only [Hw.setCtxt, Function.update_of_ne hji, stale]
      rw [show (hw.setChIndex v i).chanctxTable = hw.chanctxTable from rfl]
      omega
  · intro j hj hzero
    by_cases hji : j = i
    · subst hji
      have hcount := h.count j hj
      have hle := links_le hw j
      have hej := he j
      simp only [Hw.setCtxt, Function.update_self, Chanctx.linked] at hzero
      omega
    · simp only [Hw.setCtxt, Function.update_of_ne hji] at hzero ⊢
      exact h.released j hj hzero
  · exact h.unwarned
  · exact setChIndex_known h (Or.inr hi)

theorem link_outside (hi : NX_CHAN_CTXT_CNT ≤ i) : hw.rwnxChanctxLink v i d = hw := by
  rw [Hw.rwnxChanctxLink, if_pos hi]

/-- What an unlink of an interface that has a context changes. -/
theorem unlink_eq (hset : (hw.vif v).chIndex ≠ RWNX_CH_NOT_SET) :
    (hw.rwnxChanctxUnlink v).vif = (hw.setChIndex v RWNX_CH_NOT_SET).vif ∧
      (hw.rwnxChanctxUnlink v).chanctxTable = Function.update hw.chanctxTable (hw.vif v).chIndex
        (hw.chanctxTable (hw.vif v).chIndex).unlinked ∧
      (hw.rwnxChanctxUnlink v).warned =
        (hw.warned || decide ((hw.chanctxTable (hw.vif v).chIndex).count = 0)) := by
  rw [Hw.rwnxChanctxUnlink, if_neg hset]
  exact ⟨rfl, rfl, rfl⟩

theorem unlink_unset : ((hw.rwnxChanctxUnlink v).vif v).chIndex = RWNX_CH_NOT_SET := by
  by_cases hset : (hw.vif v).chIndex = RWNX_CH_NOT_SET
  · rw [Hw.rwnxChanctxUnlink, if_pos hset]
    exact hset
  · rw [(unlink_eq hset).1, Hw.setChIndex_self]

theorem Ledger.congr {f : ℕ → ℕ} (h : Ledger hw e) (he : ∀ i < NX_CHAN_CTXT_CNT, e i = f i) :
    Ledger hw f where
  count i hi := he i hi ▸ h.count i hi
  released := h.released
  unwarned := h.unwarned
  known := h.known

theorem unlink_ledger (h : Ledger hw e) : Ledger (hw.rwnxChanctxUnlink v) e := by
  by_cases hset : (hw.vif v).chIndex = RWNX_CH_NOT_SET
  · rw [Hw.rwnxChanctxUnlink, if_pos hset]
    exact h
  · obtain ⟨hvif, htable, hwarned⟩ := unlink_eq hset
    have hin : (hw.vif v).chIndex < NX_CHAN_CTXT_CNT := (h.known v).resolve_left hset
    have hone : 0 < links hw (hw.vif v).chIndex := links_pos hw v
    have hcount := h.count _ hin
    constructor
    · intro j hj
      have hlinks := setChIndex_links hw v RWNX_CH_NOT_SET j
      rw [show links (hw.rwnxChanctxUnlink v) j = links (hw.setChIndex v RWNX_CH_NOT_SET) j by
        rw [links, hvif, links], htable]
      have hnot : RWNX_CH_NOT_SET ≠ j := by
        rintro rfl
        exact absurd hj (by decide)
      rw [if_neg hnot] at hlinks
      by_cases hjv : j = (hw.vif v).chIndex
      · rw [hjv, Function.update_self, Chanctx.unlinked, hcount]
        rw [if_pos hjv.symm, hjv] at hlinks
        simp only
        omega
      · rw [Function.update_of_ne hjv, h.count j hj]
        rw [if_neg (Ne.symm hjv)] at hlinks
        omega
    · intro j hj hzero
      rw [htable] at hzero ⊢
      by_cases hjv : j = (hw.vif v).chIndex
      · rw [hjv, Function.update_self, Chanctx.unlinked] at hzero ⊢
        rw [if_pos hzero]
      · rw [Function.update_of_ne hjv] at hzero ⊢
        exact h.released j hj hzero
    · rw [hwarned, h.unwarned, hcount]
      simp only [Bool.false_or, decide_eq_false_iff_not]
      omega
    · intro u
      rw [hvif]
      exact setChIndex_known h (Or.inl rfl) u

theorem relink_ledger (h : Ledger hw e) (he : ∀ j, e j ≤ 1) :
    Ledger ((hw.rwnxChanctxUnlink v).rwnxChanctxLink v i d) e := by
  have hun := unlink_ledger (v := v) h
  by_cases hi : i < NX_CHAN_CTXT_CNT
  · have hstale : ∀ j < NX_CHAN_CTXT_CNT, stale (hw.rwnxChanctxUnlink v) v j = 0 := by
      intro j hj
      refine if_neg fun hjv => ?_
      rw [unlink_unset] at hjv
      exact absurd (hjv ▸ hj) (by decide)
    exact (link_ledger hun he hi).congr fun j hj => by rw [hstale j hj, Nat.add_zero]
  · rw [link_outside (Nat.not_lt.mp hi)]
    exact hun

/-- What a link of `v` to context `i` makes the counts too high by. -/
def excess (hw : Hw) (v : VifId) (i j : ℕ) : ℕ := if i < NX_CHAN_CTXT_CNT then stale hw v j else 0

theorem excess_le (hw : Hw) (v : VifId) (i j : ℕ) : excess hw v i j ≤ 1 := by
  unfold excess stale
  split_ifs <;> omega

theorem excess_zero (h : Ledger hw fun _ => 0) :
    (∀ j < NX_CHAN_CTXT_CNT, excess hw v i j = 0) ↔ Free hw v i := by
  by_cases hi : i < NX_CHAN_CTXT_CNT
  · simp only [excess, if_pos hi, Free, Nat.not_le.mpr hi, false_or]
    constructor
    · intro hall
      refine (h.known v).resolve_right fun hin => ?_
      have hone := hall _ hin
      simp [stale] at hone
    · intro hset j hj
      refine if_neg fun hjv => ?_
      rw [hset] at hjv
      exact absurd (hjv ▸ hj) (by decide)
  · simp [excess, if_neg hi, Free, Nat.not_lt.mp hi]

theorem linked_ledger (h : Ledger hw fun _ => 0) :
    Ledger (hw.rwnxChanctxLink v i d) (excess hw v i) := by
  by_cases hi : i < NX_CHAN_CTXT_CNT
  · exact (link_ledger h (fun _ => Nat.zero_le 1) hi).congr fun j _ => by simp [excess, hi]
  · rw [link_outside (Nat.not_lt.mp hi)]
    exact h.congr fun j _ => by simp [excess, hi]

theorem radar_ledger (h : Ledger hw e) : Ledger hw.radarDetectionEnableOnCurChannel e := by
  unfold Hw.radarDetectionEnableOnCurChannel
  split_ifs
  · exact h.still (fun _ => rfl) rfl rfl
  · exact h

theorem radar_if_ledger (h : Ledger hw e) (i : ℕ) :
    Ledger (if hw.curChanctx = i then hw.radarDetectionEnableOnCurChannel else hw) e := by
  split_ifs
  · exact radar_ledger h
  · exact h

/-- The counts after a step, and whether any is too high. -/
def Moves (t : Hw) (free : Prop) : Prop :=
  ∃ e, Ledger t e ∧ ((∀ j < NX_CHAN_CTXT_CNT, e j = 0) ↔ free)

theorem moves_still (h : Ledger t fun _ => 0) : Moves t True := ⟨_, h, by simp⟩

theorem moves_if {p q : Prop} (hp : p → Moves t q) (hn : ¬ p → Ledger t fun _ => 0) :
    Moves t (p → q) := by
  by_cases h : p
  · simpa [h] using hp h
  · exact ⟨_, hn h, by simp [h]⟩

theorem connect_moves (h : Ledger hw fun _ => 0) (statusCode : ℕ) (d : Chandef) :
    Moves (rxSmConnectInd hw v statusCode i d) (statusCode = 0 → Free hw v i) := by
  apply moves_if <;> intro hs
  · rw [rxSmConnectInd, if_pos hs]
    refine ⟨excess hw v i, ?_, excess_zero h⟩
    have hlink := linked_ledger (v := v) (i := i) (d := some d) h
    simp only
    split
    · exact relink_ledger hlink (excess_le hw v i)
    · exact hlink
  · rw [rxSmConnectInd, if_neg hs]
    exact h

theorem startAp_moves (h : Ledger hw fun _ => 0) (status : ℕ) (d : Chandef) :
    Moves (startApCfm hw v status i d) (status = CO_OK → Free hw v i) := by
  apply moves_if <;> intro hs
  · rw [startApCfm, if_pos hs]
    exact ⟨excess hw v i, radar_if_ledger (linked_ledger h) i, excess_zero h⟩
  · rw [startApCfm, if_neg hs]
    exact h

theorem joinMesh_moves (h : Ledger hw fun _ => 0) (status : ℕ) (d : Chandef) (mpm : Bool) :
    Moves (joinMeshCfm hw v status i d mpm) (status = CO_OK → Free hw v i) := by
  apply moves_if <;> intro hs
  · rw [joinMeshCfm, if_pos hs]
    have hset : Ledger (hw.setVif v { hw.vif v with userMpm := mpm }) fun _ => 0 := by
      refine h.still (t := hw.setVif v _) (fun u => ?_) rfl rfl
      by_cases hu : u = v
      · simp [Hw.setVif, hu]
      · simp [Hw.setVif, hu]
    have hfree : Free (hw.setVif v { hw.vif v with userMpm := mpm }) v i ↔ Free hw v i := by
      simp [Free, Hw.setVif]
    exact ⟨_, radar_if_ledger (linked_ledger hset) i, (excess_zero hset).trans hfree⟩
  · rw [joinMeshCfm, if_neg hs]
    exact h

theorem meshPeer_moves (h : Ledger hw fun _ => 0) (staIdx : ℕ) (estab : Bool) :
    Moves (rxMeshPeerUpdateInd hw v staIdx estab)
      (NewPeer hw v staIdx estab → Free hw v (hw.vif v).chIndex) := by
  have hgate : NewPeer hw v staIdx estab ↔
      ¬ ((hw.vif v).iftype ≠ .meshPoint ∨ NX_REMOTE_STA_MAX ≤ staIdx) ∧
        ((hw.vif v).userMpm = false ∧ estab = true) ∧ hw.staValid staIdx = false := by
    simp only [NewPeer, not_or, not_not, Nat.not_le]
    tauto
  apply moves_if <;> intro hnew <;> rw [hgate] at hnew <;> unfold rxMeshPeerUpdateInd
  · obtain ⟨hmesh, hlocal, hvalid⟩ := hnew
    rw [if_neg hmesh, if_pos hlocal, if_neg (by simp [hvalid])]
    exact ⟨_, (linked_ledger h).still (fun _ => rfl) rfl rfl, excess_zero h⟩
  · split_ifs with hmesh hlocal hvalid
    · exact h
    · exact h
    · exact absurd ⟨hmesh, hlocal, by simpa using hvalid⟩ hnew
    · exact h
    · exact h.still (fun _ => rfl) rfl rfl

theorem startCac_moves (h : Ledger hw fun _ => 0) (status : ℕ) (d : Chandef) :
    Moves (startCacCfm hw v d status i) (status = CO_OK → Free hw v i) := by
  apply moves_if <;> intro hs
  · rw [startCacCfm, if_pos hs]
    have hidle : Ledger { hw with rtnl := .idle } fun _ => 0 := h.still (fun _ => rfl) rfl rfl
    have hfree := excess_zero (v := v) (i := i) hidle
    exact ⟨_, (linked_ledger (d := some d) hidle).still (fun _ => rfl) rfl rfl, hfree⟩
  · rw [startCacCfm, if_neg hs]
    exact h.still (fun _ => rfl) rfl rfl

theorem relinked_ledger (h : Ledger hw fun _ => 0) : Ledger (relink hw v i d) fun _ => 0 :=
  radar_if_ledger (relink_ledger h fun _ => Nat.zero_le 1) i

theorem monitor_ledger (h : Ledger hw fun _ => 0) (cfm : Option (ℕ × Chandef)) (busy : Bool) :
    Ledger (monitorCfm hw v cfm busy) fun _ => 0 := by
  have hidle : Ledger { hw with rtnl := .idle } fun _ => 0 := h.still (fun _ => rfl) rfl rfl
  cases cfm with
  | none => exact hidle
  | some c =>
    simp only [monitorCfm]
    split_ifs
    · exact unlink_ledger hidle
    all_goals exact relink_ledger hidle fun _ => Nat.zero_le 1

/-! ## The check only unlinks -/

theorem cacUnlink_ledger (h : Ledger hw fun _ => 0) : Ledger (cacUnlink hw v) fun _ => 0 := by
  simp only [cacUnlink]
  split_ifs
  · exact unlink_ledger h
  · exact (unlink_ledger h).still (fun _ => rfl) rfl rfl

theorem work_ledger (h : Ledger hw fun _ => 0) (pc : CacPc) :
    Ledger (radarCacWork hw v pc) fun _ => 0 := by
  cases pc <;> cases hcac : hw.cacVif <;> simp only [radarCacWork, hcac]
  case unlink.some u => exact (cacUnlink_ledger (v := u) h).still (fun _ => rfl) rfl rfl
  all_goals exact h.still (fun _ => rfl) rfl rfl

theorem afterCancel_ledger (h : Ledger hw fun _ => 0) (l : Leaver) :
    Ledger (afterCancel hw v l) fun _ => 0 := by
  cases l <;> exact h.still (fun _ => rfl) rfl rfl

theorem cancel_ledger (h : Ledger hw fun _ => 0) (l : Leaver) :
    Ledger (radarCancelCac hw v l) fun _ => 0 := by
  cases hcac : hw.cacVif with
  | none =>
    simp only [radarCancelCac, hcac]
    exact afterCancel_ledger h l
  | some u =>
    simp only [radarCancelCac, hcac]
    split_ifs
    · exact h.still (fun _ => rfl) rfl rfl
    · refine afterCancel_ledger ?_ l
      exact h.still (fun _ => rfl) rfl rfl

theorem cancelCfm_ledger (h : Ledger hw fun _ => 0) (l : Leaver) :
    Ledger (cancelCfm hw v l) fun _ => 0 := by
  cases hcac : hw.cacVif with
  | none =>
    simp only [cancelCfm, hcac]
    exact h.still (fun _ => rfl) rfl rfl
  | some u =>
    simp only [cancelCfm, hcac]
    have hnote : Ledger (hw.note (.aborted u)) fun _ => 0 := h.still (fun _ => rfl) rfl rfl
    refine afterCancel_ledger ?_ l
    exact (cacUnlink_ledger (v := u) hnote).still (fun _ => rfl) rfl rfl

theorem left_ledger (h : Ledger hw fun _ => 0) (l : Leaver) (early : Bool) :
    Ledger (left hw v l early) fun _ => 0 := by
  have hidle : Ledger { hw with rtnl := .idle } fun _ => 0 := h.still (fun _ => rfl) rfl rfl
  simp only [left]
  split_ifs
  · exact hidle
  · exact (unlink_ledger (v := v) hidle).still (fun _ => rfl) rfl rfl
  · exact unlink_ledger hidle

theorem request_moves {a : Act} (h : Ledger hw fun _ => 0) (hs : request hw a = some t) :
    Moves t (LinksFree hw a) := by
  cases a with
  | openVif v =>
    obtain rfl := Option.some.inj hs
    refine moves_still ?_
    unfold openVif
    split_ifs
    · exact h.still (fun _ => rfl) rfl rfl
    · exact h
  | startApCfm v status chIdx chandef =>
    obtain rfl := Option.some.inj hs
    exact startAp_moves h status chandef
  | joinMeshCfm v status chIdx chandef mpm =>
    obtain rfl := Option.some.inj hs
    exact joinMesh_moves h status chandef mpm
  | setMonitorChannel chandef =>
    obtain rfl := Option.some.inj hs
    refine moves_still ?_
    cases hm : hw.monitorVif with
    | none =>
      simp only [setMonitorChannel, hm]
      exact h
    | some m =>
      simp only [setMonitorChannel, hm]
      split_ifs
      · exact h
      · exact h.still (fun _ => rfl) rfl rfl
  | startRadarDetection v chandef =>
    obtain rfl := Option.some.inj hs
    exact moves_still (h.still (fun _ => rfl) rfl rfl)
  | close v =>
    obtain rfl := Option.some.inj hs
    exact moves_still (cancel_ledger h _)
  | stopAp v =>
    obtain rfl := Option.some.inj hs
    exact moves_still (cancel_ledger h _)
  | leaveMesh v status =>
    obtain rfl := Option.some.inj hs
    refine moves_still ?_
    unfold leaveMesh
    split_ifs
    · exact cancel_ledger (unlink_ledger h) _
    · exact h
  | _ => cases hs

theorem step_moves {a : Act} (h : Ledger hw fun _ => 0) (hs : step hw a = some t) :
    Moves t (LinksFree hw a) := by
  cases a with
  | connectInd v statusCode chIdx chandef =>
    obtain rfl := Option.some.inj hs
    exact connect_moves h statusCode chandef
  | disconnectInd v =>
    obtain rfl := Option.some.inj hs
    exact moves_still (unlink_ledger h)
  | meshPeerUpdateInd v staIdx estab =>
    obtain rfl := Option.some.inj hs
    exact meshPeer_moves h staIdx estab
  | csaFinishInd v status chIdx =>
    obtain rfl := Option.some.inj hs
    refine moves_still ?_
    unfold rxCsaFinishInd
    split_ifs
    · exact h
    · exact relinked_ledger h
    · exact h
  | csaFinish v sent chIdx chandef =>
    obtain rfl := Option.some.inj hs
    refine moves_still ?_
    unfold rwnxCsaFinish
    split_ifs
    · exact relinked_ledger h
    · exact h
  | chanSwitchInd chanIdx =>
    obtain rfl := Option.some.inj hs
    exact moves_still (radar_ledger (h.still (fun _ => rfl) rfl rfl))
  | fire =>
    simp only [step] at hs
    split at hs
    · obtain rfl := Option.some.inj hs
      exact moves_still (h.still (fun _ => rfl) rfl rfl)
    · cases hs
  | work =>
    obtain ⟨w, -, rfl⟩ := Option.map_eq_some_iff.mp hs
    exact moves_still (work_ledger h w.2)
  | monitorCfm cfm busy =>
    simp only [step, resume] at hs
    split at hs
    · obtain rfl := Option.some.inj hs
      exact moves_still (monitor_ledger h cfm busy)
    · cases hs
  | startCacCfm status chIdx =>
    simp only [step, resume] at hs
    split at hs
    case h_1 v chandef hrtnl =>
      obtain rfl := Option.some.inj hs
      simpa only [LinksFree, hrtnl] using startCac_moves h status chandef
    case h_2 => cases hs
  | cancelCfm =>
    simp only [step, resume] at hs
    split at hs
    · obtain rfl := Option.some.inj hs
      exact moves_still (cancelCfm_ledger h _)
    · cases hs
  | left early =>
    simp only [step, resume] at hs
    split at hs
    · split_ifs at hs
      obtain rfl := Option.some.inj hs
      exact moves_still (left_ledger h _ early)
    · cases hs
  | openVif | startApCfm | joinMeshCfm | setMonitorChannel | startRadarDetection | close | stopAp
  | leaveMesh =>
    simp only [step] at hs
    split_ifs at hs
    exact request_moves h hs

theorem init_ledger (iftype : VifId → Iftype) : Ledger (init iftype) fun _ => 0 where
  count i hi := by
    have hzero : links (init iftype) i = 0 := by
      apply tally_eq_zero
      intro v _ hv
      rw [show ((init iftype).vif v).chIndex = RWNX_CH_NOT_SET from rfl] at hv
      exact absurd (hv ▸ hi) (by decide)
    rw [hzero]
    rfl
  released _ _ _ := by rfl
  unwarned := by rfl
  known _ := by exact Or.inl rfl

end Ledger

/-- The counts are right in every state exactly when no step links an interface that already has
a context. -/
theorem run_linked_iff {iftype : VifId → Iftype} {as : List Act} {hw : Hw}
    (hrun : exec step (init iftype) as = some hw) :
    Throughout step Counted (init iftype) as ↔ Meets step LinksFree (init iftype) as := by
  refine throughout_iff_of_exec (J := fun hw => Ledger hw fun _ => 0) ?_ ?_ ?_
    (init_ledger iftype) hrun
  · intro hw a t hfree hs h
    obtain ⟨e, hledger, hiff⟩ := step_moves h hs
    exact hledger.congr (hiff.mpr hfree)
  · exact fun hw h => h.counted fun _ _ => rfl
  · intro hw a t h hs hc
    obtain ⟨e, hledger, hiff⟩ := step_moves h hs
    exact hiff.mp (hledger.exact hc)

/-- A check that ends, then the access point on its channel, a station that connects elsewhere, and
the closes of both. -/
def sampleRun : List Act :=
  [.startRadarDetection 0 sampleChandef, .startCacCfm CO_OK 0, .fire, .work, .work, .work, .work,
    .work, .startApCfm 0 CO_OK 0 sampleChandef, .connectInd 1 0 2 sampleChandef, .chanSwitchInd 2,
    .disconnectInd 1, .connectInd 1 0 0 sampleChandef, .stopAp 0, .left false, .close 1, .left false]

def sampleType (v : VifId) : Iftype := if v = 0 then .ap else .station

theorem run_linked_iff_sample :
    Throughout step Counted (init sampleType) sampleRun ↔
      Meets step LinksFree (init sampleType) sampleRun := by
  have hrun : (exec step (init sampleType) sampleRun).isSome := by decide +kernel
  exact run_linked_iff (Option.some_get hrun).symm

/-- The station roams to an access point in another context. -/
def roamRun : List Act := [.connectInd 0 0 1 sampleChandef, .connectInd 0 0 2 sampleChandef]

/-- The access point starts before the check on its interface has ended. -/
def cacRun : List Act :=
  [.startRadarDetection 0 sampleChandef, .startCacCfm CO_OK 1, .startApCfm 0 CO_OK 1 sampleChandef]

theorem counts_wrong :
    ¬ Throughout step Counted (init fun _ => .station) roamRun ∧
      ¬ Throughout step Counted (init fun _ => .ap) cacRun := by
  constructor
  · intro h
    have hcount := (h roamRun List.prefix_rfl _ rfl).count 1 (by decide)
    revert hcount
    decide +kernel
  · intro h
    have hcount := (h cacRun List.prefix_rfl _ rfl).count 1 (by decide)
    revert hcount
    decide +kernel

end AIC.ChannelCounts
