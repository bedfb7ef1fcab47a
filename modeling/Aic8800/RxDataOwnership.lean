import Aic8800.RxDataInd
import Aic8800.MsduPoolConserved

/-!
# Who owns a received frame

A call of `rwnx_rxdataind_aicwf` or of a part of it either consumes the buffer,
which is then freed, handed up or on a pending list, once, or it drops it: it
does not return, or it returns and the buffer is nowhere. Which of the two, for
the reorder functions and the branches of the interface types.
-/

set_option autoImplicit false

namespace AIC.RxDataOwnership
open AIC.ReorderMachine AIC.MsduPool AIC.MsduPoolConserved AIC.RxDataInd Lib.LoopRun
open AIC.DefragMachine (RxFrame DefragCtrlInfo Outcome findDefrag)

/-- The buffers on the pending lists. -/
def held (hw : Hw) : List ℕ := (listed hw.pool.stasReordList).map Element.skb

/-- Where buffers are after a call: on the lists, or freed or handed up. -/
def placed (r : Result) : List ℕ := held r.1++r.2.map Prod.fst

/-- The call returns, and the buffer is in one place once; those that were on a list as well. -/
def Consumes (hw : Hw) (k : ℕ) (o : Option Result) : Prop :=
  ∃ r, o = some r ∧ (placed r).Perm (k::held hw)

/-- The call does not return, or returns without the buffer. -/
def Drops (hw : Hw) (o : Option Result) : Prop :=
  ∀ r, o = some r → (placed r).Perm (held hw)

theorem Consumes.count {hw : Hw} {k : ℕ} {o : Option Result} (h : Consumes hw k o)
    (hnew : k ∉ held hw) : ∃ r, o = some r ∧ (placed r).count k = 1 := by
  obtain ⟨r, hr, hperm⟩ := h
  refine ⟨r, hr, ?_⟩
  rw [hperm.count_eq, List.count_cons_self, List.count_eq_zero_of_not_mem hnew]

theorem Drops.count {hw : Hw} {k : ℕ} {o : Option Result} (h : Drops hw o)
    (hnew : k ∉ held hw) : ¬ ∃ r, o = some r ∧ (placed r).count k = 1 := by
  rintro ⟨r, hr, hcount⟩
  rw [(h r hr).count_eq, List.count_eq_zero_of_not_mem hnew] at hcount
  cases hcount

theorem consumes_single (hw : Hw) (k : ℕ) (u : Use) : Consumes hw k (some (hw, [(k, u)])) :=
  ⟨_, rfl, List.perm_append_singleton k (held hw)⟩

theorem drops_none (hw : Hw) : Drops hw none := fun _ h => (Option.some_ne_none _ h.symm).elim

/-! ## The reorder functions -/

/-- `reord_process_unit` gets as far as a control of the station. -/
def usesCtrl (kmalloc : Bool) (p : Pool) (t : IfType) (skb : SkBuff) : Bool :=
  !(skb.len ≤ 14) && !p.rxframesFreequeue.isEmpty &&
    !(ethProto skb = ETH_P_PAE ∨ isMcast skb = true) &&
    (reordMac t skb).any fun mac => (lookupInfo kmalloc p mac).isSome

theorem processUnit_none {kmalloc : Bool} {p : Pool} {t : IfType} (hvif : p.rwnxVif = some t)
    (k : ℕ) (u : RxUnit) :
    p.processUnit kmalloc k u = none ↔ usesCtrl kmalloc p t u.skb = true ∧ 8 ≤ u.tid := by
  unfold Pool.processUnit usesCtrl
  rw [hvif]
  dsimp only
  by_cases hlen : u.skb.len ≤ 14
  · simp [hlen]
  rw [if_neg hlen]
  cases hfree : p.rxframesFreequeue with
  | nil => simp
  | cons id free =>
    dsimp only
    by_cases hdirect : ethProto u.skb = ETH_P_PAE ∨ isMcast u.skb = true
    · rw [if_pos hdirect]
      simp [hdirect]
    rw [if_neg hdirect]
    cases hmac : reordMac t u.skb with
    | none => simp
    | some mac =>
      dsimp only
      cases hlook : lookupInfo kmalloc p mac with
      | none => simp [hlook]
      | some r =>
        by_cases htid : 8 ≤ u.tid
        · simp [htid, hlen, hdirect, hlook]
        · simp [htid]

/-- The buffer is used at once or kept; others may leave the list. -/
theorem processUnit_placed {kmalloc : Bool} {p q : Pool} {k : ℕ} {u : RxUnit}
    {out : List (ℕ × Ind)} (h : p.processUnit kmalloc k u = some (q, out)) :
    ((listed q.stasReordList).map Element.skb++out.map Prod.fst).Perm
      (k::(listed p.stasReordList).map Element.skb) := by
  have hone : ∀ (p' : Pool) (i : Ind), p'.stasReordList = p.stasReordList →
      some (p', [(k, i)]) = some (q, out) →
      ((listed q.stasReordList).map Element.skb++out.map Prod.fst).Perm
        (k::(listed p.stasReordList).map Element.skb) := by
    intro p' i hstas heq
    obtain ⟨rfl, rfl⟩ := Prod.mk.inj (Option.some.inj heq)
    rw [hstas]
    exact List.perm_append_singleton k _
  unfold Pool.processUnit at h
  cases hvif : p.rwnxVif with
  | none =>
    rw [hvif] at h
    exact hone p _ rfl h
  | some t =>
    rw [hvif] at h
    dsimp only at h
    by_cases hlen : u.skb.len ≤ 14
    · rw [if_pos hlen] at h
      exact hone p _ rfl h
    rw [if_neg hlen] at h
    cases hfree : p.rxframesFreequeue with
    | nil =>
      rw [hfree] at h
      exact hone p _ rfl h
    | cons id free =>
      rw [hfree] at h
      dsimp only at h
      by_cases hdirect : ethProto u.skb = ETH_P_PAE ∨ isMcast u.skb = true
      · rw [if_pos hdirect] at h
        exact hone p _ rfl h
      rw [if_neg hdirect] at h
      cases hmac : reordMac t u.skb with
      | none =>
        rw [hmac] at h
        exact hone { p with rwnxVif := some t, rxframesFreequeue := free } _ rfl h
      | some mac =>
        rw [hmac] at h
        dsimp only at h
        cases hlook : lookupInfo kmalloc p mac with
        | none =>
          rw [hlook] at h
          exact hone { p with rwnxVif := some t, rxframesFreequeue := free } _ rfl h
        | some x =>
          obtain ⟨stas, info⟩ := x
          rw [hlook] at h
          dsimp only at h
          obtain ⟨hinfo, hsame⟩ := lookupInfo_listed hlook
          by_cases htid : 8 ≤ u.tid
          · simp [htid] at h
          rw [if_neg htid] at h
          obtain ⟨rfl, rfl⟩ := Prod.mk.inj (Option.some.inj h)
          have hmoved := unit_moved (info.preorderCtrl u.tid).reenable ⟨id, k, u.msdu⟩
          rw [reenable_list] at hmoved
          have hall := (putBack_moved { p with rwnxVif := some t, rxframesFreequeue := free }
            [⟨id, k, u.msdu⟩] _ hinfo (not_le.mp htid) hmoved).map Element.skb
          rw [hsame, List.map_append, List.map_map] at hall
          rw [List.map_map]
          exact hall

/-- `reord_flush_tid` finds the station of the frame. -/
def flushFinds (p : Pool) (t : IfType) (skb : SkBuff) : Bool :=
  (reordMac t skb).any fun mac => (findInfo mac p.stasReordList).isSome

theorem flushTid_none {p : Pool} {t : IfType} (hvif : p.rwnxVif = some t) (k : ℕ) (skb : SkBuff)
    (tid : ℕ) : p.flushTid k skb tid = none ↔ flushFinds p t skb = true ∧ 8 ≤ tid := by
  unfold Pool.flushTid flushFinds
  rw [hvif]
  dsimp only
  cases reordMac t skb with
  | none => simp
  | some mac =>
    dsimp only
    cases hinfo : findInfo mac p.stasReordList with
    | none => simp [hinfo]
    | some info =>
      by_cases htid : 8 ≤ tid
      · simp [htid, hinfo]
      · dsimp only
        rw [if_neg htid]
        constructor
        · intro h
          split_ifs at h
        · exact fun h => absurd h.2 htid

theorem flushTid_placed {p q : Pool} {t : IfType} (hvif : p.rwnxVif = some t) {k : ℕ}
    {skb : SkBuff} (hmac : (reordMac t skb).isSome = true) {tid : ℕ} {out : List (ℕ × Ind)}
    (h : p.flushTid k skb tid = some (q, out)) :
    ((listed q.stasReordList).map Element.skb++out.map Prod.fst).Perm
      ((listed p.stasReordList).map Element.skb) := by
  have hnothing : some (p, ([] : List (ℕ × Ind))) = some (q, out) →
      ((listed q.stasReordList).map Element.skb++out.map Prod.fst).Perm
        ((listed p.stasReordList).map Element.skb) := by
    intro heq
    obtain ⟨rfl, rfl⟩ := Prod.mk.inj (Option.some.inj heq)
    rw [List.map_nil, List.append_nil]
  unfold Pool.flushTid at h
  rw [hvif] at h
  dsimp only at h
  obtain ⟨mac, hsome⟩ := Option.isSome_iff_exists.mp hmac
  rw [hsome] at h
  dsimp only at h
  cases hinfo : findInfo mac p.stasReordList with
  | none =>
    rw [hinfo] at h
    exact hnothing h
  | some info =>
    rw [hinfo] at h
    dsimp only at h
    by_cases htid : 8 ≤ tid
    · simp [htid] at h
    rw [if_neg htid] at h
    split_ifs at h
    · obtain ⟨rfl, rfl⟩ := Prod.mk.inj (Option.some.inj h)
      have hall := (putBack_moved p [] ((info.preorderCtrl tid).flushed,
        (info.preorderCtrl tid).reordList.map fun e => (e, Ind.listed e.msdu)) hinfo
        (not_le.mp htid) (flushed_moved (info.preorderCtrl tid))).map Element.skb
      rw [List.map_append, List.map_map, List.map_map] at hall
      rw [List.map_map]
      exact hall
    · exact hnothing h

/-! ## The last branch -/

section Branch
variable {hw : Hw} {env : Env} {hdr : HwRxhdr} {k : ℕ} {vif : Vif} {r : Ready}

/-- A TID from 8 on does no harm where no control is looked up. -/
def TidFits (hw : Hw) (env : Env) (hdr : HwRxhdr) (vif : Vif) (r : Ready) : Prop :=
  r.isQos = true → 8 ≤ r.tid →
    if hdr.flagsNeedReord then usesCtrl env.kmalloc (poolFor hw vif) vif.iftype.reord r.skb = false
    else flushFinds (poolFor hw vif) vif.iftype.reord r.skb = false

/-- A frame of an interface with a branch of its own; on an access point one that is handed up or
has a TID. -/
def BranchOk (hw : Hw) (env : Env) (hdr : HwRxhdr) (vif : Vif) (r : Ready) : Prop :=
  match vif.iftype with
  | .station | .p2pClient => TidFits hw env hdr vif r
  | .ap | .p2pGo => TidFits hw env hdr vif r ∧
    (r.isQos = true ∨ isMcast r.skb = true ∨ inBss hw hdr vif = false)
  | _ => False

theorem reorder_consumes (forward : Bool)
    (h : ¬ (usesCtrl env.kmalloc (poolFor hw vif) vif.iftype.reord r.skb = true ∧ 8 ≤ r.tid)) :
    Consumes hw k (reorder hw env k vif r forward) := by
  unfold reorder
  have hsome := (processUnit_none (p := poolFor hw vif) rfl k
    ⟨r.skb, r.seqNum, r.tid, forward⟩).not.mpr h
  obtain ⟨x, hx⟩ := Option.ne_none_iff_exists'.mp hsome
  rw [hx]
  refine ⟨_, rfl, ?_⟩
  have hplaced := processUnit_placed hx
  simp only [placed, List.map_map]
  exact hplaced

theorem reorder_drops (forward : Bool)
    (h : usesCtrl env.kmalloc (poolFor hw vif) vif.iftype.reord r.skb = true ∧ 8 ≤ r.tid) :
    Drops hw (reorder hw env k vif r forward) := by
  unfold reorder
  rw [(processUnit_none (p := poolFor hw vif) rfl k ⟨r.skb, r.seqNum, r.tid, forward⟩).mpr h]
  exact drops_none hw

theorem flushThen_consumes (u : Use) (hmac : (reordMac vif.iftype.reord r.skb).isSome = true)
    (h : r.isQos = true →
      ¬ (flushFinds (poolFor hw vif) vif.iftype.reord r.skb = true ∧ 8 ≤ r.tid)) :
    Consumes hw k (flushThen hw k vif r (some [u])) := by
  unfold flushThen
  by_cases hqos : r.isQos = true
  · rw [if_pos hqos]
    have hsome := (flushTid_none (p := poolFor hw vif) rfl k r.skb r.tid).not.mpr (h hqos)
    obtain ⟨x, hx⟩ := Option.ne_none_iff_exists'.mp hsome
    rw [hx]
    refine ⟨_, rfl, ?_⟩
    have hplaced := flushTid_placed rfl hmac hx
    simp only [placed, List.map_append, List.map_map]
    rw [← List.append_assoc]
    exact (hplaced.append_right [k]).trans (List.perm_append_singleton k _)
  · rw [if_neg hqos]
    exact ⟨_, rfl, List.perm_append_singleton k _⟩

theorem flushThen_drops (uses : Option (List Use)) (hqos : r.isQos = true)
    (h : flushFinds (poolFor hw vif) vif.iftype.reord r.skb = true ∧ 8 ≤ r.tid) :
    Drops hw (flushThen hw k vif r uses) := by
  unfold flushThen
  rw [if_pos hqos, (flushTid_none (p := poolFor hw vif) rfl k r.skb r.tid).mpr h]
  exact drops_none hw

theorem rxDataOrFree_sta (hsta : vif.iftype = .station ∨ vif.iftype = .p2pClient) (skb : SkBuff)
    (split : Split) : ∃ u, rxDataOrFree hw hdr vif skb split = some [u] := by
  have hap : vif.isAp = false := by
    rcases hsta with h | h <;> simp [Vif.isAp, h]
  have hmesh : (vif.iftype == .meshPoint) = false := by
    rcases hsta with h | h <;> simp [h]
  have hpeeks : vif.peeks = false := by simp [Vif.peeks, hap, hmesh]
  simp only [rxDataOrFree, rxDataSkb, hpeeks, hap, hmesh, Bool.and_false, Bool.false_and,
    Bool.false_eq_true, if_false, if_true]
  cases hdr.flagsIsAmsdu with
  | false => exact ⟨_, rfl⟩
  | true => cases split <;> exact ⟨_, rfl⟩

theorem reord_isSome (h : vif.iftype.reord ≠ .other) (skb : SkBuff) :
    (reordMac vif.iftype.reord skb).isSome = true := by
  cases hreord : vif.iftype.reord <;> simp [reordMac, hreord] at h ⊢

theorem staBranch_ok (hsta : vif.iftype = .station ∨ vif.iftype = .p2pClient) :
    (TidFits hw env hdr vif r → Consumes hw k (staBranch hw env hdr k vif r)) ∧
      (¬ TidFits hw env hdr vif r → Drops hw (staBranch hw env hdr k vif r)) := by
  have hmac : (reordMac vif.iftype.reord r.skb).isSome = true := by
    apply reord_isSome
    rcases hsta with h | h <;> simp [h, NlIftype.reord]
  obtain ⟨u, hu⟩ : ∃ u, rxDataOrFree hw hdr vif r.skb (env.amsduTo8023s 0) = some [u] :=
    rxDataOrFree_sta hsta _ _
  unfold staBranch TidFits
  rw [hu]
  cases hqos : r.isQos with
  | false =>
    constructor
    · intro _
      exact flushThen_consumes u hmac (by simp [hqos])
    · intro h
      simp at h
  | true =>
    cases hneed : hdr.flagsNeedReord with
    | true =>
      simp only [Bool.and_self, if_true, forall_const]
      constructor
      · intro h
        exact reorder_consumes true fun hc => by simp [h hc.2] at hc
      · intro h
        push Not at h
        exact reorder_drops true ⟨by simpa using h.2, h.1⟩
    | false =>
      simp only [Bool.and_false, Bool.false_eq_true, if_false, forall_const]
      constructor
      · intro h
        exact flushThen_consumes u hmac fun _ hc => by simp [h hc.2] at hc
      · intro h
        push Not at h
        exact flushThen_drops _ hqos ⟨by simpa using h.2, h.1⟩

theorem apBranch_ok (hap : vif.iftype = .ap ∨ vif.iftype = .p2pGo) :
    (TidFits hw env hdr vif r ∧
        (r.isQos = true ∨ isMcast r.skb = true ∨ inBss hw hdr vif = false) →
      Consumes hw k (apBranch hw env hdr k vif r)) ∧
      (¬ (TidFits hw env hdr vif r ∧
        (r.isQos = true ∨ isMcast r.skb = true ∨ inBss hw hdr vif = false)) →
      Drops hw (apBranch hw env hdr k vif r)) := by
  have hmac : (reordMac vif.iftype.reord r.skb).isSome = true := by
    apply reord_isSome
    rcases hap with h | h <;> simp [h, NlIftype.reord]
  unfold apBranch TidFits
  dsimp only
  have hhanded : (isMcast r.skb || !inBss hw hdr vif) = true ↔
      isMcast r.skb = true ∨ inBss hw hdr vif = false := by
    rw [Bool.or_eq_true, Bool.not_eq_true']
  rw [← hhanded]
  generalize (isMcast r.skb || !inBss hw hdr vif) = forward
  cases hqos : r.isQos with
  | false =>
    cases forward with
    | true =>
      constructor
      · intro _
        exact flushThen_consumes .netif hmac (by simp [hqos])
      · intro h
        simp at h
    | false =>
      constructor
      · intro h
        simp at h
      · -- the buffer of a frame that is only sent again stays allocated
        intro _ x hx
        simp only [flushThen, hqos, Bool.false_and, Bool.false_eq_true, if_false,
          Option.map_some, List.map_nil] at hx
        obtain rfl := Option.some.inj hx
        simp only [placed, held, poolFor, List.map_nil, List.append_nil]
        exact List.Perm.refl _
  | true =>
    have hfates : ∀ u : Use, hdr.flagsNeedReord = false →
        ((8 ≤ r.tid → flushFinds (poolFor hw vif) vif.iftype.reord r.skb = false) →
          Consumes hw k (flushThen hw k vif r (some [u]))) ∧
        (¬ (8 ≤ r.tid → flushFinds (poolFor hw vif) vif.iftype.reord r.skb = false) →
          Drops hw (flushThen hw k vif r (some [u]))) := by
      intro u _
      constructor
      · intro h
        exact flushThen_consumes u hmac fun _ hc => by simp [h hc.2] at hc
      · intro h
        push Not at h
        exact flushThen_drops _ hqos ⟨by simpa using h.2, h.1⟩
    cases hneed : hdr.flagsNeedReord with
    | true =>
      simp only [Bool.and_self, if_true, forall_const, true_or, and_true]
      constructor
      · intro h
        exact reorder_consumes forward fun hc => by simp [h hc.2] at hc
      · intro h
        push Not at h
        exact reorder_drops forward ⟨by simpa using h.2, h.1⟩
    | false =>
      simp only [Bool.and_false, Bool.false_eq_true, if_false, if_true, forall_const, true_or,
        and_true]
      cases forward with
      | true => exact hfates .netif hneed
      | false => exact hfates .freed hneed

theorem branch_ok : (BranchOk hw env hdr vif r → Consumes hw k (branch hw env hdr k vif r)) ∧
    (¬ BranchOk hw env hdr vif r → Drops hw (branch hw env hdr k vif r)) := by
  have hlost : Drops hw (some ({ hw with pool := poolFor hw vif }, [])) := by
    intro x hx
    obtain rfl := Option.some.inj hx
    simp only [placed, held, poolFor, List.map_nil, List.append_nil]
    exact List.Perm.refl _
  unfold branch BranchOk
  cases htype : vif.iftype with
  | station => exact staBranch_ok (.inl htype)
  | p2pClient => exact staBranch_ok (.inr htype)
  | ap => exact apBranch_ok (.inl htype)
  | p2pGo => exact apBranch_ok (.inr htype)
  | apVlan | meshPoint | monitor | other => exact ⟨False.elim, fun _ => hlost⟩

end Branch

/-- A frame that reaches an interface. -/
def DeliverOk (hw : Hw) (env : Env) (hdr : HwRxhdr) (f : RxFrame) : Prop :=
  match (getVif hw hdr.flagsVifIdx).bind (vlanVif hw hdr) with
  | none => True
  | some vif => BranchOk hw env hdr vif (readyOf f)

theorem deliver_ok {hw : Hw} {env : Env} {hdr : HwRxhdr} {k : ℕ} {f : RxFrame} :
    (DeliverOk hw env hdr f → Consumes hw k (deliver hw env hdr k f)) ∧
      (¬ DeliverOk hw env hdr f → Drops hw (deliver hw env hdr k f)) := by
  unfold deliver DeliverOk
  cases (getVif hw hdr.flagsVifIdx).bind (vlanVif hw hdr) with
  | none => exact ⟨fun _ => consumes_single hw k .freed, fun h => absurd trivial h⟩
  | some vif => exact branch_ok

end AIC.RxDataOwnership
