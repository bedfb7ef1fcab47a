import Aic8800.RxRelay

/-!
# What waits and what is handed up

The reorder functions hand up what they take off their lists, each frame that is
to be forwarded once. For one buffer number, what was handed up and what still
waits only grows by the frame passed, and shrinks with a station removed.
-/

set_option autoImplicit false

namespace AIC.RxRelayQueue
open AIC.ReorderMachine AIC.MsduPool AIC.MsduPoolConserved AIC.RxDataInd AIC.RxRelay
open AIC.RxDataOwnership
open AIC.RxDataAccess (late)

/-- The frame is dropped, other than for its number: it is too short, there is no element, or no
station for it, or it is late and taken for RTP. -/
def dropped (kmalloc : Bool) (p : Pool) (t : IfType) (r : Ready) : Bool :=
  r.skb.len ≤ 14 || p.rxframesFreequeue.isEmpty ||
    !(ethProto r.skb = ETH_P_PAE ∨ isMcast r.skb = true) &&
      ((reordMac t r.skb).any (fun mac => (lookupInfo kmalloc p mac).isNone) ||
        late p t r && r.skb.data 42 == 0x80)

def awaited (k : ℕ) (e : Element) : Bool := e.skb == k && e.msdu.forward

/-- Each frame is handed up if it is to be forwarded. -/
def Faithful (xs : List (Element × Ind)) : Prop :=
  ∀ x ∈ xs, x.2.netif.isSome = x.1.msdu.forward

theorem faithful_count {xs : List (Element × Ind)} (h : Faithful xs) (k : ℕ) :
    handedUp (xs.map fun x => (x.1.skb, x.2)) k = (xs.map Prod.fst).countP (awaited k) := by
  unfold handedUp
  rw [List.countP_map, List.countP_map]
  apply List.countP_congr
  intro x hx
  simp [awaited, h x hx]

theorem faithful_listed (es : List Element) :
    Faithful (es.map fun e => (e, Ind.listed e.msdu)) := by
  intro x hx
  obtain ⟨e, -, rfl⟩ := List.mem_map.mp hx
  cases h : e.msdu.forward <;> simp [Ind.netif, h]

theorem faithful_ind (c : PoolCtrl) : Faithful c.ind.2 := faithful_listed _

theorem waiting_eq (p : Pool) (k : ℕ) :
    waiting p k = (listed p.stasReordList).countP (awaited k) := rfl

theorem handedUp_nil (k : ℕ) : handedUp [] k = 0 := rfl

theorem handedUp_single (j : ℕ) (i : Ind) (k : ℕ) :
    handedUp [(j, i)] k = if k = j ∧ i.netif.isSome = true then 1 else 0 := by
  unfold handedUp
  rw [List.countP_singleton]
  congr 1
  rw [Bool.and_eq_true, beq_iff_eq, eq_comm (a := j)]

/-! ## One control -/

/-- The sequence number is that of a frame on the list. -/
theorem enqueue_none {e : Element} {l : List Element} (h : rxframeEnqueue e l = none) :
    l.any (fun g => g.msdu.seqNum == e.msdu.seqNum) = true := by
  induction l with
  | nil => cases h
  | cons g gs ih =>
    simp only [rxframeEnqueue] at h
    split_ifs at h with hless hequal
    · simp [ih (Option.map_eq_none_iff.mp h)]
    · simp only [snEqual, beq_iff_eq] at hequal
      simp [hequal]

/-- A frame is dropped late as RTP, or since its number is on the list. -/
def unitDrops (c : PoolCtrl) (e : Element) : Bool :=
  if (c.needCheck e.msdu.seqNum).2 then e.msdu.pkt.data 42 == 0x80 &&
    e.msdu.seqNum != (c.needCheck e.msdu.seqNum).1.indSn
  else (rxframeEnqueue e c.reordList).isNone

theorem unit_drops {c : PoolCtrl} {e : Element} (h : unitDrops c e = true) :
    (c.unit e).1.reordList = c.reordList ∧ (c.unit e).2 = [(e, .kfree e.msdu.pkt)] := by
  unfold unitDrops at h
  unfold PoolCtrl.unit
  have hlist : (c.needCheck e.msdu.seqNum).1.reordList = c.reordList := rfl
  dsimp only
  split_ifs at h ⊢ with hneed hrtp hsn
  · rw [Bool.and_eq_true, bne_iff_ne] at h
    exact absurd hsn h.2
  · exact ⟨rfl, rfl⟩
  · simp [hrtp] at h
  · have hnone : rxframeEnqueue e (c.needCheck e.msdu.seqNum).1.reordList = none :=
      Option.isNone_iff_eq_none.mp h
    rw [hnone]
    exact ⟨rfl, rfl⟩

theorem unit_faithful {c : PoolCtrl} {e : Element} (h : unitDrops c e = false) :
    Faithful (c.unit e).2 := by
  have hone : Faithful [(e, Ind.direct e.msdu)] := by
    intro x hx
    obtain rfl := List.mem_singleton.mp hx
    cases hf : e.msdu.forward <;> simp [Ind.netif, hf]
  unfold unitDrops at h
  unfold PoolCtrl.unit
  have hlist : (c.needCheck e.msdu.seqNum).1.reordList = c.reordList := rfl
  dsimp only
  split_ifs at h ⊢ with hneed hrtp hsn
  · exact hone
  · simp [hrtp, hsn] at h
  · exact hone
  · rw [hlist]
    cases hq : rxframeEnqueue e c.reordList with
    | none => simp [hq] at h
    | some l => exact faithful_ind _

theorem unit_counts (c : PoolCtrl) (e : Element) (k : ℕ) :
    handedUp ((c.unit e).2.map fun x => (x.1.skb, x.2)) k+
        (c.unit e).1.reordList.countP (awaited k) =
      c.reordList.countP (awaited k)+if awaited k e && !unitDrops c e then 1 else 0 := by
  cases h : unitDrops c e with
  | true =>
    obtain ⟨hlist, hout⟩ := unit_drops h
    rw [hlist, hout]
    simp [handedUp_single, Ind.netif]
  | false =>
    have hperm := (unit_moved c e).countP_eq (awaited k)
    rw [List.countP_append, List.countP_cons] at hperm
    rw [faithful_count (unit_faithful h)]
    simp only [Bool.not_false, Bool.and_true]
    omega

/-- A late frame is not the one expected. -/
theorem needCheck_late {c : PoolCtrl} {n : ℕ} (h : (c.needCheck n).2 = true) :
    n ≠ (c.needCheck n).1.indSn := by
  have hwindow : snLess n (c.needCheck n).1.indSn = true := by
    change snLess n (reordNeedCheck c.erase n).1.indSn = true
    change (reordNeedCheck c.erase n).2 = true at h
    unfold reordNeedCheck at h ⊢
    dsimp only at h ⊢
    by_cases hless : snLess n (if c.erase.indSn = 0xFFFF then n else c.erase.indSn) = true
    · rw [if_pos hless]
      exact hless
    · rw [if_neg hless] at h
      split_ifs at h
  intro heq
  rw [← heq, RxDataAccess.snLess_self] at hwindow
  cases hwindow

/-! ## The stations -/

/-- A control changes. For each buffer number, what its station hands up and keeps stays the same
but for what the call brings. -/
theorem putBack_counts {p : Pool} {r : PoolCtrl × List (Element × Ind)} {stas : List PoolInfo}
    {mac : List UInt8} {info : PoolInfo} {tid : ℕ} (hinfo : findInfo mac stas = some info)
    (htid : tid < 8) {k : ℕ} (new : ℕ)
    (hctrl : handedUp (r.2.map fun x => (x.1.skb, x.2)) k+r.1.reordList.countP (awaited k) =
      (info.preorderCtrl tid).reordList.countP (awaited k)+new) :
    handedUp (r.2.map fun x => (x.1.skb, x.2)) k+waiting (p.putBack stas mac tid r) k =
      (listed stas).countP (awaited k)+new := by
  have hput := (putInfo_listed hinfo htid r.1).countP_eq (awaited k)
  rw [List.countP_append, List.countP_append] at hput
  rw [waiting_eq]
  dsimp only [Pool.putBack]
  omega

/-- A station that is new has no list yet. -/
theorem lookupInfo_old {kmalloc : Bool} {p : Pool} {mac : List UInt8} {stas : List PoolInfo}
    {info : PoolInfo} (h : lookupInfo kmalloc p mac = some (stas, info)) :
    findInfo mac p.stasReordList = some info ∨ info = initSta mac := by
  unfold lookupInfo at h
  cases hfind : findInfo mac p.stasReordList with
  | some old =>
    rw [hfind] at h
    exact .inl (congrArg some (Prod.mk.inj (Option.some.inj h)).2)
  | none =>
    rw [hfind] at h
    dsimp only at h
    split_ifs at h
    exact .inr (Prod.mk.inj (Option.some.inj h)).2.symm

section Calls
variable {p q : Pool} {k : ℕ} {out : List (ℕ × Ind)}

theorem timeoutWorker_counts (p : Pool) (mac : List UInt8) (tid k : ℕ) :
    handedUp (p.timeoutWorker mac tid).2 k+waiting (p.timeoutWorker mac tid).1 k =
      waiting p k := by
  unfold Pool.timeoutWorker
  cases hinfo : findInfo mac p.stasReordList with
  | none => exact Nat.zero_add _
  | some info =>
    dsimp only
    by_cases htid : 8 ≤ tid
    · rw [if_pos htid]
      exact Nat.zero_add _
    · rw [if_neg htid]
      have hperm := (timeoutWorker_moved (info.preorderCtrl tid)).countP_eq (awaited k)
      rw [List.countP_append] at hperm
      refine putBack_counts hinfo (not_le.mp htid) 0 ?_
      have hup : Faithful (info.preorderCtrl tid).timeoutWorker.2 := faithful_ind _
      rw [faithful_count hup]
      omega

/-- A station is removed with all that waits for it. -/
theorem deinitSta_counts (p : Pool) (mac : List UInt8) (k : ℕ) :
    handedUp (p.deinitSta mac).2 k = 0 ∧
    waiting (p.deinitSta mac).1 k+
        (((findInfo mac p.stasReordList).map PoolInfo.elements).getD []).countP (awaited k) =
      waiting p k := by
  unfold Pool.deinitSta
  cases hinfo : findInfo mac p.stasReordList with
  | none => exact ⟨rfl, rfl⟩
  | some info =>
    constructor
    · simp only [handedUp, List.countP_map, List.countP_eq_zero]
      simp [Ind.netif]
    · have hperm := (eraseInfo_listed hinfo).countP_eq (awaited k)
      rw [List.countP_append] at hperm
      exact hperm

theorem timeoutWorker_listed (p : Pool) (mac : List UInt8) (tid : ℕ) :
    ∀ e ∈ listed (p.timeoutWorker mac tid).1.stasReordList, e ∈ listed p.stasReordList := by
  unfold Pool.timeoutWorker
  cases hinfo : findInfo mac p.stasReordList with
  | none => exact fun _ he => he
  | some info =>
    dsimp only
    split_ifs with htid
    · exact fun _ he => he
    · have hmoved := putBack_moved p [] _ hinfo (not_le.mp htid)
        (timeoutWorker_moved (info.preorderCtrl tid))
      exact fun e he => hmoved.mem_iff.mp (List.mem_append_left _ he)

theorem deinitSta_listed (p : Pool) (mac : List UInt8) :
    ∀ e ∈ listed (p.deinitSta mac).1.stasReordList, e ∈ listed p.stasReordList := by
  unfold Pool.deinitSta
  cases hinfo : findInfo mac p.stasReordList with
  | none => exact fun _ he => he
  | some info =>
    exact fun e he => (eraseInfo_listed hinfo).mem_iff.mp (List.mem_append_left _ he)

theorem flushTid_counts {t : IfType} (hvif : p.rwnxVif = some t) {skb : SkBuff} {tid : ℕ}
    (h : p.flushTid k skb tid = some (q, out)) (j : ℕ) :
    handedUp out j+waiting q j = waiting p j := by
  unfold Pool.flushTid at h
  rw [hvif] at h
  dsimp only at h
  cases hmac : reordMac t skb with
  | none =>
    rw [hmac] at h
    obtain ⟨rfl, rfl⟩ := Prod.mk.inj (Option.some.inj h)
    simp [handedUp_single, Ind.netif]
  | some mac =>
    rw [hmac] at h
    dsimp only at h
    cases hinfo : findInfo mac p.stasReordList with
    | none =>
      rw [hinfo] at h
      obtain ⟨rfl, rfl⟩ := Prod.mk.inj (Option.some.inj h)
      exact Nat.zero_add _
    | some info =>
      rw [hinfo] at h
      dsimp only at h
      split_ifs at h with htid henable
      · obtain ⟨rfl, rfl⟩ := Prod.mk.inj (Option.some.inj h)
        have hctrl := faithful_count (faithful_listed (info.preorderCtrl tid).reordList) j
        have hput := putBack_counts (p := p) (r := ((info.preorderCtrl tid).flushed,
          (info.preorderCtrl tid).reordList.map fun e => (e, Ind.listed e.msdu))) hinfo
          (not_le.mp htid) (k := j) 0 (by
            rw [hctrl]
            simp [PoolCtrl.flushed, Function.comp_def])
        rw [List.map_map] at hput
        exact hput
      · obtain ⟨rfl, rfl⟩ := Prod.mk.inj (Option.some.inj h)
        exact Nat.zero_add _

/-- Whether the frame passed is handed up or waits, and what is known if not. -/
theorem processUnit_counts {kmalloc forward : Bool} {t : IfType} (hvif : p.rwnxVif = some t)
    {r : Ready} (hmac : (reordMac t r.skb).isSome = true)
    (h : p.processUnit kmalloc k ⟨r.skb, r.seqNum, r.tid, forward⟩ = some (q, out)) :
    ∃ up : Bool, (∀ j, handedUp out j+waiting q j =
        waiting p j+if j = k ∧ up = true then 1 else 0) ∧
      (up = true → forward = true ∧ dropped kmalloc p t r = false) ∧
      (up = false → forward = false ∨ dropped kmalloc p t r = true ∨
        ((reordMac t r.skb).bind fun mac => findInfo mac p.stasReordList).any (fun info =>
          (info.preorderCtrl r.tid).reordList.any fun e => e.msdu.seqNum == r.seqNum) = true) := by
  have hsingle : ∀ (p' : Pool) (i : Ind), p'.stasReordList = p.stasReordList →
      some (p', [(k, i)]) = some (q, out) → ∀ j, handedUp out j+waiting q j =
        waiting p j+if j = k ∧ i.netif.isSome = true then 1 else 0 := by
    intro p' i hstas heq j
    obtain ⟨rfl, rfl⟩ := Prod.mk.inj (Option.some.inj heq)
    rw [handedUp_single, waiting_eq, waiting_eq, hstas]
    exact Nat.add_comm _ _
  have hfreed : ∀ (p' : Pool), p'.stasReordList = p.stasReordList →
      some (p', [(k, .kfree r.skb)]) = some (q, out) → ∀ j, handedUp out j+waiting q j =
        waiting p j+if j = k ∧ false = true then 1 else 0 :=
    fun p' hstas heq => hsingle p' _ hstas heq
  unfold Pool.processUnit at h
  rw [hvif] at h
  dsimp only at h
  by_cases hlen : r.skb.len ≤ 14
  · rw [if_pos hlen] at h
    exact ⟨false, hfreed p rfl h, by simp, by simp [dropped, hlen]⟩
  rw [if_neg hlen] at h
  cases hfree : p.rxframesFreequeue with
  | nil =>
    rw [hfree] at h
    exact ⟨false, hfreed p rfl h, by simp, by simp [dropped, hfree]⟩
  | cons id free =>
    rw [hfree] at h
    dsimp only at h
    by_cases hdirect : ethProto r.skb = ETH_P_PAE ∨ isMcast r.skb = true
    · rw [if_pos hdirect] at h
      have hkept : dropped kmalloc p t r = false := by simp [dropped, hlen, hfree, hdirect]
      have hnetif : (Ind.direct (RxUnit.msdu ⟨r.skb, r.seqNum, r.tid, forward⟩)).netif.isSome =
          forward := by
        cases forward <;> simp [Ind.netif, RxUnit.msdu]
      have hcounts := hsingle p _ rfl h
      rw [hnetif] at hcounts
      exact ⟨forward, hcounts, fun hf => ⟨hf, hkept⟩, .inl⟩
    rw [if_neg hdirect] at h
    obtain ⟨mac, hmac⟩ := Option.isSome_iff_exists.mp hmac
    rw [hmac] at h
    dsimp only at h
    cases hlook : lookupInfo kmalloc p mac with
    | none =>
      rw [hlook] at h
      dsimp only at h
      refine ⟨false, hfreed { p with rwnxVif := some t, rxframesFreequeue := free } rfl h,
        by simp, ?_⟩
      simp [dropped, hdirect, hmac, hlook]
    | some x =>
      obtain ⟨stas, info⟩ := x
      rw [hlook] at h
      dsimp only at h
      obtain ⟨hinfo, hsame⟩ := lookupInfo_listed hlook
      split_ifs at h with htid
      obtain ⟨rfl, rfl⟩ := Prod.mk.inj (Option.some.inj h)
      have hlate := RxDataAccess.late_iff (r := r) hmac hlook
      have hdrop : dropped kmalloc p t r = (late p t r && r.skb.data 42 == 0x80) := by
        simp [dropped, hlen, hfree, hdirect, hmac, hlook]
      refine ⟨forward && !unitDrops (info.preorderCtrl r.tid).reenable
        ⟨id, k, r.skb, r.tid, r.seqNum, forward⟩, ?_, ?_, ?_⟩
      · intro j
        have hunit := unit_counts (info.preorderCtrl r.tid).reenable
          ⟨id, k, r.skb, r.tid, r.seqNum, forward⟩ j
        rw [reenable_list] at hunit
        apply (putBack_counts hinfo (not_le.mp htid) _ hunit).trans
        rw [hsame, waiting_eq]
        congr 1
        simp only [awaited, Bool.and_eq_true, beq_iff_eq, and_assoc, eq_comm (a := k)]
      · intro hup
        rw [Bool.and_eq_true, Bool.not_eq_true'] at hup
        refine ⟨hup.1, ?_⟩
        rw [hdrop, ← hlate]
        by_contra hno
        simp only [Bool.not_eq_false, Bool.and_eq_true, beq_iff_eq] at hno
        have hrtp := needCheck_late hno.1
        have hall := hup.2
        simp [unitDrops, hno, hrtp] at hall
      · intro hdown
        by_cases hforward : forward = true
        · refine .inr ?_
          have hdrops : unitDrops (info.preorderCtrl r.tid).reenable
              ⟨id, k, r.skb, r.tid, r.seqNum, forward⟩ = true := by simpa [hforward] using hdown
          unfold unitDrops at hdrops
          split_ifs at hdrops with hneed
          · rw [Bool.and_eq_true] at hdrops
            rw [hlate] at hneed
            exact .inl (by rw [hdrop, hneed, hdrops.1]; rfl)
          · have hnone := enqueue_none (Option.isNone_iff_eq_none.mp hdrops)
            rw [reenable_list] at hnone
            have hfound : findInfo mac p.stasReordList = some info := by
              rcases lookupInfo_old hlook with hold | hnew
              · exact hold
              · rw [hnew] at hnone
                cases hnone
            exact .inr (by rw [hmac, Option.bind_some, hfound]; exact hnone)
        · exact .inl (Bool.eq_false_iff.mpr hforward)

end Calls

end AIC.RxRelayQueue
