import Aic8800.TxqTurns

/-!
# Ready txqs

A txq is linked once in the list of its own hardware queue exactly while its
status says so, and a linked txq passes the checks of `rwnx_hwq_process`. Both
hold along every run in which no linked txq is initialised again, credits do not
wrap, and packets and group requests find their txq in use.
-/

set_option autoImplicit false

namespace AIC.TxqMembership
open AIC.TxqMachine Lib.GuardedRun

/-- The lists agree with the status bits, and a linked txq passes the checks. -/
structure Scheduled (hw : Hw) : Prop where
  linked : ∀ q k, (hw.hwq q).list.count k =
    if (hw.txq k).inHwqList = true ∧ (hw.txq k).hwq = some q then 1 else 0
  fit : ∀ q, ∀ k ∈ (hw.hwq q).list,
    (hw.txq k).active = true ∧ 0 < (hw.txq k).credits ∧ (hw.txq k).skList ≠ []

/-- No linked txq is initialised, a buffer is queued on a txq in use, a retry does not wrap the
credits, and a request for group addressed frames finds the txq in use and not empty. -/
def Orderly (hw : Hw) : Act → Prop
  | .startAp vif _ => (hw.txq (.bcmc vif)).inHwqList = false ∧ (hw.txq (.unk vif)).inHwqList = false
  | .addStation i _ _ _ => ∀ k ∈ (StaId.unicast i).txqs, (hw.txq k).inHwqList = false
  | .smConnectInd i vif _ tdls =>
    (∀ k ∈ (StaId.unicast i).txqs, (hw.txq k).inHwqList = false) ∧
      (tdls = true → (hw.txq (.unk vif)).inHwqList = false)
  | .txqUnkVifInit vif => (hw.txq (.unk vif)).inHwqList = false
  | .txqOffchanInit => (hw.txq .offchan).inHwqList = false
  | .xmit d _ _ => (hw.txq d.txq).active = true
  | .txdatacfm i busDown retry => ∀ f ∈ hw.pushed[i]?, busDown = false → retry = true →
      f.skb.mgmt = false → (hw.txq f.txq).active = true → (hw.txq f.txq).credits < 127
  | .psBhTrafficReq (.multicast vif) req p =>
    ¬ (req = PS_SP_INTERRUPTED ∧ p = .uapsd) → hw.spStarts (.multicast vif) p →
      (hw.txq (.bcmc vif)).active = true ∧ (hw.txq (.bcmc vif)).skList ≠ []
  | _ => True

instance (hw : Hw) (a : Act) : Decidable (Orderly hw a) := by
  cases a with
  | psBhTrafficReq s req p => cases s <;> dsimp only [Orderly] <;> infer_instance
  | txdatacfm i busDown retry =>
    dsimp only [Orderly]
    infer_instance
  | _ =>
    dsimp only [Orderly]
    infer_instance

/-! ## The buffers to be sent again -/

/-- They come first, and the last of them is remembered. -/
structure Retried (n : ℕ) (last : Option ℕ) (l : List Skb) : Prop where
  none : n = 0 → last = none
  some : 0 < n → ∃ i ∈ last, i ∈ (l.drop (n-1)).map Skb.id

theorem Retried.append {n : ℕ} {last : Option ℕ} {l : List Skb} (h : Retried n last l)
    (m : List Skb) : Retried n last (l++m) := by
  refine ⟨h.none, fun hn => ?_⟩
  obtain ⟨i, hi, hmem⟩ := h.some hn
  refine ⟨i, hi, ?_⟩
  rw [List.drop_append, List.map_append]
  exact List.mem_append_left _ hmem

/-- A buffer is put behind one that is in the list, and not before it. -/
theorem skbAppend_some {old : ℕ} (skb : Skb) {l : List Skb} {n : ℕ}
    (h : old ∈ (l.drop n).map Skb.id) :
    ∃ m, Txq.skbAppend old skb l = some m ∧ skb ∈ m.drop (n+1) := by
  induction l generalizing n with
  | nil => simp at h
  | cons x xs ih =>
    unfold Txq.skbAppend
    cases hxs : Txq.skbAppend old skb xs with
    | some ys =>
      refine ⟨x::ys, rfl, ?_⟩
      cases n with
      | zero => exact (skbAppend_perm hxs).mem_iff.mpr List.mem_cons_self
      | succ n =>
        obtain ⟨m, hm, hmem⟩ := ih h
        obtain rfl := Option.some.inj (hxs.symm.trans hm)
        exact hmem
    | none =>
      have hout : ∀ m, old ∉ (xs.drop m).map Skb.id := by
        intro m hm
        obtain ⟨ys, hys, -⟩ := ih hm
        rw [hxs] at hys
        cases hys
      cases n with
      | zero =>
        have hx : x.id = old := by
          rcases List.mem_cons.mp h with hx | hx
          · exact hx.symm
          · exact absurd hx (hout 0)
        exact ⟨x::skb::xs, if_pos hx, List.mem_cons_self⟩
      | succ n => exact absurd h (hout n)

theorem enqueue_some {t : Txq} (h : Retried t.nbRetry t.lastRetrySkb t.skList) (skb : Skb)
    (retry : Bool) :
    ∃ u, t.enqueue skb retry = some u ∧ Retried u.nbRetry u.lastRetrySkb u.skList := by
  unfold Txq.enqueue
  cases retry with
  | false => exact ⟨_, rfl, h.append [skb]⟩
  | true =>
    have hpos : ¬ t.nbRetry+1 = 0 := Nat.succ_ne_zero _
    rcases Nat.eq_zero_or_pos t.nbRetry with hn | hn
    · rw [h.none hn]
      refine ⟨_, rfl, fun hno => absurd hno hpos, fun _ => ⟨skb.id, rfl, ?_⟩⟩
      simp [hn]
    · obtain ⟨i, hi, hmem⟩ := h.some hn
      obtain ⟨m, hm, hskb⟩ := skbAppend_some skb hmem
      rw [Option.mem_def.mp hi]
      dsimp only
      rw [hm]
      refine ⟨_, rfl, fun hno => absurd hno hpos, fun _ => ⟨skb.id, rfl, ?_⟩⟩
      rw [Nat.sub_add_cancel hn] at hskb
      exact List.mem_map_of_mem hskb

/-- The first of them is pushed. -/
theorem Retried.push {n : ℕ} {last : Option ℕ} {x : Skb} {l : List Skb}
    (h : Retried n last (x::l)) : Retried (n-1) (if n = 1 then .none else last) l := by
  rcases Nat.lt_trichotomy n 1 with hn | hn | hn
  · obtain rfl : n = 0 := by omega
    exact ⟨fun _ => h.none rfl, fun hno => absurd hno (Nat.lt_irrefl 0)⟩
  · subst hn
    exact ⟨fun _ => rfl, fun hno => absurd hno (Nat.lt_irrefl 0)⟩
  · obtain ⟨m, rfl⟩ : ∃ m, n = m+2 := ⟨n-2, by omega⟩
    obtain ⟨i, hi, hmem⟩ := h.some (Nat.succ_pos _)
    refine ⟨fun hno => by omega, fun _ => ⟨i, by simpa using hi, hmem⟩⟩

theorem Retried.pushes {t : Txq} {l : List Skb} {n : ℕ} (hn : n ≤ l.length)
    (h : Retried t.nbRetry t.lastRetrySkb l) :
    Retried (Txq.push^[n] t).nbRetry (Txq.push^[n] t).lastRetrySkb (l.drop n) := by
  induction n generalizing t l with
  | zero => exact h
  | succ n ih =>
    cases l with
    | nil => cases hn
    | cons x l => exact ih (Nat.le_of_succ_le_succ hn) h.push

/-! ## The entry of a txq -/

/-- What keeps the checks of a linked txq true, whatever links it. -/
structure Kept (k : TxqId) (t : Txq) : Prop where
  ready : t.inHwqList = true → t.active = true ∧ t.skList ≠ []
  idle : t.active = false → t.skList = []
  credits : 0 ≤ t.credits ∧ t.credits < 128
  funded : t.active = true → 0 < t.credits
  period : t.active = true → t.pushLimit ≠ 0 → t.pushLimit ≤ t.skList.length ∨
    (t.sta ≠ none ∧ t.psId = .legacy) ∧ t.skList ≠ []
  retried : t.active = true → Retried t.nbRetry t.lastRetrySkb t.skList
  housed : t.active = true → t.hwq = some k.home
  owned : t.active = true → t.sta = k.owner ∧ ∀ vif, k = .bcmc vif → t.psId = .legacy

theorem kept_blank (k : TxqId) : Kept k .blank where
  ready h := by cases h
  idle _ := rfl
  credits := by decide
  funded h := by cases h
  period h := by cases h
  retried h := by cases h
  housed h := by cases h
  owned h := by cases h

theorem kept_fresh (k : TxqId) (status : Finset StopReason) {psId : PsId}
    (h : ∀ vif, k = .bcmc vif → psId = .legacy) :
    Kept k (.fresh k status k.home k.owner psId) where
  ready h := by cases h
  idle _ := rfl
  credits := show 0 ≤ NX_TXQ_INITIAL_CREDITS ∧ NX_TXQ_INITIAL_CREDITS < 128 by decide
  funded _ := show 0 < NX_TXQ_INITIAL_CREDITS by decide
  period _ h := absurd rfl h
  retried _ := ⟨fun _ => rfl, fun h => absurd h (Nat.lt_irrefl 0)⟩
  housed _ := rfl
  owned _ := ⟨rfl, h⟩

variable {k : TxqId} {t u : Txq}

theorem Kept.stocked (h : Kept k t) (hact : t.active = true) (hlimit : t.pushLimit ≠ 0) :
    t.skList ≠ [] := by
  rcases h.period hact hlimit with hle | ⟨-, hne⟩
  · rintro hnil
    rw [hnil] at hle
    exact hlimit (Nat.le_zero.mp hle)
  · exact hne

theorem Kept.unlinked (h : Kept k t) : Kept k { t with inHwqList := false } :=
  ⟨fun hno => (Bool.false_ne_true hno).elim, h.idle, h.credits, h.funded, h.period, h.retried,
    h.housed, h.owned⟩

theorem Kept.linked (h : Kept k t) (hact : t.active = true) (hready : t.skList ≠ []) :
    Kept k { t with inHwqList := true } :=
  ⟨fun _ => ⟨hact, hready⟩, h.idle, h.credits, h.funded, h.period, h.retried, h.housed, h.owned⟩

theorem Kept.limit (h : Kept k t) {n : ℕ} (hn : t.active = true → n ≠ 0 →
    n ≤ t.skList.length ∨ (t.sta ≠ none ∧ t.psId = .legacy) ∧ t.skList ≠ []) :
    Kept k { t with pushLimit := n } :=
  ⟨h.ready, h.idle, h.credits, h.funded, hn, h.retried, h.housed, h.owned⟩

theorem Kept.deinited (h : Kept k t) : Kept k t.deinited := by
  unfold Txq.deinited
  cases hact : t.active with
  | false =>
    rw [if_neg Bool.false_ne_true]
    exact h
  | true =>
    rw [if_pos rfl]
    exact {
      ready := fun hno => (Bool.false_ne_true hno).elim
      idle := fun _ => rfl
      credits := h.credits
      funded := fun hno => (Bool.false_ne_true hno).elim
      period := fun hno => (Bool.false_ne_true hno).elim
      retried := fun hno => (Bool.false_ne_true hno).elim
      housed := fun hno => (Bool.false_ne_true hno).elim
      owned := fun hno => (Bool.false_ne_true hno).elim }

/-- A buffer more. -/
theorem Kept.enqueued {skb : Skb} {retry : Bool} (h : Kept k t) (hact : t.active = true)
    (hu : t.enqueue skb retry = some u) (hagain : Retried u.nbRetry u.lastRetrySkb u.skList) :
    Kept k u.flowCtrlStop ∧ u.flowCtrlStop.active = true ∧ u.flowCtrlStop.skList ≠ [] := by
  obtain ⟨hlike, hbit, hlimit, hperm⟩ := enqueue_view hu
  have hlen : u.skList.length = t.skList.length+1 := hperm.length_eq
  have hne : u.skList ≠ [] := by
    rintro hnil
    rw [hnil] at hlen
    cases hlen
  have huact : u.active = true := hlike.active.trans hact
  refine ⟨⟨fun _ => ⟨huact, hne⟩, fun hno => ?_, ?_, fun _ => ?_, fun _ hp => ?_, fun _ => hagain,
    fun _ => ?_, fun _ => ?_⟩, huact, hne⟩
  · rw [show u.flowCtrlStop.active = true from huact] at hno
    cases hno
  · show 0 ≤ u.credits ∧ u.credits < 128
    rw [hlike.credits]
    exact h.credits
  · show 0 < u.credits
    rw [hlike.credits]
    exact h.funded hact
  · show u.pushLimit ≤ u.skList.length ∨ (u.sta ≠ none ∧ u.psId = .legacy) ∧ u.skList ≠ []
    rw [hlimit, hlen, hlike.sta, hlike.psId]
    rcases h.period hact (hlimit ▸ hp) with hle | ⟨hid, -⟩
    · exact .inl (Nat.le_succ_of_le hle)
    · exact .inr ⟨hid, hne⟩
  · exact hlike.hwq.trans (h.housed hact)
  · show u.sta = k.owner ∧ ∀ vif, k = .bcmc vif → u.psId = .legacy
    rw [hlike.sta, hlike.psId]
    exact h.owned hact

/-- What is left in the list is enough for the rest of a service period. -/
theorem Kept.finished (h : Kept k t) (hact : t.active = true) (q : HwqId) :
    Kept k (t.finished q) := by
  have hlike := like_finished t q
  have hfact : (t.finished q).active = true := hlike.active.trans hact
  constructor
  · intro hbit
    rw [finished_inHwqList, Bool.and_eq_true, Bool.not_eq_true'] at hbit
    refine ⟨hfact, ?_⟩
    rw [finished_skList]
    exact List.drop_eq_nil_iff.not.mpr (not_le.mpr (getSkbToPush_more (h.ready hbit.1).2 hbit.2))
  · intro hno
    rw [hfact] at hno
    cases hno
  · rw [hlike.credits]
    exact h.credits
  · intro _
    rw [hlike.credits]
    exact h.funded hact
  · intro _ hp
    left
    rw [finished_pushLimit] at hp ⊢
    split at hp
    · exact absurd rfl hp
    · rename_i hid
      rw [if_neg hid, finished_skList, List.length_drop]
      rcases h.period hact (fun hz => hp (by rw [hz, Nat.zero_sub])) with hle | ⟨hid', -⟩
      · exact Nat.sub_le_sub_right hle _
      · exact absurd hid' hid
  · intro _
    obtain ⟨hn, hlast⟩ := finished_retry t q
    rw [hn, hlast, finished_skList]
    exact Retried.pushes (t := { t with skList := t.skList.drop t.getSkbToPush.1 })
      (getSkbToPush_le t) (h.retried hact)
  · intro _
    exact hlike.hwq.trans (h.housed hact)
  · intro _
    rw [hlike.sta, hlike.psId]
    exact h.owned hact

/-! ## The lists -/

structure Sched (hw : Hw) : Prop where
  txqs : ∀ k, Kept k (hw.txq k)
  lists : ∀ q k, k ∈ (hw.hwq q).list ↔ (hw.txq k).inHwqList = true ∧ (hw.txq k).hwq = some q

variable {hw hw' : Hw}

theorem Sched.scheduled (h : Sched hw) : Scheduled hw := by
  constructor
  · intro q k
    split
    · rename_i hin
      exact List.count_eq_one_of_mem (hw.hwq q).linkedOnce ((h.lists q k).mpr hin)
    · rename_i hout
      exact List.count_eq_zero.mpr fun hmem => hout ((h.lists q k).mp hmem)
  · intro q k hk
    obtain ⟨hact, hready⟩ := (h.txqs k).ready ((h.lists q k).mp hk).1
    exact ⟨hact, (h.txqs k).funded hact, hready⟩

/-- One txq is changed, and neither its bit nor, while it is linked, its queue. -/
theorem Sched.put (h : Sched hw) (htxq : hw'.txq = Function.update hw.txq k t)
    (hhwq : ∀ q, (hw'.hwq q).list = (hw.hwq q).list) (hkept : Kept k t)
    (hbit : t.inHwqList = (hw.txq k).inHwqList)
    (hown : t.inHwqList = true → t.hwq = (hw.txq k).hwq) : Sched hw' := by
  constructor
  · intro j
    rw [htxq]
    by_cases hj : j = k
    · subst hj
      rwa [Function.update_self]
    · rw [Function.update_of_ne hj]
      exact h.txqs j
  · intro q j
    rw [htxq, hhwq, h.lists q j]
    by_cases hj : j = k
    · subst hj
      rw [Function.update_self, ← hbit]
      exact and_congr_right fun hin => by rw [hown hin]
    · rw [Function.update_of_ne hj]

theorem Sched.same (h : Sched hw) (htxq : hw'.txq = hw.txq)
    (hhwq : ∀ q, (hw'.hwq q).list = (hw.hwq q).list) : Sched hw' := by
  constructor
  · rw [htxq]
    exact h.txqs
  · intro q k
    rw [htxq, hhwq]
    exact h.lists q k

/-- A txq in use that has buffers can be linked. -/
theorem Sched.add (h : Sched hw) (hact : (hw.txq k).active = true)
    (hready : (hw.txq k).skList ≠ []) : ∃ hw', hw.addToHwList k = some hw' ∧ Sched hw' := by
  unfold Hw.addToHwList
  by_cases hbit : (hw.txq k).inHwqList = true
  · exact ⟨hw, if_pos hbit, h⟩
  have hhome := (h.txqs k).housed hact
  have hout : k ∉ (hw.hwq k.home).list := fun hmem => hbit ((h.lists _ k).mp hmem).1
  rw [if_neg hbit, hhome]
  dsimp only
  rw [dif_neg hout]
  refine ⟨_, rfl, ?_, ?_⟩
  · exact (changes_setTxq hw k { hw.txq k with inHwqList := true }).forall h.txqs
      ((h.txqs k).linked hact hready)
  · intro q j
    show j ∈ (Function.update hw.hwq k.home ((hw.hwq k.home).addTail k hout) q).list ↔
      (Function.update hw.txq k { hw.txq k with inHwqList := true } j).inHwqList = true ∧
        (Function.update hw.txq k { hw.txq k with inHwqList := true } j).hwq = some q
    have hj : ∀ q, j ∈ (Function.update hw.hwq k.home ((hw.hwq k.home).addTail k hout) q).list ↔
        j ∈ (hw.hwq q).list ∨ j = k ∧ q = k.home := by
      intro q
      by_cases hq : q = k.home
      · subst hq
        rw [Function.update_self]
        simp [Hwq.addTail]
      · rw [Function.update_of_ne hq]
        simp [hq]
    rw [hj, h.lists q j]
    by_cases hjk : j = k
    · subst hjk
      simp [hhome, hbit, eq_comm]
    · rw [Function.update_of_ne hjk]
      simp [hjk]

theorem lists_del (h : ∀ q k, k ∈ (hw.hwq q).list ↔
    (hw.txq k).inHwqList = true ∧ (hw.txq k).hwq = some q) (q : HwqId) (j : TxqId) :
    j ∈ ((hw.hwq q).del k).list ↔ j ≠ k ∧ (hw.txq j).inHwqList = true ∧ (hw.txq j).hwq = some q := by
  rw [← h q j]
  exact (hw.hwq q).linkedOnce.mem_erase_iff

theorem Sched.del (h : Sched hw) (k : TxqId) : Sched (hw.delFromHwList k) := by
  have hch := delFromHwList_changes hw k
  constructor
  · exact hch.forall h.txqs (h.txqs k).unlinked
  · intro q j
    by_cases hbit : (hw.txq k).inHwqList = true
    · have hhwq : (hw.delFromHwList k).hwq q = (hw.hwq q).del k := by
        unfold Hw.delFromHwList
        rw [if_pos hbit]
      rw [hhwq, lists_del h.lists]
      by_cases hj : j = k
      · subst hj
        simp [hch.at]
      · rw [hch.off hj]
        simp [hj]
    · have hsame : hw.delFromHwList k = hw := if_neg hbit
      rw [hsame]
      exact h.lists q j

/-! ## The operations -/

theorem Sched.init (h : Sched hw) (hbit : (hw.txq k).inHwqList = false)
    {status : Finset StopReason} {psId : PsId} (hid : ∀ vif, k = .bcmc vif → psId = .legacy) :
    Sched (hw.txqInit k status k.home k.owner psId) :=
  h.put rfl (fun _ => rfl) (kept_fresh k status hid) hbit.symm fun hno => by cases hno

theorem Sched.deinit (h : Sched hw) (k : TxqId) : Sched (hw.txqDeinit k) := by
  have hch := txqDeinit_changes hw k
  by_cases hact : (hw.txq k).active = true
  · have hdel := h.del k
    have hbit : ((hw.delFromHwList k).txq k).inHwqList = false := by
      rw [(delFromHwList_changes hw k).at]
    have heq : (hw.txqDeinit k).hwq = (hw.delFromHwList k).hwq := by
      unfold Hw.txqDeinit
      rw [if_neg (by simp [hact])]
      rfl
    have hgone : (hw.txq k).deinited.inHwqList = false := by
      unfold Txq.deinited
      rw [if_pos hact]
    apply hdel.put (t := (hw.txq k).deinited)
    · rw [hch.txq, (delFromHwList_changes hw k).txq, Function.update_idem]
    · exact fun q => by rw [heq]
    · exact (h.txqs k).deinited
    · rw [hbit, hgone]
    · rw [hgone]
      exact fun hno => by cases hno
  · have hsame : hw.txqDeinit k = hw := by
      unfold Hw.txqDeinit
      rw [if_pos (by simp [hact])]
    rwa [hsame]

theorem Sched.stop (h : Sched hw) (k : TxqId) (reason : Finset StopReason) :
    Sched (hw.txqStop k reason) := by
  unfold Hw.txqStop
  split
  · have hk := h.txqs k
    have hset : Sched (hw.setTxq k { hw.txq k with stops := (hw.txq k).stops ∪ reason }) :=
      h.put rfl (fun _ => rfl) ⟨hk.ready, hk.idle, hk.credits, hk.funded, hk.period, hk.retried,
        hk.housed, hk.owned⟩ rfl fun _ => rfl
    exact hset.del k
  · exact h

theorem Sched.start (h : Sched hw) (k : TxqId) (reason : Finset StopReason) :
    ∃ hw', hw.txqStart k reason = some hw' ∧ Sched hw' := by
  unfold Hw.txqStart
  split
  · rename_i hgo
    have hk := h.txqs k
    have hset : Sched (hw.setTxq k { hw.txq k with stops := (hw.txq k).stops \ reason }) :=
      h.put rfl (fun _ => rfl) ⟨hk.ready, hk.idle, hk.credits, hk.funded, hk.period, hk.retried,
        hk.housed, hk.owned⟩ rfl fun _ => rfl
    dsimp only
    split
    · rename_i hready
      apply hset.add
      · exact (congrArg Txq.active (changes_setTxq hw k _).at).trans hgo.1
      · rw [(changes_setTxq hw k _).at]
        exact hready.2
    · exact ⟨_, rfl, hset⟩
  · exact ⟨hw, rfl, h⟩

theorem Sched.queue (h : Sched hw) (hact : (hw.txq k).active = true) (skb : Skb) (retry : Bool) :
    ∃ hw', hw.txqQueueSkb k skb retry = some hw' ∧ Sched hw' := by
  obtain ⟨u, hu, hagain⟩ := enqueue_some ((h.txqs k).retried hact) skb retry
  obtain ⟨hkept, huact, hready⟩ := (h.txqs k).enqueued hact hu hagain
  obtain ⟨hlike, hbit, -, -⟩ := enqueue_view hu
  have hset : Sched ((hw.psQueue k).setTxq k u.flowCtrlStop) := by
    apply h.put (t := u.flowCtrlStop)
    · rw [(changes_setTxq _ k _).txq, (psQueue_frame hw k).1]
    · exact fun q => by rw [← (psQueue_frame hw k).2.1]; rfl
    · exact hkept
    · exact hbit
    · exact fun _ => hlike.hwq
  unfold Hw.txqQueueSkb
  rw [hu]
  show ∃ hw', (if u.Stopped then some ((hw.psQueue k).setTxq k u.flowCtrlStop)
    else ((hw.psQueue k).setTxq k u.flowCtrlStop).addToHwList k) = some hw' ∧ Sched hw'
  split
  · exact ⟨_, rfl, hset⟩
  · apply hset.add
    · rwa [(changes_setTxq _ k _).at]
    · rwa [(changes_setTxq _ k _).at]

theorem Sched.serve (h : Sched hw) (q : HwqId) (hbit : (hw.txq k).inHwqList = true)
    (hact : (hw.txq k).active = true) : Sched (hw.serve q k) := by
  have hview := (serve_view hw q k).1
  have hlike := like_finished (hw.txq k) q
  constructor
  · intro j
    rw [hview]
    by_cases hj : j = k
    · subst hj
      rw [Function.update_self]
      exact (h.txqs j).finished hact q
    · rw [Function.update_of_ne hj]
      exact h.txqs j
  · intro p j
    have hself : ((hw.serve q k).txq k).inHwqList = ((hw.txq k).inHwqList &&
        !(hw.txq k).getSkbToPush.2) := by
      rw [hview, Function.update_self]
      exact finished_inHwqList _ q
    have hown : ((hw.serve q k).txq k).hwq = (hw.txq k).hwq := by
      rw [hview, Function.update_self]
      exact hlike.hwq
    rw [serve_mem hw q p j hbit, h.lists p j]
    by_cases hj : j = k
    · subst hj
      rw [hself, hown, hbit]
      cases (hw.txq j).getSkbToPush.2 <;> simp
    · have hoff : (hw.serve q k).txq j = hw.txq j := by
        rw [hview, Function.update_of_ne hj]
      rw [hoff]
      exact and_iff_left fun _ => hj

theorem Sched.process (h : Sched hw) (q : HwqId) : ∃ hw', hw.hwqProcess q = some hw' ∧ Sched hw' := by
  have hstart : Sched (hw.setHwq q { hw.hwq q with needProcessing := false }) :=
    Sched.same h rfl fun p => setProcessing_list hw q p false
  apply Lib.CursorLoop.loop_progress (fun hw => (hw.hwq q).linkedOnce)
    (fun _ _ _ hk h => processTxq_shrinks hk h) _ (fun _ hk => List.mem_of_mem_head? hk) hstart
    le_rfl
  intro hw k hk hs
  have hbit := ((hs.lists q k).mp hk).1
  obtain ⟨hact, hready⟩ := (hs.txqs k).ready hbit
  exact ⟨_, processTxq_serve hbit hact ((hs.txqs k).funded hact) hready, hs.serve q hbit hact⟩

/-- A loop of functions that go through. -/
theorem exec_sched {α : Type} {f : Hw → α → Option Hw}
    (hf : ∀ hw a, Sched hw → ∃ hw', f hw a = some hw' ∧ Sched hw') (h : Sched hw) (l : List α) :
    ∃ hw', exec f hw l = some hw' ∧ Sched hw' :=
  exec_progress (P := fun _ _ => True) (fun hw a _ hs => hf hw a hs) h
    (meets_of_forall (fun _ _ => trivial) hw l)

theorem Sched.processAll (h : Sched hw) : ∃ hw', hw.hwqProcessAll = some hw' ∧ Sched hw' := by
  apply exec_sched _ h
  intro hw q hs
  split
  · exact hs.process q
  · exact ⟨hw, rfl, hs⟩

/-- The txqs of a station are initialised one after the other. -/
theorem Sched.staInit (h : Sched hw) (i : ℕ) (status : Finset StopReason)
    (hbits : ∀ k ∈ (StaId.unicast i).txqs, (hw.txq k).inHwqList = false) :
    Sched (hw.txqStaInit (.unicast i) status) := by
  have hloop : Sched (hw.txqStaInit (.unicast i) status) ∧ ∀ k ∈ (StaId.unicast i).txqs,
      ((hw.txqStaInit (.unicast i) status).txq k).inHwqList = false := by
    apply List.foldlRecOn (motive := fun hw : Hw => Sched hw ∧
      ∀ k ∈ (StaId.unicast i).txqs, (hw.txq k).inHwqList = false) _ _ ⟨h, hbits⟩
    rintro hw ⟨hs, hbits⟩ k hk
    have howner : k.owner = some (.unicast i) := mem_txqs_iff.mp hk
    constructor
    · rw [← howner]
      apply hs.init (hbits k hk)
      rintro vif rfl
      cases howner
    · intro j hj
      show (Function.update hw.txq k _ j).inHwqList = false
      by_cases hjk : j = k
      · subst hjk
        rw [Function.update_self]
        rfl
      · rw [Function.update_of_ne hjk]
        exact hbits j hj
  exact hloop.1

theorem Sched.unkVifInit (h : Sched hw) {vif : ℕ} (hbit : (hw.txq (.unk vif)).inHwqList = false) :
    Sched (hw.txqUnkVifInit vif) :=
  h.init (k := .unk vif) hbit fun _ hno => by cases hno

theorem Sched.vifInit (h : Sched hw) {vif : ℕ} {status : Finset StopReason}
    (hbcmc : (hw.txq (.bcmc vif)).inHwqList = false) (hunk : (hw.txq (.unk vif)).inHwqList = false) :
    Sched (hw.txqVifInit vif status) := by
  have hfirst : Sched (hw.txqInit (.bcmc vif) status .be (some (.multicast vif)) .legacy) :=
    h.init (k := .bcmc vif) hbcmc fun _ _ => rfl
  apply hfirst.init (k := .unk vif) _ fun _ hno => by cases hno
  have hoff := (changes_setTxq hw (.bcmc vif) (.fresh (.bcmc vif) status .be (some (.multicast vif))
    .legacy)).off (j := .unk vif) (by simp)
  exact (congrArg Txq.inHwqList hoff).trans hunk

/-! ## Power save -/

theorem Sched.setLimit (h : Sched hw) {n : ℕ} (hn : (hw.txq k).active = true → n ≠ 0 →
    n ≤ (hw.txq k).skList.length ∨
      ((hw.txq k).sta ≠ none ∧ (hw.txq k).psId = .legacy) ∧ (hw.txq k).skList ≠ []) :
    Sched (hw.setTxq k { hw.txq k with pushLimit := n }) :=
  h.put rfl (fun _ => rfl) ((h.txqs k).limit hn) rfl fun _ => rfl

theorem Sched.psEnable (h : Sched hw) (s : StaId) : Sched (hw.psEnable s) := by
  have hstop : Sched ((hw.setSta s
      { hw.sta s with
        psActive := true
        spCnt := fun _ => 0 }).txqStaStop s {.staPs}) := by
    apply List.foldlRecOn (motive := Sched)
    · exact h.same rfl fun _ => rfl
    · exact fun hw hs k _ => hs.stop k _
  exact hstop.same rfl fun _ => rfl

/-- The hardware queue that is put back is the one the txq has. -/
theorem Sched.psRelease (h : Sched hw) {s : StaId} (hk : k ∈ s.txqs) : Sched (hw.psRelease s k) := by
  have hkept := h.txqs k
  have howner := mem_txqs_iff.mp hk
  cases s with
  | unicast i => exact h.setLimit fun _ hno => absurd rfl hno
  | multicast vif =>
    have hhome : k.home = .be := txqs_home howner vif rfl
    have hset : Kept k { hw.txq k with
        pushLimit := 0
        hwq := some .be } :=
      ⟨hkept.ready, hkept.idle, hkept.credits, hkept.funded, fun _ hno => absurd rfl hno,
        hkept.retried, fun _ => congrArg some hhome.symm, hkept.owned⟩
    refine Sched.put h rfl (fun _ => rfl) hset rfl fun hbit => ?_
    rw [hkept.housed (hkept.ready hbit).1, hhome]

theorem Sched.psDisable (h : Sched hw) (s : StaId) : ∃ hw', hw.psDisable s = some hw' ∧ Sched hw' := by
  apply exec_sched fun hw k hs => hs.start k _
  apply List.foldlRecOn (motive := Sched)
  · exact h.same rfl fun _ => rfl
  · exact fun hw hs k hk => hs.psRelease hk

theorem Sched.spInterrupt (h : Sched hw) (s : StaId) : Sched (hw.spInterrupt s) := by
  apply List.foldlRecOn (motive := Sched)
  · exact h.same rfl fun _ => rfl
  · exact fun hw hs k _ => hs.setLimit fun _ hno => absurd rfl hno

/-- A txq with buffers is in use, so that it can be linked. -/
theorem Kept.stocked_active (h : Kept k t) (hready : t.skList ≠ []) : t.active = true := by
  by_contra hno
  exact hready (h.idle (Bool.eq_false_of_not_eq_true hno))

theorem Sched.grant (h : Sched hw) (s : StaId) (p : PsId) {n : ℕ} (hlen : (hw.txq k).spLen ≠ 0)
    (hn : n ≤ (hw.txq k).spLen) :
    ∃ hw', (hw.spGrant s p k n).addToHwList k = some hw' ∧ Sched hw' := by
  have hkept := h.txqs k
  have hle := (spLen_le hkept.credits).1
  have hready : (hw.txq k).skList ≠ [] := by
    rintro hnil
    rw [hnil] at hle
    exact hlen (Nat.le_zero.mp hle)
  have hset : Sched (hw.setTxq k { hw.txq k with pushLimit := n % 2^8 }) :=
    h.setLimit fun _ _ => .inl ((Nat.mod_le n _).trans (hn.trans hle))
  have hgrant : Sched (hw.spGrant s p k n) := hset.same rfl fun _ => rfl
  have hat : (hw.spGrant s p k n).txq k = { hw.txq k with pushLimit := n % 2^8 } :=
    (changes_setTxq hw k _).at
  apply hgrant.add
  · rw [hat]
    exact hkept.stocked_active hready
  · rwa [hat]

theorem Sched.dispatch (s : StaId) (p : PsId) (ks : List TxqId) (req : ℕ) (h : Sched hw) :
    ∃ hw', Hw.dispatch s p hw req ks = some hw' ∧ Sched hw' := by
  induction ks generalizing hw req with
  | nil => exact ⟨hw, rfl, h⟩
  | cons k ks ih =>
    unfold Hw.dispatch
    dsimp only
    split
    · exact ih req h
    · rename_i hskip
      have hlen : (hw.txq k).spLen ≠ 0 := fun hz => hskip (.inr hz)
      split
      · obtain ⟨u, hu, hs⟩ := h.grant s p hlen le_rfl
        obtain ⟨v, hv, hs'⟩ := ih (req-(hw.txq k).spLen) hs
        exact ⟨v, Option.bind_eq_some_iff.mpr ⟨u, hu, hv⟩, hs'⟩
      · rename_i hle
        exact h.grant s p hlen (not_lt.mp hle)

theorem Sched.dispatchMulticast (h : Sched hw) {vif : ℕ} (p : PsId) (req : ℕ)
    (hact : (hw.txq (.bcmc vif)).active = true) (hready : (hw.txq (.bcmc vif)).skList ≠ []) :
    ∃ hw', hw.dispatchMulticast vif p req = some hw' ∧ Sched hw' := by
  obtain ⟨hsta, hid⟩ := (h.txqs (.bcmc vif)).owned hact
  unfold Hw.dispatchMulticast
  extract_lets k s n
  have hset : Sched (hw.setTxq k { hw.txq k with pushLimit := n % 2^8 }) := by
    apply h.setLimit
    exact fun _ _ => .inr ⟨⟨by rw [hsta]; exact Option.some_ne_none _, hid vif rfl⟩, hready⟩
  have hat : (hw.setTxq k { hw.txq k with pushLimit := n % 2^8 }).txq k =
      { hw.txq k with pushLimit := n % 2^8 } := (changes_setTxq hw k _).at
  have hgrant : Sched ((hw.setTxq k { hw.txq k with pushLimit := n % 2^8 }).setSta s
      { hw.sta s with spCnt := Function.update (hw.sta s).spCnt p n }) := hset.same rfl fun _ => rfl
  apply hgrant.add
  · exact (congrArg Txq.active hat).trans hact
  · exact fun hnil => hready ((congrArg Txq.skList hat).symm.trans hnil)

theorem Sched.trafficReq (h : Sched hw) {s : StaId} {req : ℕ} {p : PsId}
    (ho : Orderly hw (.psBhTrafficReq s req p)) :
    ∃ hw', hw.psBhTrafficReq s req p = some hw' ∧ Sched hw' := by
  unfold Hw.psBhTrafficReq
  split
  · exact ⟨hw, rfl, h⟩
  · split
    · exact ⟨_, rfl, h.spInterrupt s⟩
    · rename_i hgo
      split
      · exact ⟨hw, rfl, h⟩
      · rename_i hstarts
        cases s with
        | unicast i => exact Sched.dispatch _ p _ _ h
        | multicast vif =>
          obtain ⟨hact, hready⟩ := ho hgo (not_not.mp hstarts)
          exact h.dispatchMulticast p _ hact hready

/-! ## Confirmations -/

theorem Sched.confirmAny (h : Sched hw) (f : Pushed) : Sched (hw.txqConfirmAny f) := by
  have hk := h.txqs f.txq
  have hset : Sched (hw.setTxq f.txq
      { hw.txq f.txq with pktPushed := (hw.txq f.txq).pktPushed-1 }) :=
    h.put rfl (fun _ => rfl) ⟨hk.ready, hk.idle, hk.credits, hk.funded, hk.period, hk.retried,
      hk.housed, hk.owned⟩ rfl fun _ => rfl
  unfold Hw.txqConfirmAny
  split
  · exact hset
  · exact hset.same rfl fun p => setProcessing_list _ _ p true

theorem confirmAny_txq (hw : Hw) (f : Pushed) : (hw.txqConfirmAny f).txq =
    Function.update hw.txq f.txq { hw.txq f.txq with pktPushed := (hw.txq f.txq).pktPushed-1 } := by
  unfold Hw.txqConfirmAny
  split <;> rfl

theorem Sched.retry (h : Sched hw) (f : Pushed) (hact : (hw.txq f.txq).active = true)
    (hcred : (hw.txq f.txq).credits < 127) : ∃ hw', hw.txRetry f = some hw' ∧ Sched hw' := by
  have hk := h.txqs f.txq
  have hmore := addCredit_credits ⟨hk.credits.1, hcred⟩
  have hset : Sched (hw.setTxq f.txq (hw.txq f.txq).addCredit) := by
    refine h.put rfl (fun _ => rfl) ⟨hk.ready, hk.idle, ?_, fun _ => ?_, hk.period, hk.retried,
      hk.housed, hk.owned⟩ rfl fun _ => rfl
    · rw [hmore]
      have hlow := hk.credits.1
      omega
    · rw [hmore]
      have hlow := hk.credits.1
      omega
  have hat := (changes_setTxq hw f.txq (hw.txq f.txq).addCredit).at
  have hactive : ((hw.setTxq f.txq (hw.txq f.txq).addCredit).txq f.txq).active = true :=
    (congrArg Txq.active hat).trans hact
  have hlive : ∃ hw', (if 0 < ((hw.setTxq f.txq (hw.txq f.txq).addCredit).txq f.txq).credits then
      (hw.setTxq f.txq (hw.txq f.txq).addCredit).txqStart f.txq {.full}
      else some (hw.setTxq f.txq (hw.txq f.txq).addCredit)) = some hw' ∧ Sched hw' ∧
        (hw'.txq f.txq).active = true := by
    split
    · obtain ⟨u, hu, hs⟩ := hset.start f.txq {.full}
      refine ⟨u, hu, hs, ?_⟩
      rw [(txqStart_changes hu).at, (still_started _ _).active]
      exact hactive
    · exact ⟨_, rfl, hset, hactive⟩
  obtain ⟨u, hu, hs, hua⟩ := hlive
  obtain ⟨v, hv, hs'⟩ := hs.queue hua f.skb true
  exact ⟨v, Option.bind_eq_some_iff.mpr ⟨u, hu, hv⟩, hs'⟩

theorem Sched.continueSp (h : Sched hw) (k : TxqId) :
    ∃ hw', hw.continueSp k = some hw' ∧ Sched hw' := by
  unfold Hw.continueSp
  split
  · rename_i hgo
    exact h.add hgo.1 ((h.txqs k).stocked hgo.1 hgo.2.1)
  · exact ⟨hw, rfl, h⟩

theorem Sched.txdatacfm (h : Sched hw) {i : ℕ} {busDown retry : Bool}
    (ho : Orderly hw (.txdatacfm i busDown retry)) :
    ∃ hw', hw.txdatacfm i busDown retry = some hw' ∧ Sched hw' := by
  unfold Hw.txdatacfm
  split
  · exact ⟨hw, rfl, h⟩
  · rename_i f hf
    have hless : Sched { hw with pushed := hw.pushed.eraseIdx i } := h.same rfl fun _ => rfl
    dsimp only
    split
    · exact ⟨_, rfl, hless⟩
    · rename_i hup
      have hany := hless.confirmAny f
      have hat : ({ hw with pushed := hw.pushed.eraseIdx i }.txqConfirmAny f).txq f.txq =
          { hw.txq f.txq with pktPushed := (hw.txq f.txq).pktPushed-1 } := by
        rw [confirmAny_txq, Function.update_self]
      unfold Hw.confirmed
      dsimp only
      rw [hat]
      split
      · rename_i hagain
        simp only [Bool.and_eq_true, Bool.not_eq_true'] at hagain
        apply hany.retry
        · rw [hat]
          exact hagain.1.2
        · rw [hat]
          exact ho f hf (Bool.eq_false_of_not_eq_true hup) hagain.2 hagain.1.1 hagain.1.2
      · exact hany.continueSp f.txq

theorem Sched.creditUpdate (h : Sched hw) (s : StaId) (tid : ℕ) :
    ∃ hw', hw.txqCreditUpdate s tid = some hw' ∧ Sched hw' := by
  unfold Hw.txqCreditUpdate
  dsimp only
  split
  · exact ⟨hw, rfl, h⟩
  · split
    · exact ⟨_, rfl, h.stop _ _⟩
    · exact h.start _ _

/-! ## Runs -/

theorem init_sched : Sched init := by
  constructor
  · exact kept_blank
  · intro q k
    simp [init, Txq.blank]

theorem step_sched {a : Act} (ho : Orderly hw a) (h : Sched hw) :
    ∃ hw', step hw a = some hw' ∧ Sched hw' := by
  cases a with
  | startAp vif status =>
    have hsame : Sched (hw.setSta (.multicast vif)
        { hw.sta (.multicast vif) with psActive := false }) := h.same rfl fun _ => rfl
    exact ⟨_, rfl, hsame.vifInit ho.1 ho.2⟩
  | addStation i uapsdTids tdlsActive status =>
    have hsame : Sched (hw.setSta (.unicast i)
        { hw.sta (.unicast i) with
          uapsdTids := uapsdTids
          tdlsActive := tdlsActive }) := h.same rfl fun _ => rfl
    exact ⟨_, rfl, hsame.staInit i status ho⟩
  | smConnectInd i vif status tdls =>
    have hsame : Sched (hw.setSta (.unicast i)
        { hw.sta (.unicast i) with psActive := false }) := h.same rfl fun _ => rfl
    have hsta := hsame.staInit i status ho.1
    refine ⟨_, rfl, ?_⟩
    unfold Hw.smConnectInd
    dsimp only
    split
    · rename_i htdls
      apply hsta.unkVifInit
      rw [(txqStaInit_txq _ _ _).1]
      exact (congrArg Txq.inHwqList (if_neg (by simp [TxqId.owner]))).trans (ho.2 htdls)
    · exact hsta
  | txqUnkVifInit vif => exact ⟨_, rfl, h.unkVifInit ho⟩
  | txqOffchanInit => exact ⟨_, rfl, h.init (k := .offchan) ho fun _ hno => by cases hno⟩
  | txqVifDeinit vif => exact ⟨_, rfl, (h.deinit _).deinit _⟩
  | txqStaDeinit s =>
    refine ⟨_, rfl, ?_⟩
    exact List.foldlRecOn (motive := Sched) _ _ h fun hw hs k _ => hs.deinit k
  | txqDeinit k => exact ⟨_, rfl, h.deinit k⟩
  | txqStart k reason => exact h.start k reason
  | txqStop k reason => exact ⟨_, rfl, h.stop k reason⟩
  | xmit d mgmt mesh =>
    have hsame : Sched { hw with nextSkb := hw.nextSkb+1 } := h.same rfl fun _ => rfl
    exact hsame.queue ho _ false
  | hwqProcess q => exact h.process q
  | hwqProcessAll => exact h.processAll
  | txdatacfm i busDown retry => exact h.txdatacfm ho
  | txqCreditUpdate s tid => exact h.creditUpdate s tid
  | psBhEnable s enable =>
    cases enable with
    | true => exact ⟨_, rfl, h.psEnable s⟩
    | false => exact h.psDisable s
  | psBhTrafficReq s req p => exact h.trafficReq ho

/-- In every run of orderly steps no check fails, and the lists agree with the txqs. -/
theorem run_scheduled {acts : List Act} (h : Meets step Orderly init acts) :
    ∃ hw, exec step init acts = some hw ∧ Scheduled hw := by
  obtain ⟨hw, hrun, hsched⟩ := exec_progress (fun _ _ ho hs => step_sched ho hs) init_sched h
  exact ⟨hw, hrun, hsched.scheduled⟩

/-- A station is connected, sleeps, and is sent two buffers that are released by a request of one
and by the end of its sleep; a third is confirmed to be sent again. -/
def sample : List Act :=
  [.smConnectInd 0 0 ∅ true, .xmit (.sta (.unicast 0) 0) false false, .hwqProcess .be,
    .psBhEnable (.unicast 0) true, .xmit (.sta (.unicast 0) 0) false false,
    .xmit (.sta (.unicast 0) 5) false false, .psBhTrafficReq (.unicast 0) 1 .legacy,
    .hwqProcessAll, .psBhEnable (.unicast 0) false, .txdatacfm 0 false true,
    .txqStop (.sta 0 0) {.chan}, .txqStart (.sta 0 0) {.chan}, .hwqProcess .be,
    .txqStaDeinit (.unicast 0)]

theorem run_scheduled_sample : ∃ hw, exec step init sample = some hw ∧ Scheduled hw :=
  run_scheduled (by decide +kernel)

/-- A connection indication initialises a txq that is linked: it stays in the list without the
bit, and the next processing of the hardware queue runs into its first check. -/
theorem linked_txq_initialised :
    (exec step init [.smConnectInd 0 0 ∅ false, .xmit (.sta (.unicast 0) 0) false false,
        .smConnectInd 0 0 ∅ false]).map (fun hw =>
          ((hw.txq (.sta 0 0)).inHwqList, (hw.hwq .be).list.count (.sta 0 0))) =
      some (false, 1) ∧
    exec step init [.smConnectInd 0 0 ∅ false, .xmit (.sta (.unicast 0) 0) false false,
      .smConnectInd 0 0 ∅ false, .hwqProcess .be] = none := by
  decide +kernel

end AIC.TxqMembership
