import Aic8800.TxqViews
import Mathlib.Algebra.BigOperators.Group.List.Basic

/-!
# A turn of the processing

What `rwnx_hwq_process` does to a txq that it serves, and why its loop ends: a
turn takes buffers off the txqs of the list, also where it puts the list in
another order.
-/

set_option autoImplicit false

namespace AIC.TxqMachine

section Turns
variable {hw hw' : Hw} {k : TxqId}

def Txq.left (q : HwqId) (done : Bool) (t : Txq) : Txq :=
  if done then
    { t with
      inHwqList := false
      pktSent := 0 }
  else if t.inHwqList ∧ q.size < t.pktSent then { t with pktSent := 0 }
  else t

def Txq.aborted (t : Txq) : Txq :=
  if t.sta ≠ none ∧ t.pushLimit ≠ 0 ∧ t.psId = .legacy then { t with pushLimit := 0 } else t

def abortedStas (t : Txq) (sta : StaId → Sta) (s : StaId) : Sta :=
  if t.sta = some s ∧ t.pushLimit ≠ 0 ∧ t.psId = .legacy then (sta s).spLess .legacy t.pushLimit
  else sta s

/-- The txq when its buffers are pushed and it has left the list or not. -/
def Txq.served (q : HwqId) (t : Txq) : Txq :=
  (Txq.push^[t.getSkbToPush.1] { t with skList := t.skList.drop t.getSkbToPush.1 }).left q
    t.getSkbToPush.2

theorem leave_changes (hw : Hw) (q : HwqId) (k : TxqId) (done : Bool) :
    Changes k ((hw.txq k).left q done) hw (hw.leave q k done) := by
  unfold Hw.leave Txq.left
  cases done with
  | true => exact ((changes_self hw k).del).set fun t => { t with pktSent := 0 }
  | false =>
    simp only [Bool.false_eq_true, if_false]
    split
    · exact ⟨rfl, rfl⟩
    · exact changes_self hw k

theorem abortSp_view (hw : Hw) (k : TxqId) :
    (hw.abortSp k).txq = Function.update hw.txq k (hw.txq k).aborted ∧
      (hw.abortSp k).sta = abortedStas (hw.txq k) hw.sta ∧ (hw.abortSp k).hwq = hw.hwq := by
  unfold Hw.abortSp Txq.aborted abortedStas
  cases hsta : (hw.txq k).sta with
  | none => exact ⟨by simp, by simp, rfl⟩
  | some s =>
    dsimp only
    by_cases hsp : (hw.txq k).pushLimit ≠ 0 ∧ (hw.txq k).psId = .legacy
    · rw [if_pos hsp, if_pos ⟨Option.some_ne_none s, hsp⟩]
      refine ⟨by rw [← hsta]; rfl, funext fun j => ?_, rfl⟩
      by_cases hj : j = s
      · subst hj
        rw [if_pos ⟨rfl, hsp⟩]
        exact Function.update_self ..
      · rw [if_neg fun h => hj (Option.some.inj h.1).symm]
        exact Function.update_of_ne hj ..
    · rw [if_neg hsp, if_neg fun h => hsp h.2]
      exact ⟨(Function.update_eq_self k hw.txq).symm,
        funext fun j => (if_neg fun h => hsp h.2).symm, rfl⟩

theorem leave_done (hw : Hw) (q : HwqId) {k : TxqId} (hbit : (hw.txq k).inHwqList = true) :
    (hw.leave q k true).hwq = fun p => (hw.hwq p).del k := by
  unfold Hw.leave Hw.delFromHwList
  rw [if_pos rfl, if_pos hbit]
  rfl

theorem leave_stays (hw : Hw) (q : HwqId) (k : TxqId) :
    (hw.leave q k false).hwq = hw.hwq ∨
      (hw.leave q k false).hwq = Function.update hw.hwq q (hw.hwq q).rotateLeft := by
  unfold Hw.leave
  rw [if_neg Bool.false_ne_true]
  split
  · exact .inr rfl
  · exact .inl rfl

theorem getSkbToPush_le (t : Txq) : t.getSkbToPush.1 ≤ t.skList.length := by
  unfold Txq.getSkbToPush
  split
  · exact le_rfl
  · rename_i h
    exact Int.toNat_le.mpr (not_le.mp h).le

/-- The counters of the stations when a txq was served. -/
def servedStas (q : HwqId) (t : Txq) (sta : StaId → Sta) : StaId → Sta :=
  abortedStas (t.served q) (pushedStas t.psId (t.skList.take t.getSkbToPush.1) sta)

theorem pushReady_view (hw : Hw) (k : TxqId) :
    (hw.pushReady k).txq = Function.update hw.txq k (Txq.push^[(hw.txq k).getSkbToPush.1]
        { hw.txq k with skList := (hw.txq k).skList.drop (hw.txq k).getSkbToPush.1 }) ∧
      (hw.pushReady k).sta = pushedStas (hw.txq k).psId
        ((hw.txq k).skList.take (hw.txq k).getSkbToPush.1) hw.sta ∧
      (hw.pushReady k).hwq = hw.hwq := by
  have hset := changes_setTxq hw k
    { hw.txq k with skList := (hw.txq k).skList.drop (hw.txq k).getSkbToPush.1 }
  obtain ⟨htxq, hsta, hhwq⟩ := pushes_view ((hw.txq k).skList.take (hw.txq k).getSkbToPush.1)
    (hw.setTxq k
      { hw.txq k with skList := (hw.txq k).skList.drop (hw.txq k).getSkbToPush.1 }) k
  rw [hset.at] at htxq hsta
  refine ⟨htxq.trans ?_, hsta, hhwq⟩
  rw [hset.txq, Function.update_idem, List.length_take, min_eq_left (getSkbToPush_le _)]

/-- Before the last lines of the turn, where the flow control ends. -/
theorem turn_view (hw : Hw) (q : HwqId) (k : TxqId) :
    (((hw.pushReady k).leave q k (hw.txq k).getSkbToPush.2).abortSp k).txq =
        Function.update hw.txq k ((hw.txq k).served q).aborted ∧
      (((hw.pushReady k).leave q k (hw.txq k).getSkbToPush.2).abortSp k).sta =
        servedStas q (hw.txq k) hw.sta := by
  obtain ⟨hptxq, hpsta, -⟩ := pushReady_view hw k
  have hleave := leave_changes (hw.pushReady k) q k (hw.txq k).getSkbToPush.2
  have hat : (hw.pushReady k).txq k = Txq.push^[(hw.txq k).getSkbToPush.1]
      { hw.txq k with skList := (hw.txq k).skList.drop (hw.txq k).getSkbToPush.1 } := by
    rw [hptxq, Function.update_self]
  rw [hat] at hleave
  obtain ⟨hatxq, hasta, -⟩ := abortSp_view ((hw.pushReady k).leave q k
    (hw.txq k).getSkbToPush.2) k
  rw [hleave.at] at hatxq hasta
  constructor
  · rw [hatxq, hleave.txq, hptxq, Function.update_idem, Function.update_idem]
    rfl
  · rw [hasta, hleave.sta, hpsta]
    rfl

theorem serve_view (hw : Hw) (q : HwqId) (k : TxqId) :
    (hw.serve q k).txq =
        Function.update hw.txq k ((hw.txq k).served q).aborted.flowCtrlRestart ∧
      (hw.serve q k).sta = servedStas q (hw.txq k) hw.sta := by
  obtain ⟨htxq, hsta⟩ := turn_view hw q k
  refine ⟨?_, hsta⟩
  show Function.update _ k _ = _
  rw [htxq, Function.update_self, Function.update_idem]

/-- How the lists look when a txq was served: it is taken out, or the list is turned. -/
theorem serve_hwq (hw : Hw) (q : HwqId) {k : TxqId} (hbit : (hw.txq k).inHwqList = true) :
    if (hw.txq k).getSkbToPush.2 then (hw.serve q k).hwq = fun p => (hw.hwq p).del k
    else (hw.serve q k).hwq = hw.hwq ∨
      (hw.serve q k).hwq = Function.update hw.hwq q (hw.hwq q).rotateLeft := by
  obtain ⟨hptxq, -, hphwq⟩ := pushReady_view hw k
  have hpbit : ((hw.pushReady k).txq k).inHwqList = true := by
    rw [hptxq, Function.update_self]
    exact (push_keeps (fun _ => rfl) _ _).trans hbit
  have habort := (abortSp_view ((hw.pushReady k).leave q k (hw.txq k).getSkbToPush.2) k).2.2
  have hserve : (hw.serve q k).hwq =
      ((hw.pushReady k).leave q k (hw.txq k).getSkbToPush.2).hwq := habort
  rw [hserve, ← hphwq]
  cases hdone : (hw.txq k).getSkbToPush.2 with
  | true => exact leave_done _ q hpbit
  | false => exact leave_stays _ q k

/-- A txq that is done is the only one that leaves a list. -/
theorem serve_mem (hw : Hw) (q r : HwqId) (j : TxqId) {k : TxqId}
    (hbit : (hw.txq k).inHwqList = true) : j ∈ ((hw.serve q k).hwq r).list ↔
      j ∈ (hw.hwq r).list ∧ ((hw.txq k).getSkbToPush.2 = true → j ≠ k) := by
  have hlists := serve_hwq hw q hbit
  split at hlists
  · rename_i hdone
    have hlist : ((hw.serve q k).hwq r).list = (hw.hwq r).list.erase k := by
      rw [hlists]
      rfl
    rw [hlist, (hw.hwq r).linkedOnce.mem_erase_iff, and_comm]
    exact and_congr_right fun _ => ⟨fun hne _ => hne, fun h => h hdone⟩
  · rename_i hmore
    have hperm : ((hw.serve q k).hwq r).list.Perm (hw.hwq r).list := by
      rcases hlists with hl | hl
      · rw [hl]
      · rw [hl]
        by_cases hr : r = q
        · subst hr
          rw [Function.update_self]
          exact List.rotate_perm _ 1
        · rw [Function.update_of_ne hr]
    rw [hperm.mem_iff]
    exact (and_iff_left fun hdone => absurd hdone hmore).symm

theorem setProcessing_list (hw : Hw) (q p : HwqId) (b : Bool) :
    ((hw.setHwq q { hw.hwq q with needProcessing := b }).hwq p).list = (hw.hwq p).list := by
  show (Function.update hw.hwq q _ p).list = _
  by_cases hp : p = q
  · subst hp
    rw [Function.update_self]
  · rw [Function.update_of_ne hp]

/-- A turn finds the txq as the checks have it, or passes over one that is not active. -/
theorem processTxq_cases {q : HwqId} (h : hw.processTxq q k = some hw') :
    (hw.txq k).inHwqList = true ∧
      ((hw.txq k).active = false ∧ hw' = hw ∨
        (hw.txq k).active = true ∧ 0 < (hw.txq k).credits ∧ (hw.txq k).skList ≠ [] ∧
          hw' = hw.serve q k) := by
  unfold Hw.processTxq at h
  cases hbit : (hw.txq k).inHwqList with
  | false => simp [hbit] at h
  | true =>
    simp only [hbit, Bool.not_true, Bool.false_eq_true, if_false] at h
    cases hact : (hw.txq k).active with
    | false =>
      simp only [hact, Bool.not_false, if_true, Option.some.injEq] at h
      exact ⟨rfl, .inl ⟨rfl, h.symm⟩⟩
    | true =>
      simp only [hact, Bool.not_true, Bool.false_eq_true, if_false] at h
      split at h
      · cases h
      · rename_i hcred
        split at h
        · cases h
        · rename_i hready
          exact ⟨rfl, .inr ⟨rfl, not_le.mp hcred, hready, (Option.some.inj h).symm⟩⟩

theorem processTxq_serve {q : HwqId} (hbit : (hw.txq k).inHwqList = true)
    (hact : (hw.txq k).active = true) (hcred : 0 < (hw.txq k).credits)
    (hready : (hw.txq k).skList ≠ []) : hw.processTxq q k = some (hw.serve q k) := by
  unfold Hw.processTxq
  simp only [hbit, hact, Bool.not_true, Bool.false_eq_true, if_false, hready,
    if_neg (not_le.mpr hcred)]

/-! ## The entry of a txq that was served -/

def Txq.finished (q : HwqId) (t : Txq) : Txq := (t.served q).aborted.flowCtrlRestart

theorem like_push (t : Txq) (n : ℕ) : t.Like (Txq.push^[n] t) := by
  constructor <;> exact push_keeps (fun _ => rfl) n t

theorem like_left (t : Txq) (q : HwqId) (done : Bool) : t.Like (t.left q done) := by
  unfold Txq.left
  split
  · exact ⟨rfl, rfl, rfl, rfl, rfl, rfl⟩
  · split <;> exact ⟨rfl, rfl, rfl, rfl, rfl, rfl⟩

theorem like_aborted (t : Txq) : t.Like t.aborted := by
  unfold Txq.aborted
  split <;> exact ⟨rfl, rfl, rfl, rfl, rfl, rfl⟩

theorem like_served (t : Txq) (q : HwqId) : t.Like (t.served q) := by
  have htaken : t.Like { t with skList := t.skList.drop t.getSkbToPush.1 } :=
    ⟨rfl, rfl, rfl, rfl, rfl, rfl⟩
  exact (htaken.trans (like_push _ _)).trans (like_left _ q _)

theorem like_finished (t : Txq) (q : HwqId) : t.Like (t.finished q) := by
  have hrestart : (t.served q).aborted.Like (t.finished q) := ⟨rfl, rfl, rfl, rfl, rfl, rfl⟩
  exact ((like_served t q).trans (like_aborted _)).trans hrestart

theorem served_skList (t : Txq) (q : HwqId) :
    (t.served q).skList = t.skList.drop t.getSkbToPush.1 := by
  have hleft : ∀ (u : Txq) (done : Bool), (u.left q done).skList = u.skList := by
    intro u done
    unfold Txq.left
    split
    · rfl
    · split <;> rfl
  exact (hleft _ _).trans (push_keeps (fun _ => rfl) _ _)

theorem finished_skList (t : Txq) (q : HwqId) :
    (t.finished q).skList = t.skList.drop t.getSkbToPush.1 := by
  rw [← served_skList t q]
  show (t.served q).aborted.skList = _
  unfold Txq.aborted
  split <;> rfl

theorem finished_inHwqList (t : Txq) (q : HwqId) :
    (t.finished q).inHwqList = (t.inHwqList && !t.getSkbToPush.2) := by
  have hleft : ∀ (u : Txq) (done : Bool), (u.left q done).inHwqList = (u.inHwqList && !done) := by
    intro u done
    unfold Txq.left
    cases done with
    | true => simp
    | false =>
      simp only [Bool.false_eq_true, if_false, Bool.not_false, Bool.and_true]
      split <;> rfl
  have habort : (t.served q).aborted.inHwqList = (t.served q).inHwqList := by
    unfold Txq.aborted
    split <;> rfl
  show (t.served q).aborted.inHwqList = _
  rw [habort]
  exact (hleft _ _).trans (congrArg (· && !t.getSkbToPush.2) (push_keeps (fun _ => rfl) _ _))

theorem finished_retry (t : Txq) (q : HwqId) :
    (t.finished q).nbRetry = (Txq.push^[t.getSkbToPush.1]
        { t with skList := t.skList.drop t.getSkbToPush.1 }).nbRetry ∧
      (t.finished q).lastRetrySkb = (Txq.push^[t.getSkbToPush.1]
        { t with skList := t.skList.drop t.getSkbToPush.1 }).lastRetrySkb := by
  have hleft : ∀ (u : Txq) (done : Bool), (u.left q done).nbRetry = u.nbRetry ∧
      (u.left q done).lastRetrySkb = u.lastRetrySkb := by
    intro u done
    unfold Txq.left
    split
    · exact ⟨rfl, rfl⟩
    · split <;> exact ⟨rfl, rfl⟩
  have habort : ∀ u : Txq, u.aborted.nbRetry = u.nbRetry ∧
      u.aborted.lastRetrySkb = u.lastRetrySkb := by
    intro u
    unfold Txq.aborted
    split <;> exact ⟨rfl, rfl⟩
  exact ⟨(habort _).1.trans (hleft _ _).1, (habort _).2.trans (hleft _ _).2⟩

theorem push_pushLimit (n : ℕ) (t : Txq) : (Txq.push^[n] t).pushLimit = t.pushLimit-n := by
  induction n generalizing t with
  | zero => rfl
  | succ n ih =>
    rw [Function.iterate_succ_apply, ih t.push, Nat.add_comm n 1, Nat.sub_add_eq]
    rfl

theorem served_pushLimit (t : Txq) (q : HwqId) :
    (t.served q).pushLimit = t.pushLimit-t.getSkbToPush.1 := by
  have hleft : ∀ (u : Txq) (done : Bool), (u.left q done).pushLimit = u.pushLimit := by
    intro u done
    unfold Txq.left
    split
    · rfl
    · split <;> rfl
  exact (hleft _ _).trans (push_pushLimit _ _)

/-- A service period of legacy power save does not outlast the turn. -/
theorem finished_pushLimit (t : Txq) (q : HwqId) : (t.finished q).pushLimit =
    if t.sta ≠ none ∧ t.psId = .legacy then 0 else t.pushLimit-t.getSkbToPush.1 := by
  have hlike := like_served t q
  show (t.served q).aborted.pushLimit = _
  rw [← served_pushLimit t q]
  unfold Txq.aborted
  rw [hlike.sta, hlike.psId]
  by_cases hid : t.sta ≠ none ∧ t.psId = .legacy
  · rw [if_pos hid]
    split
    · rfl
    · rename_i hno
      by_contra hsome
      exact hno ⟨hid.1, hsome, hid.2⟩
  · rw [if_neg hid, if_neg fun h => hid ⟨h.1, h.2.2⟩]

theorem servedStas_psActive (q : HwqId) (t : Txq) (sta : StaId → Sta) (s : StaId) :
    (servedStas q t sta s).psActive = (sta s).psActive := by
  have hpushed : ∀ (l : List Skb) (sta : StaId → Sta),
      (pushedStas t.psId l sta s).psActive = (sta s).psActive := by
    intro l
    induction l with
    | nil => exact fun _ => rfl
    | cons skb l ih =>
      intro sta
      have hfirst : (inPs skb.sta (fun x => x.pushed t.psId) sta s).psActive =
          (sta s).psActive := by
        apply inPs_psActive
        exact fun _ => rfl
      exact (ih _).trans hfirst
  have habort : ∀ (u : Txq) (sta : StaId → Sta),
      (abortedStas u sta s).psActive = (sta s).psActive := by
    intro u sta
    unfold abortedStas
    split <;> rfl
  exact (habort _ _).trans (hpushed _ sta)

/-! ## The loop of `rwnx_hwq_process` -/

theorem getSkbToPush_pos {t : Txq} (hcred : 0 < t.credits) (hready : t.skList ≠ []) :
    0 < t.getSkbToPush.1 := by
  have hlen := List.length_pos_of_ne_nil hready
  have hget : 0 < t.getCredits := by
    unfold Txq.getCredits
    split
    · rename_i h
      exact Int.natCast_pos.mpr (Nat.pos_of_ne_zero h.1)
    · exact hcred
  unfold Txq.getSkbToPush
  split
  · exact hlen
  · exact Int.pos_iff_toNat_pos.mp hget

theorem getSkbToPush_more {t : Txq} (hready : t.skList ≠ []) (h : t.getSkbToPush.2 = false) :
    t.getSkbToPush.1 < t.skList.length := by
  unfold Txq.getSkbToPush at h ⊢
  split at h
  · cases h
  · rename_i hmore
    rw [if_neg hmore]
    exact (Int.toNat_lt' (List.length_pos_of_ne_nil hready)).mpr (not_le.mp hmore)

/-- A turn takes buffers off the txqs of the list, unless it passes over the txq. -/
theorem processTxq_shrinks {q : HwqId} (hk : k ∈ (hw.hwq q).list)
    (h : hw.processTxq q k = some hw') :
    Lib.CursorLoop.Shrinks (fun hw : Hw => (hw.hwq q).list) (fun hw => hw.waiting q) hw k hw' := by
  obtain ⟨hbit, ⟨-, rfl⟩ | ⟨-, hcred, hready, rfl⟩⟩ := processTxq_cases h
  · exact ⟨fun x hx _ => hx, le_rfl, .inr ⟨rfl, rfl⟩⟩
  have hpos := getSkbToPush_pos hcred hready
  have hle := getSkbToPush_le (hw.txq k)
  have hat : ((hw.serve q k).txq k).skList.length+(hw.txq k).getSkbToPush.1 =
      (hw.txq k).skList.length := by
    rw [(serve_view hw q k).1, Function.update_self]
    show ((hw.txq k).finished q).skList.length+_ = _
    rw [finished_skList, List.length_drop, Nat.sub_add_cancel hle]
  -- the other txqs of the list keep their buffers
  have hrest : (((hw.hwq q).list.erase k).map fun j => ((hw.serve q k).txq j).skList.length) =
      ((hw.hwq q).list.erase k).map fun j => (hw.txq j).skList.length := by
    apply List.map_congr_left
    intro j hj
    have hne : j ≠ k := by
      rintro rfl
      exact (hw.hwq q).linkedOnce.not_mem_erase hj
    rw [(serve_view hw q k).1, Function.update_of_ne hne]
  have hsum : ∀ f : TxqId → ℕ, f k+(((hw.hwq q).list.erase k).map f).sum =
      ((hw.hwq q).list.map f).sum := by
    intro f
    rw [((List.perm_cons_erase hk).map f).sum_eq, List.map_cons, List.sum_cons]
  have hold := hsum fun j => (hw.txq j).skList.length
  have hnew := hsum fun j => ((hw.serve q k).txq j).skList.length
  rw [hrest] at hnew
  have hlists := serve_hwq hw q hbit
  split at hlists
  · have hlist : ((hw.serve q k).hwq q).list = (hw.hwq q).list.erase k := by
      rw [hlists]
      rfl
    constructor
    · intro x hx hne
      rw [hlist]
      exact (List.mem_erase_of_ne hne).mpr hx
    · rw [hlist]
      exact List.length_erase_le
    · left
      unfold Hw.waiting
      rw [hlist, hrest]
      omega
  · have hperm : ((hw.serve q k).hwq q).list.Perm (hw.hwq q).list := by
      rcases hlists with hl | hl
      · rw [hl]
      · rw [hl, Function.update_self]
        exact List.rotate_perm _ 1
    constructor
    · exact fun x hx _ => hperm.mem_iff.mpr hx
    · exact hperm.length_eq.le
    · left
      unfold Hw.waiting
      rw [(hperm.map _).sum_eq]
      omega

/-- The fuel of the loop is never used up. -/
theorem hwqProcess_fuel (hw : Hw) (q : HwqId) (fuel : ℕ)
    (hfuel : Lib.CursorLoop.cost (fun hw : Hw => (hw.hwq q).list) (fun hw => hw.waiting q) hw
      (hw.hwq q).list.head? ≤ fuel) :
    Lib.CursorLoop.loop (fun hw : Hw => (hw.hwq q).list) (Hw.processTxq q) fuel hw
        (hw.hwq q).list.head? =
      Lib.CursorLoop.loop (fun hw : Hw => (hw.hwq q).list) (Hw.processTxq q)
        (Lib.CursorLoop.cost (fun hw : Hw => (hw.hwq q).list) (fun hw => hw.waiting q) hw
          (hw.hwq q).list.head?) hw (hw.hwq q).list.head? :=
  Lib.CursorLoop.loop_fuel (fun hw => (hw.hwq q).linkedOnce)
    (fun _ _ _ hk h => processTxq_shrinks hk h) (fun _ hk => List.mem_of_mem_head? hk) le_rfl hfuel

end Turns

end AIC.TxqMachine
