import Aic8800.TxqTurns

/-!
# The processing of a hardware queue

What `rwnx_hwq_process` does with the buffers of the txqs in its list, visit by
visit. The list may be turned while it is walked, so that a txq is visited again.
-/

set_option autoImplicit false

namespace AIC.TxqProcess
open AIC.TxqMachine Lib.CursorLoop

/-- The entries of a list pass the checks of `rwnx_hwq_process`. The credits are an s8. -/
def Fit (q : HwqId) (hw : Hw) : Prop :=
  ∀ k ∈ (hw.hwq q).list, (hw.txq k).inHwqList = true ∧ (hw.txq k).active = true ∧
    (1 ≤ (hw.txq k).credits ∧ (hw.txq k).credits ≤ 127) ∧ (hw.txq k).skList ≠ []

/-- A txq with its buffers that are taken and the credits and the push limit it has. -/
structure Visit where
  txq : TxqId
  taken : List Skb
  credits : ℤ
  pushLimit : ℕ

def visit (hw : Hw) (k : TxqId) : Visit where
  txq := k
  taken := (hw.txq k).skList.take (hw.txq k).getSkbToPush.1
  credits := (hw.txq k).credits
  pushLimit := (hw.txq k).pushLimit

/-- The visits that lead from a state to another, in their order. -/
inductive Visits (q : HwqId) (hw : Hw) : List Visit → Hw → Prop
  | start : Visits q hw [] hw
  | turn {vs : List Visit} {hw₁ hw₂ : Hw} {k : TxqId} (h : Visits q hw vs hw₁)
      (hk : k ∈ (hw₁.hwq q).list) (hturn : hw₁.processTxq q k = some hw₂) :
      Visits q hw (vs++[visit hw₁ k]) hw₂

/-- The buffers of a txq among those pushed. -/
def ofTxq (k : TxqId) (l : List Pushed) : List Skb :=
  (l.filter fun f => decide (f.txq = k)).map Pushed.skb

/-- No visit takes more than the credits and the push limit allow. What is pushed is what the
visits take, in that order, and of each txq, followed by what is left, what was there. -/
structure Conserved (q : HwqId) (hw hw' : Hw) (vs : List Visit) (new : List Pushed) : Prop where
  visits : Visits q hw vs hw'
  within : ∀ v ∈ vs, (v.taken.length : ℤ) ≤ v.credits ∧
    (v.pushLimit ≠ 0 → v.taken.length ≤ v.pushLimit)
  pushed : hw'.pushed = hw.pushed++new
  taken : new.map (fun f => (f.txq, f.skb)) = vs.flatMap fun v => v.taken.map fun x => (v.txq, x)
  order : ∀ k, ofTxq k new++(hw'.txq k).skList = (hw.txq k).skList

/-! ## A visit -/

theorem getSkbToPush_within {t : Txq} (hcred : 1 ≤ t.credits) :
    (t.getSkbToPush.1 : ℤ) ≤ t.credits ∧ (t.pushLimit ≠ 0 → t.getSkbToPush.1 ≤ t.pushLimit) := by
  have hget : t.getCredits ≤ t.credits ∧ (t.pushLimit ≠ 0 → t.getCredits ≤ t.pushLimit) ∧
      0 ≤ t.getCredits := by
    unfold Txq.getCredits
    split_ifs with h
    · exact ⟨h.2.le, fun _ => le_rfl, by omega⟩
    · refine ⟨le_rfl, fun hlimit => ?_, by omega⟩
      by_contra hlt
      exact h ⟨hlimit, not_le.mp hlt⟩
  obtain ⟨hcredit, hlimit, hpos⟩ := hget
  have hn : (t.getSkbToPush.1 : ℤ) ≤ t.getCredits := by
    unfold Txq.getSkbToPush
    split_ifs with h
    · exact h
    · exact (Int.toNat_of_nonneg hpos).le
  exact ⟨hn.trans hcredit, fun h => Int.ofNat_le.mp (hn.trans (hlimit h))⟩

theorem txPush_pushed (hw : Hw) (k : TxqId) (skb : Skb) :
    ∃ f : Pushed, (hw.txPush k skb).pushed = hw.pushed++[f] ∧ f.txq = k ∧ f.skb = skb :=
  ⟨_, rfl, rfl, rfl⟩

theorem pushes_pushed (l : List Skb) (hw : Hw) (k : TxqId) :
    ∃ new : List Pushed, (l.foldl (fun hw skb => hw.txPush k skb) hw).pushed = hw.pushed++new ∧
      new.map (fun f => (f.txq, f.skb)) = l.map fun x => (k, x) := by
  induction l generalizing hw with
  | nil => exact ⟨[], (List.append_nil _).symm, rfl⟩
  | cons skb l ih =>
    obtain ⟨f, hf, hk, hskb⟩ := txPush_pushed hw k skb
    obtain ⟨new, hnew, hmap⟩ := ih (hw.txPush k skb)
    refine ⟨f::new, ?_, ?_⟩
    · rw [List.foldl_cons, hnew, hf, List.append_assoc, List.singleton_append]
    · rw [List.map_cons, List.map_cons, hmap, hk, hskb]

theorem serve_pushed (hw : Hw) (q : HwqId) (k : TxqId) :
    ∃ new : List Pushed, (hw.serve q k).pushed = hw.pushed++new ∧
      new.map (fun f => (f.txq, f.skb)) = (visit hw k).taken.map fun x => (k, x) := by
  have hdel : ∀ hw : Hw, (hw.delFromHwList k).pushed = hw.pushed := by
    intro hw
    unfold Hw.delFromHwList
    split <;> rfl
  have hleave : ∀ (hw : Hw) (done : Bool), (hw.leave q k done).pushed = hw.pushed := by
    intro hw done
    unfold Hw.leave
    split
    · exact hdel hw
    · split <;> rfl
  have habort : ∀ hw : Hw, (hw.abortSp k).pushed = hw.pushed := by
    intro hw
    unfold Hw.abortSp
    cases (hw.txq k).sta with
    | none => rfl
    | some s => exact (apply_ite Hw.pushed _ _ _).trans (ite_self _)
  have hserve : (hw.serve q k).pushed = (hw.pushReady k).pushed := (habort _).trans (hleave _ _)
  rw [hserve]
  exact pushes_pushed _ _ k

theorem ofTxq_append (k : TxqId) (l m : List Pushed) : ofTxq k (l++m) = ofTxq k l++ofTxq k m := by
  simp [ofTxq, List.filter_append]

theorem ofTxq_visit {l : List Pushed} {m : List Skb} {k : TxqId} (j : TxqId)
    (h : l.map (fun f => (f.txq, f.skb)) = m.map fun x => (k, x)) :
    ofTxq j l = if j = k then m else [] := by
  induction l generalizing m with
  | nil =>
    obtain rfl : m = [] := List.map_eq_nil_iff.mp h.symm
    exact (ite_self _).symm
  | cons f l ih =>
    cases m with
    | nil => cases h
    | cons x m =>
      obtain ⟨hf, hrest⟩ := List.cons.inj h
      obtain ⟨hk, hx⟩ := Prod.mk.inj hf
      have hl := ih hrest
      unfold ofTxq at hl ⊢
      rw [List.filter_cons]
      by_cases hj : j = k
      · rw [if_pos hj] at hl ⊢
        rw [if_pos (decide_eq_true (hk.trans hj.symm)), List.map_cons, hl, hx]
      · rw [if_neg hj] at hl ⊢
        have hne : ¬ decide (f.txq = j) = true := fun h => hj ((of_decide_eq_true h).symm.trans hk)
        rw [if_neg hne, hl]

theorem Conserved.turn {q : HwqId} {hw hw₁ : Hw} {vs : List Visit} {new : List Pushed} {k : TxqId}
    (h : Conserved q hw hw₁ vs new) (hk : k ∈ (hw₁.hwq q).list) (hcred : 1 ≤ (hw₁.txq k).credits)
    (hturn : hw₁.processTxq q k = some (hw₁.serve q k)) :
    ∃ more, Conserved q hw (hw₁.serve q k) (vs++[visit hw₁ k]) (new++more) := by
  obtain ⟨more, hmore, hmap⟩ := serve_pushed hw₁ q k
  refine ⟨more, h.visits.turn hk hturn, ?_, ?_, ?_, ?_⟩
  · intro v hv
    rcases List.mem_append.mp hv with hv | hv
    · exact h.within v hv
    · rw [List.mem_singleton.mp hv]
      have hlen : (visit hw₁ k).taken.length = (hw₁.txq k).getSkbToPush.1 := by
        rw [visit, List.length_take, min_eq_left (getSkbToPush_le _)]
      rw [hlen]
      exact getSkbToPush_within hcred
  · rw [hmore, h.pushed, List.append_assoc]
  · rw [List.map_append, h.taken, hmap, List.flatMap_append, List.flatMap_singleton]
    rfl
  · intro j
    rw [ofTxq_append, ofTxq_visit j hmap, ← h.order j, (serve_view hw₁ q k).1]
    by_cases hj : j = k
    · subst hj
      have hleft : ((hw₁.txq j).finished q).skList =
          (hw₁.txq j).skList.drop (hw₁.txq j).getSkbToPush.1 := finished_skList _ q
      rw [if_pos rfl, Function.update_self, List.append_assoc]
      exact congrArg (ofTxq j new++·) ((congrArg (_++·) hleft).trans (List.take_append_drop _ _))
    · rw [if_neg hj, Function.update_of_ne hj, List.append_nil]

/-! ## The loop -/

theorem Fit.serve {q : HwqId} {hw : Hw} (h : Fit q hw) {k : TxqId} (hk : k ∈ (hw.hwq q).list) :
    Fit q (hw.serve q k) := by
  obtain ⟨hbit, hact, hcred, hready⟩ := h k hk
  intro j hj
  obtain ⟨hin, hstay⟩ := (serve_mem hw q q j hbit).mp hj
  rw [(serve_view hw q k).1]
  by_cases hjk : j = k
  · subst hjk
    have hmore : (hw.txq j).getSkbToPush.2 = false :=
      Bool.eq_false_iff.mpr fun hdone => hstay hdone rfl
    have hlike := like_finished (hw.txq j) q
    have hlist : ((hw.txq j).finished q).skList ≠ [] := by
      rw [finished_skList]
      intro hnil
      have hlt := getSkbToPush_more hready hmore
      have hle := List.drop_eq_nil_iff.mp hnil
      omega
    have hflag : ((hw.txq j).finished q).inHwqList = true := by
      rw [finished_inHwqList, hbit, hmore]
      rfl
    rw [Function.update_self]
    exact ⟨hflag, hlike.active.trans hact, hlike.credits.symm ▸ hcred, hlist⟩
  · rw [Function.update_of_ne hjk]
    exact h j hin

/-- The state in which the walk begins. -/
def begun (q : HwqId) (hw : Hw) : Hw := hw.setHwq q { hw.hwq q with needProcessing := false }

/-- The walk from the head of the list, with a bound on the visits. -/
def walk (q : HwqId) (fuel : ℕ) (hw : Hw) : Option Hw :=
  loop (fun hw : Hw => (hw.hwq q).list) (Hw.processTxq q) fuel (begun q hw)
    ((begun q hw).hwq q).list.head?

/-- How many visits there are at most. -/
def bound (q : HwqId) (hw : Hw) : ℕ :=
  cost (fun hw : Hw => (hw.hwq q).list) (fun hw => hw.waiting q) (begun q hw)
    ((begun q hw).hwq q).list.head?

/-- The loop ends, whatever more visits it might make, and conserves the buffers. -/
theorem hwqProcess_conserves {q : HwqId} {hw : Hw} (h : Fit q hw) :
    ∃ hw', hw.hwqProcess q = some hw' ∧ (∀ fuel, bound q hw ≤ fuel → walk q fuel hw = some hw') ∧
      ∃ vs new, Conserved q (begun q hw) hw' vs new := by
  have hlist := setProcessing_list hw q q false
  have hstart : Fit q (begun q hw) := by
    intro k hk
    rw [begun, hlist] at hk
    exact h k hk
  obtain ⟨hw', hrun, -, vs, new, hcons⟩ :=
    loop_progress (I := fun hw₁ => Fit q hw₁ ∧ ∃ vs new, Conserved q (begun q hw) hw₁ vs new)
      (fun hw => (hw.hwq q).linkedOnce) (fun _ _ _ hk h => processTxq_shrinks hk h)
      (fun hw₁ k hk hs => by
        obtain ⟨hbit, hact, hcred, hready⟩ := hs.1 k hk
        have hcredpos : 0 < (hw₁.txq k).credits := by omega
        have hturn := processTxq_serve (q := q) hbit hact hcredpos hready
        obtain ⟨vs, new, hcons⟩ := hs.2
        obtain ⟨more, hmore⟩ := hcons.turn hk hcred.1 hturn
        exact ⟨_, hturn, hs.1.serve hk, _, _, hmore⟩)
      (fun _ hk => List.mem_of_mem_head? hk)
      ⟨hstart, [], [], Visits.start, fun _ hv => absurd hv List.not_mem_nil,
        (List.append_nil _).symm, rfl, fun _ => rfl⟩ le_rfl
  exact ⟨hw', hrun, fun fuel hfuel => (hwqProcess_fuel _ q fuel hfuel).trans hrun, vs, new, hcons⟩

theorem tid_zero : 0 < NX_NB_TXQ_PER_STA := by decide

theorem tid_one : 1 < NX_NB_TXQ_PER_STA := by decide

/-- Two txqs of a station, the first with more buffers than credits and due to be turned away. -/
def turnedHw : Hw :=
  { init with
    txq := fun k =>
      if k = .sta 0 ⟨0, tid_zero⟩ then
        { Txq.blank with
          active := true
          inHwqList := true
          credits := 2
          pktSent := 100
          skList := [⟨0, none, false, false⟩, ⟨1, none, false, false⟩, ⟨2, none, false, false⟩]
          hwq := some .be }
      else
        { Txq.blank with
          active := true
          inHwqList := true
          credits := 127
          skList := [⟨3, none, false, false⟩]
          hwq := some .be }
    hwq := fun _ => ⟨[.sta 0 ⟨0, tid_zero⟩, .sta 0 ⟨1, tid_one⟩], by decide, true⟩ }

theorem hwqProcess_conserves_turned : Fit .be turnedHw ∧ ∃ hw', turnedHw.hwqProcess .be = some hw' ∧
    (∀ fuel, bound .be turnedHw ≤ fuel → walk .be fuel turnedHw = some hw') ∧
      ∃ vs new, Conserved .be (begun .be turnedHw) hw' vs new := by
  have hfit : Fit .be turnedHw := by
    intro k hk
    have hcases : k = .sta 0 ⟨0, tid_zero⟩ ∨ k = .sta 0 ⟨1, tid_one⟩ := by
      simpa [turnedHw] using hk
    rcases hcases with rfl | rfl <;> decide
  exact ⟨hfit, hwqProcess_conserves hfit⟩

end AIC.TxqProcess
