import Aic8800.TxqTurns

/-!
# What holds whatever is done

A txq whose status says that it is scheduled is linked in the list of its
hardware queue (the other direction needs more care by the callers), it belongs
to the station of its name, and so does each buffer that went through it.
-/

set_option autoImplicit false

namespace AIC.TxqLists
open AIC.TxqMachine Lib.GuardedRun

/-- The hardware queue and the station of a txq are the ones its name stands for, and group
addressed frames are no matter of U-APSD. -/
structure House (k : TxqId) (t : Txq) : Prop where
  home : ∀ q, t.hwq = some q → q = k.home
  own : t.inHwqList = true → t.hwq ≠ none
  sta : t.sta = none ∨ t.sta = k.owner
  used : t.active = true → t.sta = k.owner
  group : ∀ vif, k.owner = some (.multicast vif) → t.psId = .legacy
  skbs : ∀ skb ∈ t.skList, skb.sta = k.owner

structure Listed (hw : Hw) : Prop where
  house : ∀ k, House k (hw.txq k)
  linked : ∀ k, (hw.txq k).inHwqList = true → k ∈ (hw.hwq k.home).list
  posted : ∀ f ∈ hw.pushed, f.skb.sta = f.txq.owner

/-- Only what is counted or stopped differs. -/
structure Kin (t u : Txq) : Prop where
  hwq : u.hwq = t.hwq
  inHwqList : u.inHwqList = t.inHwqList
  sta : u.sta = t.sta
  active : u.active = t.active
  psId : u.psId = t.psId
  skList : u.skList = t.skList

variable {hw hw' : Hw} {k : TxqId} {t u : Txq}

theorem House.kin (h : House k t) (hkin : Kin t u) : House k u := by
  obtain ⟨hhwq, hbit, hsta, hact, hid, hlist⟩ := hkin
  constructor
  · rw [hhwq]
    exact h.home
  · rw [hhwq, hbit]
    exact h.own
  · rw [hsta]
    exact h.sta
  · rw [hact, hsta]
    exact h.used
  · rw [hid]
    exact h.group
  · rw [hlist]
    exact h.skbs

theorem House.bit (h : House k t) {b : Bool} (hq : b = true → t.hwq ≠ none) :
    House k { t with inHwqList := b } :=
  ⟨h.home, hq, h.sta, h.used, h.group, h.skbs⟩

theorem house_fresh (k : TxqId) (status : Finset StopReason) {psId : PsId}
    (hid : ∀ vif, k.owner = some (.multicast vif) → psId = .legacy) :
    House k (.fresh k status k.home k.owner psId) :=
  ⟨fun _ hq => (Option.some.inj hq).symm, fun hno => (Bool.false_ne_true hno).elim, .inr rfl,
    fun _ => rfl, hid, fun _ hno => (List.not_mem_nil hno).elim⟩

theorem Listed.own (h : Listed hw) (hbit : (hw.txq k).inHwqList = true) :
    ∃ q, (hw.txq k).hwq = some q ∧ k ∈ (hw.hwq q).list := by
  obtain ⟨q, hq⟩ := Option.ne_none_iff_exists'.mp ((h.house k).own hbit)
  refine ⟨q, hq, ?_⟩
  rw [(h.house k).home q hq]
  exact h.linked k hbit

/-! ## Changes of one txq -/

theorem Listed.put (h : Listed hw) (htxq : hw'.txq = Function.update hw.txq k t)
    (hhwq : ∀ q, (hw'.hwq q).list = (hw.hwq q).list) (hpushed : hw'.pushed ⊆ hw.pushed)
    (hhouse : House k t) (hbit : t.inHwqList = true → (hw.txq k).inHwqList = true) :
    Listed hw' := by
  refine ⟨?_, ?_, fun f hf => h.posted f (hpushed hf)⟩
  · intro j
    rw [htxq]
    by_cases hj : j = k
    · subst hj
      rwa [Function.update_self]
    · rw [Function.update_of_ne hj]
      exact h.house j
  · intro j hin
    rw [hhwq]
    rw [htxq] at hin
    by_cases hj : j = k
    · subst hj
      rw [Function.update_self] at hin
      exact h.linked j (hbit hin)
    · rw [Function.update_of_ne hj] at hin
      exact h.linked j hin

theorem Listed.same (h : Listed hw) (htxq : hw'.txq = hw.txq)
    (hhwq : ∀ q, (hw'.hwq q).list = (hw.hwq q).list) (hpushed : hw'.pushed ⊆ hw.pushed) :
    Listed hw' :=
  h.put (k := .offchan) (htxq.trans (Function.update_eq_self _ _).symm) hhwq hpushed (h.house _) id

theorem Listed.setSta (h : Listed hw) (s : StaId) (x : Sta) : Listed (hw.setSta s x) :=
  h.same rfl (fun _ => rfl) (List.Subset.refl _)

theorem Listed.set (h : Listed hw) (hkin : Kin (hw.txq k) t) : Listed (hw.setTxq k t) :=
  h.put rfl (fun _ => rfl) (List.Subset.refl _) ((h.house k).kin hkin)
    fun hin => hkin.inHwqList ▸ hin

theorem Listed.add (h : Listed hw) (hadd : hw.addToHwList k = some hw') : Listed hw' := by
  unfold Hw.addToHwList at hadd
  split at hadd
  · exact Option.some.inj hadd ▸ h
  · split at hadd
    · cases hadd
    · rename_i q hq
      split at hadd
      · cases hadd
      · rename_i hk
        obtain rfl := Option.some.inj hadd
        obtain rfl := (h.house k).home q hq
        refine ⟨?_, ?_, h.posted⟩
        · apply (changes_setTxq hw k { hw.txq k with inHwqList := true }).forall h.house
          apply (h.house k).bit
          intro _
          rw [hq]
          exact Option.some_ne_none _
        · intro j hin
          show j ∈ (Function.update hw.hwq k.home ((hw.hwq k.home).addTail k hk) j.home).list
          by_cases hj : j = k
          · subst hj
            rw [Function.update_self]
            exact List.mem_append_right _ (List.mem_singleton_self j)
          · have hold : (hw.txq j).inHwqList = true := by
              rw [← (changes_setTxq hw k { hw.txq k with inHwqList := true }).off hj]
              exact hin
            have hmem := h.linked j hold
            by_cases hjq : j.home = k.home
            · rw [hjq, Function.update_self]
              rw [hjq] at hmem
              exact List.mem_append_left _ hmem
            · rw [Function.update_of_ne hjq]
              exact hmem

theorem Listed.del (h : Listed hw) (k : TxqId) : Listed (hw.delFromHwList k) := by
  have hch := delFromHwList_changes hw k
  refine ⟨?_, ?_, ?_⟩
  · exact hch.forall h.house ((h.house k).bit fun hno => (Bool.false_ne_true hno).elim)
  · intro j hin
    have hj : j ≠ k := by
      rintro rfl
      rw [hch.at] at hin
      cases hin
    rw [hch.off hj] at hin
    have hmem := h.linked j hin
    unfold Hw.delFromHwList
    split
    · exact (List.mem_erase_of_ne hj).mpr hmem
    · exact hmem
  · unfold Hw.delFromHwList
    split <;> exact h.posted

theorem Listed.init (h : Listed hw) (k : TxqId) (status : Finset StopReason) {psId : PsId}
    (hid : ∀ vif, k.owner = some (.multicast vif) → psId = .legacy) :
    Listed (hw.txqInit k status k.home k.owner psId) :=
  h.put rfl (fun _ => rfl) (List.Subset.refl _) (house_fresh k status hid)
    fun hno => (Bool.false_ne_true hno).elim

theorem Listed.deinit (h : Listed hw) (k : TxqId) : Listed (hw.txqDeinit k) := by
  unfold Hw.txqDeinit
  split
  · exact h
  · have hdel := h.del k
    have hk := hdel.house k
    refine hdel.put rfl (fun _ => rfl) (List.Subset.refl _) ?_ id
    exact ⟨hk.home, hk.own, hk.sta, fun hno => (Bool.false_ne_true hno).elim, hk.group,
      fun _ hno => (List.not_mem_nil hno).elim⟩

theorem Listed.stop (h : Listed hw) (k : TxqId) (reason : Finset StopReason) :
    Listed (hw.txqStop k reason) := by
  unfold Hw.txqStop
  split
  · have hset : Listed (hw.setTxq k { hw.txq k with stops := (hw.txq k).stops ∪ reason }) :=
      h.set ⟨rfl, rfl, rfl, rfl, rfl, rfl⟩
    exact hset.del k
  · exact h

theorem Listed.start {reason : Finset StopReason} (h : Listed hw)
    (hs : hw.txqStart k reason = some hw') : Listed hw' := by
  unfold Hw.txqStart at hs
  split at hs
  · have hset : Listed (hw.setTxq k { hw.txq k with stops := (hw.txq k).stops \ reason }) :=
      h.set ⟨rfl, rfl, rfl, rfl, rfl, rfl⟩
    dsimp only at hs
    split at hs
    · exact hset.add hs
    · exact Option.some.inj hs ▸ hset
  · exact Option.some.inj hs ▸ h

theorem Listed.queue {skb : Skb} {retry : Bool} (h : Listed hw) (hskb : skb.sta = k.owner)
    (hs : hw.txqQueueSkb k skb retry = some hw') : Listed hw' := by
  obtain ⟨u, hu, hlist⟩ := Option.bind_eq_some_iff.mp hs
  obtain ⟨hlike, hbit, -, hperm⟩ := enqueue_view hu
  have hk := h.house k
  have hhouse : House k { hw.txq k with skList := u.skList } := by
    refine ⟨hk.home, hk.own, hk.sta, hk.used, hk.group, fun x hx => ?_⟩
    rcases List.mem_cons.mp (hperm.mem_iff.mp hx) with rfl | hold
    · exact hskb
    · exact hk.skbs x hold
  have hset : Listed ((hw.psQueue k).setTxq k u.flowCtrlStop) := by
    apply h.put (k := k) (t := u.flowCtrlStop)
    · rw [← (psQueue_frame hw k).1]
      rfl
    · intro q
      show ((hw.psQueue k).hwq q).list = _
      rw [(psQueue_frame hw k).2.1]
    · intro f hf
      rw [← (psQueue_frame hw k).2.2]
      exact hf
    · exact hhouse.kin ⟨hlike.hwq, hbit, hlike.sta, hlike.active, hlike.psId, rfl⟩
    · exact fun hin => hbit ▸ hin
  dsimp only at hlist
  split at hlist
  · exact Option.some.inj hlist ▸ hset
  · exact hset.add hlist

theorem pushes_pushed (l : List Skb) (hw : Hw) (k : TxqId) :
    ∀ f ∈ (l.foldl (fun hw skb => hw.txPush k skb) hw).pushed,
      f ∈ hw.pushed ∨ f.txq = k ∧ f.skb ∈ l := by
  induction l generalizing hw with
  | nil => exact fun f hf => .inl hf
  | cons skb l ih =>
    intro f hf
    rcases ih (hw.txPush k skb) f hf with hold | ⟨hk, hmem⟩
    · rcases List.mem_append.mp hold with hold | hnew
      · exact .inl hold
      · rw [List.mem_singleton.mp hnew]
        exact .inr ⟨rfl, List.mem_cons_self⟩
    · exact .inr ⟨hk, List.mem_cons_of_mem skb hmem⟩

theorem delFromHwList_pushed (hw : Hw) (k : TxqId) : (hw.delFromHwList k).pushed = hw.pushed := by
  unfold Hw.delFromHwList
  split <;> rfl

theorem leave_pushed (hw : Hw) (q : HwqId) (k : TxqId) (done : Bool) :
    (hw.leave q k done).pushed = hw.pushed := by
  unfold Hw.leave
  split
  · exact delFromHwList_pushed hw k
  · split <;> rfl

theorem abortSp_pushed (hw : Hw) (k : TxqId) : (hw.abortSp k).pushed = hw.pushed := by
  unfold Hw.abortSp
  split
  · rfl
  · split <;> rfl

/-- A turn pushes buffers of the txq that it serves. -/
theorem serve_pushed (hw : Hw) (q : HwqId) (k : TxqId) :
    ∀ f ∈ (hw.serve q k).pushed, f ∈ hw.pushed ∨ f.txq = k ∧ f.skb ∈ (hw.txq k).skList := by
  intro f hf
  have hready : f ∈ (hw.pushReady k).pushed := by
    rw [← leave_pushed _ q k (hw.txq k).getSkbToPush.2, ← abortSp_pushed _ k]
    exact hf
  rcases pushes_pushed _ _ k f hready with hold | ⟨hk, hmem⟩
  · exact .inl hold
  · exact .inr ⟨hk, List.mem_of_mem_take hmem⟩

theorem House.finished (h : House k t) (hbit : t.inHwqList = true) (q : HwqId) :
    House k (t.finished q) := by
  have hlike := like_finished t q
  constructor
  · rw [hlike.hwq]
    exact h.home
  · rw [hlike.hwq]
    exact fun _ => h.own hbit
  · rw [hlike.sta]
    exact h.sta
  · rw [hlike.active, hlike.sta]
    exact h.used
  · rw [hlike.psId]
    exact h.group
  · rw [finished_skList]
    exact fun skb hskb => h.skbs skb (List.mem_of_mem_drop hskb)

theorem Listed.serve (h : Listed hw) (q : HwqId) (hbit : (hw.txq k).inHwqList = true) :
    Listed (hw.serve q k) := by
  have hview := (serve_view hw q k).1
  have hself := finished_inHwqList (hw.txq k) q
  refine ⟨?_, ?_, ?_⟩
  · intro j
    rw [hview]
    by_cases hj : j = k
    · subst hj
      rw [Function.update_self]
      exact (h.house j).finished hbit q
    · rw [Function.update_of_ne hj]
      exact h.house j
  · intro j hin
    rw [serve_mem hw q j.home j hbit]
    rw [hview] at hin
    by_cases hj : j = k
    · subst hj
      rw [Function.update_self] at hin
      have hstay : ((hw.txq j).finished q).inHwqList = true := hin
      rw [hself, Bool.and_eq_true, Bool.not_eq_true'] at hstay
      refine ⟨h.linked j hstay.1, fun hdone => ?_⟩
      rw [hstay.2] at hdone
      cases hdone
    · rw [Function.update_of_ne hj] at hin
      exact ⟨h.linked j hin, fun _ => hj⟩
  · intro f hf
    rcases serve_pushed hw q k f hf with hold | ⟨rfl, hmem⟩
    · exact h.posted f hold
    · exact (h.house f.txq).skbs f.skb hmem

/-! ## Loops -/

theorem Listed.process (h : Listed hw) {q : HwqId} (hs : hw.hwqProcess q = some hw') :
    Listed hw' := by
  have hstart : Listed (hw.setHwq q { hw.hwq q with needProcessing := false }) :=
    Listed.same h rfl (fun p => setProcessing_list hw q p false) (List.Subset.refl _)
  refine Lib.CursorLoop.loop_invariant (fun hw => (hw.hwq q).linkedOnce)
    (fun _ _ _ hk h => processTxq_shrinks hk h) ?_ (fun _ hk => List.mem_of_mem_head? hk) hstart hs
  intro hw k hw' _ hturn hl
  obtain ⟨hbit, ⟨-, rfl⟩ | ⟨-, -, -, rfl⟩⟩ := processTxq_cases hturn
  · exact hl
  · exact hl.serve q hbit

theorem Listed.processAll (h : Listed hw) (hs : hw.hwqProcessAll = some hw') : Listed hw' := by
  refine exec_preserves (I := Listed) (fun hw q hw' hs hl => ?_) h hs
  split at hs
  · exact hl.process hs
  · exact Option.some.inj hs ▸ hl

theorem Listed.staInit (h : Listed hw) (i : ℕ) (status : Finset StopReason) :
    Listed (hw.txqStaInit (.unicast i) status) := by
  apply List.foldlRecOn (motive := Listed)
  · exact h
  · intro hw hl k hk
    have hown := mem_txqs_iff.mp hk
    rw [← hown]
    apply hl.init
    intro vif hno
    rw [hown] at hno
    cases hno

theorem Listed.unkInit (h : Listed hw) (vif : ℕ) (status : Finset StopReason) :
    Listed (hw.txqInit (.unk vif) status .vo none .legacy) :=
  h.init (.unk vif) status fun _ _ => rfl

theorem Listed.vifInit (h : Listed hw) (vif : ℕ) (status : Finset StopReason) :
    Listed (hw.txqVifInit vif status) :=
  (h.init (.bcmc vif) status fun _ _ => rfl).unkInit vif status

/-! ## Power save and confirmations -/

theorem Listed.psRelease (h : Listed hw) {s : StaId} (hk : k ∈ s.txqs) :
    Listed (hw.psRelease s k) := by
  cases s with
  | unicast i => exact h.set ⟨rfl, rfl, rfl, rfl, rfl, rfl⟩
  | multicast vif =>
    have hhouse := h.house k
    refine Listed.put h rfl (fun _ => rfl) (List.Subset.refl _) ⟨fun q hq => ?_,
      fun _ => Option.some_ne_none _, hhouse.sta, hhouse.used, hhouse.group, hhouse.skbs⟩ id
    rw [txqs_home (mem_txqs_iff.mp hk) vif rfl]
    exact (Option.some.inj hq).symm

theorem Listed.psEnable (h : Listed hw) (s : StaId) : Listed (hw.psEnable s) := by
  have hstop : Listed ((hw.setSta s
      { hw.sta s with
        psActive := true
        spCnt := fun _ => 0 }).txqStaStop s {.staPs}) := by
    apply List.foldlRecOn (motive := Listed)
    · exact h.setSta s _
    · exact fun hw hl k _ => hl.stop k _
  exact hstop.setSta s _

theorem Listed.psDisable (h : Listed hw) {s : StaId} (hs : hw.psDisable s = some hw') :
    Listed hw' := by
  refine exec_preserves (I := Listed) (fun hw k hw' hs hl => Listed.start hl hs) ?_ hs
  apply List.foldlRecOn (motive := Listed)
  · exact h.setSta s _
  · exact fun hw hl k hk => hl.psRelease hk

theorem Listed.spInterrupt (h : Listed hw) (s : StaId) : Listed (hw.spInterrupt s) := by
  apply List.foldlRecOn (motive := Listed)
  · exact h.setSta s _
  · exact fun hw hl k _ => hl.set ⟨rfl, rfl, rfl, rfl, rfl, rfl⟩

theorem Listed.spGrant (h : Listed hw) (s : StaId) (p : PsId) (k : TxqId) (n : ℕ) :
    Listed (hw.spGrant s p k n) := by
  have hset : Listed (hw.setTxq k { hw.txq k with pushLimit := n % 2^8 }) :=
    h.set ⟨rfl, rfl, rfl, rfl, rfl, rfl⟩
  exact hset.setSta s _

theorem Listed.dispatch {s : StaId} {p : PsId} {ks : List TxqId} {req : ℕ} (h : Listed hw)
    (hs : Hw.dispatch s p hw req ks = some hw') : Listed hw' := by
  induction ks generalizing hw req with
  | nil => exact Option.some.inj hs ▸ h
  | cons k ks ih =>
    unfold Hw.dispatch at hs
    dsimp only at hs
    split at hs
    · exact ih h hs
    · split at hs
      · obtain ⟨u, hu, hrest⟩ := Option.bind_eq_some_iff.mp hs
        exact ih ((h.spGrant s p k _).add hu) hrest
      · exact (h.spGrant s p k req).add hs

theorem Listed.dispatchMulticast (h : Listed hw) {vif : ℕ} {p : PsId} {req : ℕ}
    (hs : hw.dispatchMulticast vif p req = some hw') : Listed hw' := by
  unfold Hw.dispatchMulticast at hs
  extract_lets k s n at hs
  have hset : Listed (hw.setTxq k { hw.txq k with pushLimit := n % 2^8 }) :=
    h.set ⟨rfl, rfl, rfl, rfl, rfl, rfl⟩
  exact (hset.setSta s _).add hs

theorem Listed.trafficReq (h : Listed hw) {s : StaId} {req : ℕ} {p : PsId}
    (hs : hw.psBhTrafficReq s req p = some hw') : Listed hw' := by
  obtain rfl | ⟨-, -, -, rfl⟩ | ⟨-, ⟨i, -, hs⟩ | ⟨vif, -, hs⟩⟩ := psBhTrafficReq_cases hs
  · exact h
  · exact h.spInterrupt s
  · exact h.dispatch hs
  · exact h.dispatchMulticast hs

theorem Listed.confirmAny (h : Listed hw) (f : Pushed) : Listed (hw.txqConfirmAny f) := by
  have hset : Listed (hw.setTxq f.txq
      { hw.txq f.txq with pktPushed := (hw.txq f.txq).pktPushed-1 }) :=
    h.set ⟨rfl, rfl, rfl, rfl, rfl, rfl⟩
  unfold Hw.txqConfirmAny
  split
  · exact hset
  · exact hset.same rfl (fun p => setProcessing_list _ _ p true) (List.Subset.refl _)

theorem Listed.retry (h : Listed hw) {f : Pushed} (hf : f.skb.sta = f.txq.owner)
    (hs : hw.txRetry f = some hw') : Listed hw' := by
  obtain ⟨u, hu, hrest⟩ := Option.bind_eq_some_iff.mp hs
  have hset : Listed (hw.setTxq f.txq (hw.txq f.txq).addCredit) :=
    h.set ⟨rfl, rfl, rfl, rfl, rfl, rfl⟩
  have hstart : Listed u := by
    split at hu
    · exact hset.start hu
    · exact Option.some.inj hu ▸ hset
  exact hstart.queue hf hrest

theorem Listed.continueSp (h : Listed hw) (hs : hw.continueSp k = some hw') : Listed hw' := by
  unfold Hw.continueSp at hs
  split at hs
  · exact h.add hs
  · exact Option.some.inj hs ▸ h

theorem Listed.txdatacfm (h : Listed hw) {i : ℕ} {busDown retry : Bool}
    (hs : hw.txdatacfm i busDown retry = some hw') : Listed hw' := by
  have hless : Listed { hw with pushed := hw.pushed.eraseIdx i } :=
    h.same rfl (fun _ => rfl) (List.eraseIdx_sublist hw.pushed i).subset
  obtain rfl | ⟨f, hf, rfl | ⟨-, -, -, -, hs⟩ | hs⟩ := txdatacfm_cases hs
  · exact h
  · exact hless
  · exact (hless.confirmAny f).retry (h.posted f (List.mem_of_getElem? hf)) hs
  · exact (hless.confirmAny f).continueSp hs

theorem Listed.creditUpdate (h : Listed hw) {s : StaId} {tid : ℕ}
    (hs : hw.txqCreditUpdate s tid = some hw') : Listed hw' := by
  obtain rfl | rfl | hs := txqCreditUpdate_cases hs
  · exact h
  · exact h.stop _ _
  · exact h.start hs

/-! ## Runs -/

theorem init_listed : Listed init := by
  refine ⟨fun k => ⟨?_, ?_, .inl rfl, ?_, fun _ _ => rfl, ?_⟩, ?_, ?_⟩
  · intro q hq
    cases hq
  · intro hno
    cases hno
  · intro hno
    cases hno
  · intro skb hno
    cases hno
  · intro k hno
    cases hno
  · intro f hno
    cases hno

theorem step_listed {a : Act} (hs : step hw a = some hw') (h : Listed hw) : Listed hw' := by
  cases a with
  | startAp vif status =>
    obtain rfl := Option.some.inj hs
    exact (h.setSta _ _).vifInit vif status
  | addStation i uapsdTids tdlsActive status =>
    obtain rfl := Option.some.inj hs
    exact (h.setSta _ _).staInit i status
  | smConnectInd i vif status tdls =>
    obtain rfl := Option.some.inj hs
    have hsta := (h.setSta (.unicast i)
      { hw.sta (.unicast i) with psActive := false }).staInit i status
    unfold Hw.smConnectInd
    dsimp only
    split
    · exact hsta.unkInit vif ∅
    · exact hsta
  | txqUnkVifInit vif => exact Option.some.inj hs ▸ h.unkInit vif ∅
  | txqOffchanInit =>
    obtain rfl := Option.some.inj hs
    exact h.init .offchan {.chan} fun _ _ => rfl
  | txqVifDeinit vif => exact Option.some.inj hs ▸ (h.deinit _).deinit _
  | txqStaDeinit s =>
    exact Option.some.inj hs ▸
      List.foldlRecOn (motive := Listed) _ _ h fun _ hl k _ => hl.deinit k
  | txqDeinit k => exact Option.some.inj hs ▸ h.deinit k
  | txqStart k reason => exact h.start hs
  | txqStop k reason => exact Option.some.inj hs ▸ h.stop k reason
  | xmit d mgmt mesh =>
    have hsame : Listed { hw with nextSkb := hw.nextSkb+1 } :=
      h.same rfl (fun _ => rfl) (List.Subset.refl _)
    have hq : hw.xmit d.txq d.station mgmt mesh = some hw' := hs
    exact hsame.queue (dest_owner d).symm hq
  | hwqProcess q => exact h.process hs
  | hwqProcessAll => exact h.processAll hs
  | txdatacfm i busDown retry => exact h.txdatacfm hs
  | txqCreditUpdate s tid => exact h.creditUpdate hs
  | psBhEnable s enable =>
    cases enable with
    | true => exact Option.some.inj hs ▸ h.psEnable s
    | false => exact h.psDisable hs
  | psBhTrafficReq s req p => exact h.trafficReq hs

end AIC.TxqLists
