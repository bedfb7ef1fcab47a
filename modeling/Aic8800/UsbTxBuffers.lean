import Aic8800.UsbTx

/-!
# Transmit buffers, storage and flow control

One invariant for the places of buffers and frames, one for the order, one for
the frames not yet accepted, and one for the queues that are stopped.
-/

set_option autoImplicit false

namespace AIC.UsbTxBuffers
open AIC.UsbTx Lib.GuardedRun Lib.LoadedBuffers Lib.RunningFrames

variable {s t : State} {f : Frame} {ok : Bool} {b : BufId}

/-! ## The storage of a frame fits -/

theorem copyEnd_le (p : Pkt) : p.copyEnd ≤ p.len := by
  have hpayload : p.len-p.headroom = p.frameLen := Nat.add_sub_cancel_left ..
  have hlen : p.len = 80+p.hdrPads+p.frameLen := rfl
  have hindex : sizeofUsbHeader+sizeofTxdescApi+p.frameLen = 32+p.frameLen := rfl
  unfold Pkt.copyEnd
  rw [hpayload, hindex, hlen]
  by_cases hword : (32+p.frameLen)%65536%TX_ALIGNMENT = 0
  · rw [if_pos hword]
    omega
  · rw [if_neg hword]
    simp only [roundup, TX_ALIGNMENT]
    omega

theorem headroom_le (p : Pkt) : sizeofTxdescApi+sizeofUsbHeader ≤ p.headroom := by
  simp only [Pkt.headroom, sizeofUsbHeader, sizeofTxdescApi, sizeofRwnxTxhdr]
  omega

/-! ## Places -/

def empty (s : State) : List BufId := s.free.list++s.thread.empty

def loaded (s : State) : List BufId := s.post.list++s.submitted++s.thread.loaded

def ids (s : State) : List ℕ := s.released.map fun r => r.1.id

def Kept (s : State) : Prop :=
  Ledger s.load (empty s++s.running.flatMap Frame.empty)
    (loaded s++s.running.flatMap Frame.loaded) (ids s++s.running.flatMap Frame.entering) s.calls

theorem init_kept (vifs : List (Bool × Bool)) : Kept (init vifs) where
  placed b := by
    simp only [empty, loaded, init, Thread.empty, Thread.loaded, List.flatMap_nil,
      List.append_nil, List.count_nil]
    exact List.count_eq_one_of_mem (List.nodup_finRange _) (List.mem_finRange b)
  clear _ _ := rfl
  full b hb := by simp [loaded, init, Thread.loaded] at hb
  once n := rfl

theorem setBuf_load (s : State) (b : BufId) (v : UsbBuf) :
    (s.setBuf b v).load = Function.update s.load b (v.skb.map Store.id) := by
  funext x
  by_cases hx : x = b
  · subst hx
    simp [State.load, State.setBuf]
  · simp [State.load, State.setBuf, hx]

theorem freeBuf_load (s : State) (b : BufId) (r : Release) :
    (s.freeBuf b r).load = Function.update s.load b none := setBuf_load s b _

theorem fill_load (s : State) (p : Pkt) (id : ℕ) (b : BufId) (kmalloc : Bool) :
    (s.fill p id b kmalloc).load = Function.update s.load b (some id) := by
  unfold State.fill
  split <;> exact setBuf_load s b _

theorem freeBuf_ids {n : ℕ} (hn : s.load b = some n) (r : Release) (m : ℕ) :
    (ids (s.freeBuf b r)).count m = (ids s).count m+[n].count m := by
  obtain ⟨st, hst, rfl⟩ := Option.map_eq_some_iff.mp hn
  have hcons := count_head st.id (ids s) m
  simpa [ids, State.freeBuf, hst] using hcons

theorem drop_ids (s : State) (id m : ℕ) :
    (ids (s.drop id)).count m = (ids s).count m+[id].count m := count_head id (ids s) m

/-- A function moves buffers but loads or drains none. -/
theorem Kept.moves (h : Kept s) (hf : f ∈ s.running) (hbuf : (s.advance f ok).1.buf = s.buf)
    (hcalls : (s.advance f ok).1.calls = s.calls)
    (hempty : ∀ x, (empty (s.advance f ok).1).count x+
      ((s.advance f ok).2.flatMap Frame.empty).count x = (empty s).count x+f.empty.count x)
    (hloaded : ∀ x, (loaded (s.advance f ok).1).count x+
      ((s.advance f ok).2.flatMap Frame.loaded).count x = (loaded s).count x+f.loaded.count x)
    (hout : ∀ n, (ids (s.advance f ok).1).count n+
      ((s.advance f ok).2.flatMap Frame.entering).count n =
        (ids s).count n+f.entering.count n) : Kept (s.goOn f ok) := by
  have hnew := Ledger.frame_moves h hf hempty hloaded hout
  have hload : (s.goOn f ok).load = s.load := funext fun b => by
    simp only [State.load, State.goOn, hbuf]
  rw [← hload, ← hcalls] at hnew
  exact hnew

/-- The storage in a buffer that a function holds is released. -/
theorem freeBuf_kept (h : Kept s) (hf : f ∈ s.running) (hb : f.loaded = [b])
    (he : f.empty = []) (ho : f.entering = []) {r : Release} {g : Frame} (hgb : g.empty = [b])
    (hgl : g.loaded = []) (hgo : g.entering = []) (hadv : s.advance f ok = (s.freeBuf b r, [g])) :
    Kept (s.goOn f ok) := by
  have hmem : b ∈ s.running.flatMap Frame.loaded :=
    List.mem_flatMap.mpr ⟨f, hf, by rw [hb]; exact List.mem_singleton_self b⟩
  obtain ⟨n, hn⟩ := Ledger.token h (List.mem_append_right _ hmem)
  have hdrain : Ledger (Function.update s.load b none)
      (empty s++(goOn s.running f [g]).flatMap Frame.empty)
      (loaded s++(goOn s.running f [g]).flatMap Frame.loaded)
      (ids (s.freeBuf b r)++(goOn s.running f [g]).flatMap Frame.entering) s.calls := by
    apply Ledger.frame_drain h hf hn
    · simp only [he, hgb, List.flatMap_singleton, List.count_nil, Nat.add_zero, implies_true]
    · simp only [hb, hgl, List.flatMap_singleton, List.count_nil, Nat.add_zero, implies_true]
    · simp only [ho, hgo, freeBuf_ids hn, List.flatMap_singleton, List.count_nil, Nat.add_zero,
        implies_true]
  rw [← freeBuf_load s b r] at hdrain
  unfold State.goOn
  rw [hadv]
  exact hdrain

theorem txdataFill_kept (h : Kept s) {p : Pkt} {id : ℕ} (hf : .txdataFill p id b ∈ s.running) :
    Kept (s.goOn (.txdataFill p id b) ok) := by
  have hfill : Ledger (Function.update s.load b (some id))
      (empty s++(goOn s.running (.txdataFill p id b) [.txdataQueue b]).flatMap Frame.empty)
      (loaded s++(goOn s.running (.txdataFill p id b) [.txdataQueue b]).flatMap Frame.loaded)
      (ids s++(goOn s.running (.txdataFill p id b) [.txdataQueue b]).flatMap Frame.entering)
      s.calls := by
    apply Ledger.frame_fill h hf <;> simp
  rw [← fill_load s p id b ok] at hfill
  unfold State.goOn State.advance
  dsimp only
  unfold State.fill at hfill ⊢
  split_ifs <;> rename_i hc
  · simp only [if_pos hc] at hfill
    exact hfill
  · simp only [if_neg hc] at hfill
    exact hfill

theorem txdataTake_kept (h : Kept s) {p : Pkt} {id : ℕ} (hf : .txdataTake p id ∈ s.running) :
    Kept (s.goOn (.txdataTake p id) ok) := by
  cases hfree : s.free.list with
  | nil =>
    have hadv : s.advance (.txdataTake p id) ok = (s.drop id, [.txdataFlow]) := by
      simp only [State.advance, BufQueue.txDequeue, hfree]
    apply h.moves hf <;> rw [hadv]
    case hout => simp [drop_ids]
    all_goals simp [empty, loaded, State.drop]
  | cons b rest =>
    have hcons := count_head b rest
    have hadv : s.advance (.txdataTake p id) ok =
        ({ s with free := ⟨rest, s.free.count-1⟩ }, [.txdataFill p id b]) := by
      simp only [State.advance, BufQueue.txDequeue, hfree]
    apply h.moves hf <;> rw [hadv]
    case hempty =>
      intro x
      have := hcons x
      simp only [empty, hfree, List.count_append, List.flatMap_singleton, Frame.empty,
        List.count_nil]
      omega
    all_goals simp [loaded, ids]

theorem prepareTake_kept (h : Kept s) (hf : .prepareTake ∈ s.running) :
    Kept (s.goOn .prepareTake ok) := by
  cases hpost : s.post.list with
  | nil =>
    have hadv : s.advance .prepareTake ok = ({ s with stray := true }, []) := by
      simp only [State.advance, BufQueue.txDequeue, hpost]
    apply h.moves hf <;> rw [hadv] <;> simp [empty, loaded, ids]
  | cons b rest =>
    have hcons := count_head b rest
    have hadv : s.advance .prepareTake ok =
        ({ s with post := ⟨rest, s.post.count-1⟩ }, [.prepareFree b]) := by
      simp only [State.advance, BufQueue.txDequeue, hpost]
    apply h.moves hf <;> rw [hadv]
    case hloaded =>
      intro x
      have := hcons x
      simp only [loaded, hpost, List.count_append, List.flatMap_singleton, Frame.loaded,
        List.count_nil]
      omega
    all_goals simp [empty, ids]

theorem txQueue_empty (s : State) (b x : BufId) :
    (empty { s with free := s.free.txQueue b }).count x = (empty s).count x+[b].count x := by
  simp only [empty, BufQueue.txQueue, List.count_append]
  omega

theorem txQueue_loaded (s : State) (b x : BufId) :
    (loaded { s with post := s.post.txQueue b }).count x = (loaded s).count x+[b].count x := by
  simp only [loaded, BufQueue.txQueue, List.count_append]
  omega

theorem flowStop_eq (s : State) :
    ∃ tbusy vifs, s.flowStop = { s with tbusy := tbusy, vifs := vifs } := by
  unfold State.flowStop
  split
  · exact ⟨_, _, rfl⟩
  · exact ⟨_, _, rfl⟩

theorem flowWake_eq (s : State) :
    ∃ tbusy vifs, s.flowWake = { s with tbusy := tbusy, vifs := vifs } := by
  unfold State.flowWake
  split
  · exact ⟨_, _, rfl⟩
  · exact ⟨_, _, rfl⟩

theorem cancelAt_eq (s : State) (pos : Node) :
    s.cancelAt pos = [] ∨ s.cancelAt pos = [.cancel pos (s.succ pos)] := by
  unfold State.cancelAt
  split
  · exact .inl rfl
  · exact .inr rfl

theorem goOn_kept (h : Kept s) (hf : f ∈ s.running) : Kept (s.goOn f ok) := by
  cases f with
  | txdata p id =>
    by_cases hup : s.state = .up
    · apply h.moves hf <;> simp [State.advance, hup]
    · have hadv : s.advance (.txdata p id) ok = (s.drop id, []) := if_neg hup
      apply h.moves hf <;> rw [hadv]
      case hout => simp [drop_ids]
      all_goals simp [empty, loaded, State.drop]
  | txdataTake p id => exact txdataTake_kept h hf
  | txdataFill p id b => exact txdataFill_kept h hf
  | txdataQueue b => exact h.moves hf rfl rfl (fun _ => rfl) (txQueue_loaded s b) fun _ => rfl
  | completeQueue b => exact h.moves hf rfl rfl (txQueue_empty s b) (fun _ => rfl) fun _ => rfl
  | prepareQueue b => exact h.moves hf rfl rfl (txQueue_empty s b) (fun _ => rfl) fun _ => rfl
  | complete b => exact freeBuf_kept h hf rfl rfl rfl rfl rfl rfl rfl
  | prepareTake => exact prepareTake_kept h hf
  | prepareFree b => exact freeBuf_kept h hf rfl rfl rfl rfl rfl rfl rfl
  | txdataFlow =>
    obtain ⟨tbusy, vifs, heq⟩ := flowStop_eq s
    apply h.moves hf <;> simp [State.advance, heq, empty, loaded, ids]
  | completeFlow =>
    obtain ⟨tbusy, vifs, heq⟩ := flowWake_eq s
    apply h.moves hf <;> simp [State.advance, heq, empty, loaded, ids]
  | prepare =>
    by_cases hpost : s.post.list = [] <;> apply h.moves hf rfl rfl <;> simp [State.advance, hpost]
  | start | stop => exact h.moves hf rfl rfl (fun _ => rfl) (fun _ => rfl) fun _ => rfl
  | cancelFirst =>
    rcases cancelAt_eq s (s.succ .postHead) with heq | heq <;>
      apply h.moves hf rfl rfl <;> simp [State.advance, heq]
  | cancel pos next =>
    by_cases hpos : pos = .freeHead
    · apply h.moves hf <;> simp [State.advance, hpos, empty, loaded, ids]
    · rcases cancelAt_eq s next with heq | heq <;>
        apply h.moves hf <;> simp [State.advance, hpos, heq]

theorem thread_kept (h : Kept s) (thread : Thread) (hempty : thread.empty = s.thread.empty)
    (hloaded : thread.loaded = s.thread.loaded) : Kept { s with thread := thread } := by
  unfold Kept empty loaded at h ⊢
  rw [← hempty, ← hloaded] at h
  exact h

/-- The transmit thread moves a buffer, or releases its storage. -/
theorem process_kept (h : Kept s) (ok : Bool) : Kept (s.process ok) := by
  unfold State.process
  cases hthread : s.thread with
  | idle => exact thread_kept h .test (by rw [hthread]; rfl) (by rw [hthread]; rfl)
  | test | checkState =>
    dsimp only
    split_ifs <;> exact thread_kept h _ (by rw [hthread]; rfl) (by rw [hthread]; rfl)
  | take =>
    cases hpost : s.post.list with
    | nil =>
      simp only [BufQueue.txDequeue, hpost]
      exact thread_kept h .idle (by rw [hthread]; rfl) (by rw [hthread]; rfl)
    | cons b rest =>
      simp only [BufQueue.txDequeue, hpost]
      apply Ledger.congr h
      · simp [empty, hthread, Thread.empty]
      · intro x
        have := count_head b rest x
        simp only [loaded, hthread, hpost, Thread.loaded, List.count_append, List.count_nil]
        omega
      · exact fun _ => rfl
  | submit b =>
    cases ok with
    | true =>
      apply Ledger.congr h
      · simp [empty, hthread, Thread.empty]
      · intro x
        simp only [loaded, hthread, Thread.loaded, if_true, List.count_append, List.count_nil]
        omega
      · exact fun _ => rfl
    | false => exact thread_kept h (.fail b) (by rw [hthread]; rfl) (by rw [hthread]; rfl)
  | fail b =>
    have hmem : b ∈ loaded s++s.running.flatMap Frame.loaded := by
      simp [loaded, hthread, Thread.loaded]
    obtain ⟨n, hn⟩ := Ledger.token h hmem
    have hdrain : Ledger (Function.update s.load b none)
        ((s.free.list++[b])++s.running.flatMap Frame.empty)
        ((s.post.list++s.submitted)++s.running.flatMap Frame.loaded)
        (ids (s.freeBuf b .devKfreeSkb)++s.running.flatMap Frame.entering) s.calls := by
      apply Ledger.drain h hn
      · intro x
        simp only [empty, hthread, Thread.empty, List.count_append, List.count_nil]
        omega
      · intro x
        simp only [loaded, hthread, Thread.loaded, List.count_append]
        omega
      · intro m
        rw [List.count_append, List.count_append, freeBuf_ids hn]
        omega
    rw [← freeBuf_load s b .devKfreeSkb] at hdrain
    apply Ledger.congr hdrain
    · exact fun _ => rfl
    · simp [loaded, Thread.loaded, State.freeBuf, State.setBuf]
    · exact fun _ => rfl
  | queue b =>
    apply Ledger.congr h
    · intro x
      simp only [empty, hthread, Thread.empty, BufQueue.txQueue, List.count_append, List.count_nil]
      omega
    · simp [loaded, hthread, Thread.loaded]
    · exact fun _ => rfl

/-! ## Counters -/

/-- What one step does to a queue. -/
def Moved (q q' : BufQueue) : Prop := q' = q ∨ (∃ b, q' = q.txQueue b) ∨ q' = q.txDequeue.2

theorem moved_dequeue {q q' : BufQueue} {b : Option BufId} (h : q.txDequeue = (b, q')) :
    Moved q q' := .inr (.inr (by rw [h]))

theorem fill_eq (s : State) (p : Pkt) (id : ℕ) (b : BufId) (kmalloc : Bool) :
    ∃ v stray, s.fill p id b kmalloc = { s.setBuf b v with stray := stray } := by
  unfold State.fill
  split
  · exact ⟨_, _, rfl⟩
  · exact ⟨_, _, rfl⟩

theorem advance_moved (s : State) (f : Frame) (ok : Bool) :
    Moved s.free (s.advance f ok).1.free ∧ Moved s.post (s.advance f ok).1.post := by
  fun_cases State.advance s f ok
  case case4 heq => exact ⟨moved_dequeue heq, .inl rfl⟩
  case case5 p id b =>
    obtain ⟨v, stray, heq⟩ := fill_eq s p id b ok
    rw [heq]
    exact ⟨.inl rfl, .inl rfl⟩
  case case6 b => exact ⟨.inl rfl, .inr (.inl ⟨b, rfl⟩)⟩
  case case7 =>
    obtain ⟨tbusy, vifs, heq⟩ := flowStop_eq s
    rw [heq]
    exact ⟨.inl rfl, .inl rfl⟩
  case case9 b => exact ⟨.inr (.inl ⟨b, rfl⟩), .inl rfl⟩
  case case10 =>
    obtain ⟨tbusy, vifs, heq⟩ := flowWake_eq s
    rw [heq]
    exact ⟨.inl rfl, .inl rfl⟩
  case case14 heq => exact ⟨.inl rfl, moved_dequeue heq⟩
  case case16 b => exact ⟨.inr (.inl ⟨b, rfl⟩), .inl rfl⟩
  all_goals exact ⟨.inl rfl, .inl rfl⟩

theorem process_moved (s : State) (ok : Bool) :
    Moved s.free (s.process ok).free ∧ Moved s.post (s.process ok).post := by
  fun_cases State.process s ok
  case case5 heq => exact ⟨.inl rfl, moved_dequeue heq⟩
  case case9 b heq => exact ⟨.inr (.inl ⟨b, rfl⟩), .inl rfl⟩
  all_goals exact ⟨.inl rfl, .inl rfl⟩

theorem moved_count {q q' : BufQueue} (hmoved : Moved q q') (h : q.count = q.list.length) :
    q'.count = q'.list.length := by
  rcases hmoved with rfl | ⟨b, rfl⟩ | rfl
  · exact h
  · simp [BufQueue.txQueue, h]
  · unfold BufQueue.txDequeue
    cases hlist : q.list with
    | nil => simp [h, hlist]
    | cons b rest => simp [h, hlist]

/-! ## Storage is released by its own function -/

structure Typed (s : State) : Prop where
  kind : ∀ b st, (s.buf b).skb = some st → st.isCopy = (s.buf b).cfm
  matching : ∀ r ∈ s.released, r.1.release = r.2

theorem setBuf_typed (h : Typed s) {v : UsbBuf} (hv : ∀ st, v.skb = some st → st.isCopy = v.cfm) :
    Typed (s.setBuf b v) where
  kind x st hst := by
    by_cases hx : x = b
    · subst hx
      simp only [State.setBuf, Function.update_self] at hst ⊢
      exact hv st hst
    · simp only [State.setBuf, Function.update_of_ne hx] at hst ⊢
      exact h.kind x st hst
  matching := h.matching

theorem release_eq (st : Store) :
    st.release = if st.isCopy then .kfree else .devKfreeSkb := by
  cases st <;> rfl

theorem freeBuf_typed (h : Typed s) {r : Release}
    (hr : r = if (s.buf b).cfm then .kfree else .devKfreeSkb) : Typed (s.freeBuf b r) where
  kind := (setBuf_typed h fun st hst => by cases hst).kind
  matching x hx := by
    rcases List.mem_append.mp hx with hnew | hold
    · obtain ⟨st, hst, rfl⟩ := List.mem_map.mp hnew
      rw [release_eq, h.kind b st (Option.mem_toList.mp hst), hr]
    · exact h.matching x hold

theorem drop_typed (h : Typed s) (id : ℕ) : Typed (s.drop id) where
  kind := h.kind
  matching x hx := by
    rcases List.mem_cons.mp hx with rfl | hold
    · rfl
    · exact h.matching x hold

theorem fill_typed (h : Typed s) (p : Pkt) (id : ℕ) (b : BufId) (kmalloc : Bool) :
    Typed (s.fill p id b kmalloc) := by
  have hskb : Typed (s.setBuf b ⟨some (.skb id), false⟩) :=
    setBuf_typed h fun st hst => by cases hst; rfl
  have hcopy : Typed (s.setBuf b ⟨some (.copy id), true⟩) :=
    setBuf_typed h fun st hst => by cases hst; rfl
  unfold State.fill
  split
  · exact ⟨hcopy.kind, hcopy.matching⟩
  · exact ⟨hskb.kind, hskb.matching⟩

/-! ## What a careful step is -/

def Rechecked (s : State) : Prop :=
  s.tbusy = true → s.free.count < AICWF_USB_TX_HIGH_WATER ∨ Frame.completeFlow ∈ s.running

instance (s : State) : Decidable (Rechecked s) := inferInstanceAs (Decidable (_ → _ ∨ _))

/-- A refused frame needs no confirmation, and a buffer goes back as `Rechecked` says. -/
def Returns (s : State) : Thread → Prop
  | .fail b => (s.buf b).cfm = false
  | .queue _ => Rechecked s
  | _ => True

/-- A copy finds room; a flush and a refused frame meet no copy; a flush finds the buffer that it
saw, and the walk of a stop its next one; a buffer that goes back without a look at the flow
control leaves nothing to wake. -/
def Careful (s : State) : Act → Prop
  | .advance (.txdataFill p _ _) ok => p.needCfm = true → ok = true
  | .advance .prepareTake _ => s.post.list ≠ []
  | .advance (.prepareFree b) _ => (s.buf b).cfm = false
  | .advance (.prepareQueue _) _ => Rechecked s
  | .advance (.cancel _ (.buf b)) _ => b ∈ s.post.list
  | .process _ => Returns s s.thread
  | _ => True

instance (s : State) : ∀ t, Decidable (Returns s t)
  | .fail _ => inferInstanceAs (Decidable (_ = _))
  | .queue _ => inferInstanceAs (Decidable (Rechecked s))
  | .idle | .test | .checkState | .take | .submit _ => inferInstanceAs (Decidable True)

instance (s : State) : ∀ a, Decidable (Careful s a)
  | .advance (.txdataFill _ _ _) _ => inferInstanceAs (Decidable (_ → _))
  | .advance .prepareTake _ => inferInstanceAs (Decidable (_ ≠ _))
  | .advance (.prepareFree _) _ => inferInstanceAs (Decidable (_ = _))
  | .advance (.prepareQueue _) _ => inferInstanceAs (Decidable (Rechecked s))
  | .advance (.cancel _ (.buf b)) _ => inferInstanceAs (Decidable (b ∈ s.post.list))
  | .process _ => inferInstanceAs (Decidable (Returns s s.thread))
  | .txdata _ | .complete _ _ | .start | .stop | .advance (.txdata _ _) _
  | .advance (.txdataTake _ _) _ | .advance (.txdataQueue _) _ | .advance .txdataFlow _
  | .advance (.complete _) _ | .advance (.completeQueue _) _ | .advance .completeFlow _
  | .advance .start _ | .advance .prepare _ | .advance .stop _ | .advance .cancelFirst _
  | .advance (.cancel _ .postHead) _ | .advance (.cancel _ .freeHead) _ =>
    inferInstanceAs (Decidable True)

theorem advance_typed (h : Typed s) (hcare : Careful s (.advance f ok)) :
    Typed (s.advance f ok).1 := by
  fun_cases State.advance s f ok
  case case2 | case3 => exact drop_typed h _
  case case5 => exact fill_typed h ..
  case case7 =>
    obtain ⟨tbusy, vifs, heq⟩ := flowStop_eq s
    rw [heq]
    exact ⟨h.kind, h.matching⟩
  case case8 b => exact freeBuf_typed h rfl
  case case10 =>
    obtain ⟨tbusy, vifs, heq⟩ := flowWake_eq s
    rw [heq]
    exact ⟨h.kind, h.matching⟩
  case case15 b =>
    have hcfm : (s.buf b).cfm = false := hcare
    exact freeBuf_typed h (by rw [hcfm]; rfl)
  all_goals exact ⟨h.kind, h.matching⟩

theorem process_typed (h : Typed s) (hcare : Careful s (.process ok)) : Typed (s.process ok) := by
  unfold Careful at hcare
  fun_cases State.process s ok
  case case8 b hthread t =>
    rw [hthread] at hcare
    have hfree : Typed (s.freeBuf b .devKfreeSkb) := freeBuf_typed h (by rw [hcare]; rfl)
    exact ⟨hfree.kind, hfree.matching⟩
  all_goals exact ⟨h.kind, h.matching⟩

/-! ## Order -/

def Thread.submitting : Thread → List BufId
  | .submit b => [b]
  | _ => []

/-- Submitted frames, then the one in the thread, then the posted ones. -/
def Queued (s : State) : Prop :=
  (s.submits++(Thread.submitting s.thread++s.post.list).filterMap s.load).Sublist s.accepted

theorem setBuf_queued (h : Queued s) (hb : b ∉ Thread.submitting s.thread++s.post.list)
    (v : UsbBuf) : Queued (s.setBuf b v) := by
  unfold Queued at h ⊢
  rw [setBuf_load]
  dsimp only [State.setBuf]
  rw [filterMap_update_of_notMem hb]
  exact h

/-- A buffer that a function holds is neither posted nor in the thread. -/
theorem held_not_queued (h : Kept s) (hf : f ∈ s.running) (hb : b ∈ f.empty ∨ b ∈ f.loaded) :
    b ∉ Thread.submitting s.thread++s.post.list := by
  intro hmem
  have hloaded : b ∈ loaded s := by
    rcases List.mem_append.mp hmem with hthread | hpost
    · have hsub : b ∈ s.thread.loaded := by
        cases hs : s.thread <;> rw [hs] at hthread <;> simp_all [Thread.submitting, Thread.loaded]
      exact List.mem_append_right _ hsub
    · exact List.mem_append_left _ (List.mem_append_left _ hpost)
  rcases hb with hb | hb
  · have hempty : b ∈ empty s++s.running.flatMap Frame.empty :=
      List.mem_append_right _ (List.mem_flatMap.mpr ⟨f, hf, hb⟩)
    exact Ledger.not_loaded h hempty (List.mem_append_left _ hloaded)
  · exact (Ledger.sole h hf hb).1 hloaded

theorem filterMap_one (load : BufId → Option ℕ) (b : BufId) :
    [b].filterMap load = (load b).toList := by
  cases hb : load b <;> simp [hb]

theorem txDequeue_some {q q' : BufQueue} (h : q.txDequeue = (some b, q')) :
    q.list = b::q'.list := by
  unfold BufQueue.txDequeue at h
  cases hlist : q.list with
  | nil =>
    rw [hlist] at h
    cases h
  | cons c rest =>
    rw [hlist] at h
    cases h
    rfl

theorem advance_queued (h : Queued s) (hkept : Kept s) (hf : f ∈ s.running) (ok : Bool) :
    Queued (s.advance f ok).1 := by
  fun_cases State.advance s f ok
  case case4 => exact h
  case case5 p id b =>
    obtain ⟨v, stray, heq⟩ := fill_eq s p id b ok
    have hb := held_not_queued hkept hf (.inl (List.mem_singleton_self b))
    rw [heq]
    exact setBuf_queued h hb v
  case case6 b =>
    unfold Queued at h ⊢
    dsimp only [BufQueue.txQueue]
    rw [← List.append_assoc, List.filterMap_append, filterMap_one, ← List.append_assoc]
    exact h.append (List.Sublist.refl _)
  case case7 =>
    obtain ⟨tbusy, vifs, heq⟩ := flowStop_eq s
    rw [heq]
    exact h
  case case8 b =>
    have hb := held_not_queued hkept hf (.inr (List.mem_singleton_self b))
    exact setBuf_queued h hb _
  case case10 =>
    obtain ⟨tbusy, vifs, heq⟩ := flowWake_eq s
    rw [heq]
    exact h
  case case14 b q heq =>
    unfold Queued at h ⊢
    rw [txDequeue_some heq] at h
    refine List.Sublist.trans ?_ h
    exact ((List.sublist_cons_self b q.list).append_left _ |>.filterMap s.load).append_left _
  case case15 b =>
    have hb := held_not_queued hkept hf (.inr (List.mem_singleton_self b))
    exact setBuf_queued h hb _
  all_goals exact h

theorem thread_queued (h : Queued s) {thread : Thread}
    (hthread : (Thread.submitting thread).Sublist (Thread.submitting s.thread)) :
    Queued { s with thread := thread } :=
  (((hthread.append_right s.post.list).filterMap s.load).append_left s.submits).trans h

theorem process_queued (h : Queued s) (hkept : Kept s) (ok : Bool) : Queued (s.process ok) := by
  unfold State.process
  cases hthread : s.thread with
  | idle => exact thread_queued h (List.nil_sublist _)
  | test | checkState =>
    apply thread_queued h
    split_ifs <;> exact List.nil_sublist _
  | take =>
    cases hpost : s.post.list with
    | nil =>
      simp only [BufQueue.txDequeue, hpost]
      exact thread_queued h (List.nil_sublist _)
    | cons b rest =>
      simp only [BufQueue.txDequeue, hpost]
      unfold Queued at h ⊢
      rw [hthread, hpost] at h
      exact h
  | submit b =>
    cases ok with
    | true =>
      unfold Queued at h ⊢
      rw [hthread] at h
      dsimp only [Thread.submitting, if_true] at h ⊢
      rw [List.filterMap_append, filterMap_one, ← List.append_assoc] at h
      exact h
    | false => exact thread_queued h (List.nil_sublist _)
  | fail b =>
    have hoff : b ∉ s.post.list := by
      intro hpost
      have hplaced := hkept.placed b
      have hin := List.count_pos_iff.mpr hpost
      simp only [loaded, hthread, Thread.loaded, List.count_append,
        List.count_singleton_self] at hplaced
      omega
    have hqueue : Queued { s with thread := .queue b } := thread_queued h (List.nil_sublist _)
    exact setBuf_queued hqueue hoff _
  | queue b => exact thread_queued h (List.nil_sublist _)

/-! ## Frames that are not accepted yet -/

/-- The buffer that is about to be posted. -/
def Frame.posting : Frame → List BufId
  | .txdataQueue b => [b]
  | _ => []

/-- Calls on their way to the post list. -/
def arriving (s : State) : List ℕ :=
  s.running.flatMap Frame.entering++(s.running.flatMap Frame.posting).filterMap s.load

/-- A call is accepted once, and only when it is no more on its way. -/
def Fresh (s : State) : Prop :=
  ∀ n, (arriving s).count n+s.accepted.count n ≤ if n < s.calls then 1 else 0

theorem posting_loaded (f : Frame) : (Frame.posting f).Sublist f.loaded := by
  cases f with
  | txdataQueue b => exact List.Sublist.refl _
  | _ => exact List.nil_sublist _

/-- One function goes on: what it stops announcing it announces anew or has accepted. -/
theorem goOn_fresh (h : Fresh s) (hf : f ∈ s.running)
    (hrest : ((s.running.erase f).flatMap Frame.posting).filterMap (s.advance f ok).1.load =
      ((s.running.erase f).flatMap Frame.posting).filterMap s.load)
    (hcalls : (s.advance f ok).1.calls = s.calls)
    (hsum : ∀ n, ((s.advance f ok).2.flatMap Frame.entering).count n+
      (((s.advance f ok).2.flatMap Frame.posting).filterMap (s.advance f ok).1.load).count n+
        (s.advance f ok).1.accepted.count n ≤
      f.entering.count n+((Frame.posting f).filterMap s.load).count n+s.accepted.count n) :
    Fresh (s.goOn f ok) := by
  intro n
  have hold := h n
  have hn := hsum n
  have hsplit := List.perm_cons_erase hf
  have henter := (hsplit.flatMap_right Frame.entering).count_eq n
  have hpost := ((hsplit.flatMap_right Frame.posting).filterMap s.load).count_eq n
  have hnew : arriving (s.goOn f ok) =
      ((s.advance f ok).2++s.running.erase f).flatMap Frame.entering++
        (((s.advance f ok).2++s.running.erase f).flatMap Frame.posting).filterMap
          (s.advance f ok).1.load := rfl
  have hsame : (s.goOn f ok).calls = s.calls := hcalls
  have haccepted : (s.goOn f ok).accepted = (s.advance f ok).1.accepted := rfl
  rw [hnew, hsame, haccepted]
  simp only [arriving, List.flatMap_append, List.flatMap_cons, List.filterMap_append,
    List.count_append, hrest] at hold henter hpost ⊢
  omega

/-- A buffer that a function holds is not posted by another. -/
theorem held_not_posting (h : Kept s) (hf : f ∈ s.running) (hb : b ∈ f.empty ∨ b ∈ f.loaded) :
    b ∉ (s.running.erase f).flatMap Frame.posting := by
  intro hmem
  obtain ⟨g, hg, hbg⟩ := List.mem_flatMap.mp hmem
  have hload : b ∈ (s.running.erase f).flatMap Frame.loaded :=
    List.mem_flatMap.mpr ⟨g, hg, (posting_loaded g).subset hbg⟩
  rcases hb with hb | hb
  · have hempty : b ∈ empty s++s.running.flatMap Frame.empty :=
      List.mem_append_right _ (List.mem_flatMap.mpr ⟨f, hf, hb⟩)
    have hall : b ∈ s.running.flatMap Frame.loaded :=
      List.mem_flatMap.mpr ⟨g, List.mem_of_mem_erase hg, (posting_loaded g).subset hbg⟩
    exact Ledger.not_loaded h hempty (List.mem_append_right _ hall)
  · exact (Ledger.sole h hf hb).2 hload

/-- A function that posts nothing next, and loads at most a buffer of its own. -/
theorem goOn_fresh_of (h : Fresh s) (hkept : Kept s) (hf : f ∈ s.running)
    (hload : (s.advance f ok).1.load = s.load ∨
      ∃ b v, (b ∈ f.empty ∨ b ∈ f.loaded) ∧ (s.advance f ok).1.load = Function.update s.load b v)
    (hcalls : (s.advance f ok).1.calls = s.calls)
    (haccepted : (s.advance f ok).1.accepted = s.accepted)
    (hpost : (s.advance f ok).2.flatMap Frame.posting = [])
    (henter : ∀ n, ((s.advance f ok).2.flatMap Frame.entering).count n ≤ f.entering.count n) :
    Fresh (s.goOn f ok) := by
  apply goOn_fresh h hf
  · rcases hload with hload | ⟨b, v, hb, hload⟩
    · rw [hload]
    · rw [hload]
      exact filterMap_update_of_notMem (held_not_posting hkept hf hb) v
  · exact hcalls
  · intro n
    have := henter n
    rw [hpost, haccepted, List.filterMap_nil, List.count_nil]
    omega

theorem txdataFill_fresh (h : Fresh s) (hkept : Kept s) {p : Pkt} {id : ℕ}
    (hf : .txdataFill p id b ∈ s.running) : Fresh (s.goOn (.txdataFill p id b) ok) := by
  obtain ⟨v, stray, heq⟩ := fill_eq s p id b ok
  have hload := fill_load s p id b ok
  apply goOn_fresh h hf
  · have hb := held_not_posting hkept hf (.inl (List.mem_singleton_self b))
    have hnew : (s.advance (.txdataFill p id b) ok).1.load =
        Function.update s.load b (some id) := hload
    rw [hnew]
    exact filterMap_update_of_notMem hb _
  · simp [State.advance, heq, State.setBuf]
  · intro n
    have hnew : (s.advance (.txdataFill p id b) ok).1.load =
        Function.update s.load b (some id) := hload
    rw [hnew]
    simp [State.advance, Frame.posting, heq, State.setBuf]

theorem txdataQueue_fresh (h : Fresh s) (hf : .txdataQueue b ∈ s.running) :
    Fresh (s.goOn (.txdataQueue b) ok) := by
  apply goOn_fresh h hf rfl rfl
  intro n
  simp only [State.advance, List.flatMap_singleton, Frame.posting, Frame.entering,
    filterMap_one, List.filterMap_nil, List.count_nil, List.count_append]
  omega

theorem frame_fresh (h : Fresh s) (hkept : Kept s) (hf : f ∈ s.running) :
    Fresh (s.goOn f ok) := by
  cases f with
  | txdata p id =>
    by_cases hup : s.state = .up
    · apply goOn_fresh_of h hkept hf <;> simp [State.advance, hup, Frame.posting]
    · have hadv : s.advance (.txdata p id) ok = (s.drop id, []) := if_neg hup
      apply goOn_fresh_of h hkept hf <;> rw [hadv]
      case hload => exact .inl rfl
      all_goals simp [State.drop]
  | txdataTake p id =>
    cases hfree : s.free.txDequeue with
    | mk first q =>
      cases first with
      | none =>
        have hadv : s.advance (.txdataTake p id) ok = (s.drop id, [.txdataFlow]) := by
          simp only [State.advance, hfree]
        apply goOn_fresh_of h hkept hf <;> rw [hadv]
        case hload => exact .inl rfl
        all_goals simp [State.drop, Frame.posting]
      | some b =>
        have hadv : s.advance (.txdataTake p id) ok =
            ({ s with free := q }, [.txdataFill p id b]) := by simp only [State.advance, hfree]
        apply goOn_fresh_of h hkept hf <;> rw [hadv]
        case hload => exact .inl rfl
        all_goals simp [Frame.posting]
  | txdataFill p id b => exact txdataFill_fresh h hkept hf
  | txdataQueue b => exact txdataQueue_fresh h hf
  | complete b | prepareFree b =>
    apply goOn_fresh_of h hkept hf
    case hload => exact .inr ⟨b, none, .inr (List.mem_singleton_self b), freeBuf_load s b _⟩
    all_goals simp [State.advance, State.freeBuf, State.setBuf, Frame.posting]
  | completeQueue b | prepareQueue b | start | stop =>
    exact goOn_fresh_of h hkept hf (.inl rfl) rfl rfl rfl fun _ => Nat.le_refl _
  | txdataFlow =>
    obtain ⟨tbusy, vifs, heq⟩ := flowStop_eq s
    have hadv : s.advance .txdataFlow ok = ({ s with tbusy := tbusy, vifs := vifs }, []) := by
      rw [← heq]
      rfl
    apply goOn_fresh_of h hkept hf <;> rw [hadv]
    case hload => exact .inl rfl
    all_goals simp
  | completeFlow =>
    obtain ⟨tbusy, vifs, heq⟩ := flowWake_eq s
    have hadv : s.advance .completeFlow ok = ({ s with tbusy := tbusy, vifs := vifs }, []) := by
      rw [← heq]
      rfl
    apply goOn_fresh_of h hkept hf <;> rw [hadv]
    case hload => exact .inl rfl
    all_goals simp
  | prepare =>
    by_cases hpost : s.post.list = [] <;> apply goOn_fresh_of h hkept hf <;>
      simp [State.advance, hpost, Frame.posting]
  | prepareTake =>
    cases hpost : s.post.txDequeue with
    | mk first q =>
      cases first with
      | none =>
        have hadv : s.advance .prepareTake ok = ({ s with stray := true }, []) := by
          simp only [State.advance, hpost]
        apply goOn_fresh_of h hkept hf <;> rw [hadv]
        case hload => exact .inl rfl
        all_goals simp
      | some b =>
        have hadv : s.advance .prepareTake ok = ({ s with post := q }, [.prepareFree b]) := by
          simp only [State.advance, hpost]
        apply goOn_fresh_of h hkept hf <;> rw [hadv]
        case hload => exact .inl rfl
        all_goals simp [Frame.posting]
  | cancelFirst =>
    rcases cancelAt_eq s (s.succ .postHead) with heq | heq <;>
      apply goOn_fresh_of h hkept hf <;> simp [State.advance, heq, Frame.posting]
  | cancel pos next =>
    by_cases hpos : pos = .freeHead
    · have hadv : s.advance (.cancel pos next) ok = ({ s with stray := true }, []) := if_pos hpos
      apply goOn_fresh_of h hkept hf <;> rw [hadv]
      case hload => exact .inl rfl
      all_goals simp
    · rcases cancelAt_eq s next with heq | heq <;>
        apply goOn_fresh_of h hkept hf <;> simp [State.advance, hpos, heq, Frame.posting]

theorem thread_not_posting (h : Kept s) (hb : b ∈ s.thread.loaded) :
    b ∉ s.running.flatMap Frame.posting := by
  intro hmem
  obtain ⟨g, hg, hbg⟩ := List.mem_flatMap.mp hmem
  have hload : b ∈ s.running.flatMap Frame.loaded :=
    List.mem_flatMap.mpr ⟨g, hg, (posting_loaded g).subset hbg⟩
  have hplaced := h.placed b
  have := List.count_pos_iff.mpr hb
  have := List.count_pos_iff.mpr hload
  simp only [loaded, List.count_append] at hplaced
  omega

theorem process_fresh (h : Fresh s) (hkept : Kept s) (ok : Bool) : Fresh (s.process ok) := by
  unfold State.process
  cases hthread : s.thread with
  | idle | test | checkState | queue _ => exact h
  | take =>
    cases hpost : s.post.list with
    | nil =>
      simp only [BufQueue.txDequeue, hpost]
      exact h
    | cons b rest =>
      simp only [BufQueue.txDequeue, hpost]
      exact h
  | submit b => cases ok <;> exact h
  | fail b =>
    have hb : b ∉ s.running.flatMap Frame.posting :=
      thread_not_posting hkept (by rw [hthread]; exact List.mem_singleton_self b)
    have hload := freeBuf_load s b .devKfreeSkb
    have hsame : arriving { s.freeBuf b .devKfreeSkb with thread := .queue b } = arriving s := by
      unfold arriving
      have hnew : State.load { s.freeBuf b .devKfreeSkb with thread := .queue b } =
          Function.update s.load b none := hload
      rw [hnew]
      exact congrArg (_++·) (filterMap_update_of_notMem hb none)
    intro n
    rw [hsame]
    exact h n

/-! ## Flow control -/

structure Flow (s : State) : Prop where
  pending : s.tbusy = true → s.free.count > AICWF_USB_TX_HIGH_WATER →
    Frame.completeFlow ∈ s.running
  stopped : ∀ v ∈ s.vifs, v.stopped = true → s.tbusy = true ∧ (v.up && v.ndev) = true

theorem flowStop_stopped (h : Flow s) : ∀ v ∈ s.flowStop.vifs, v.stopped = true →
    s.flowStop.tbusy = true ∧ (v.up && v.ndev) = true := by
  unfold State.flowStop
  split
  · intro v hv hstopped
    obtain ⟨u, hu, rfl⟩ := List.mem_map.mp hv
    by_cases hup : (u.up && u.ndev) = true
    · rw [if_pos hup]
      exact ⟨rfl, hup⟩
    · rw [if_neg hup] at hstopped ⊢
      exact ⟨rfl, (h.stopped u hu hstopped).2⟩
  · exact h.stopped

theorem flowWake_stopped (h : Flow s) : ∀ v ∈ s.flowWake.vifs, v.stopped = true →
    s.flowWake.tbusy = true ∧ (v.up && v.ndev) = true := by
  unfold State.flowWake
  split
  · intro v hv hstopped
    obtain ⟨u, hu, rfl⟩ := List.mem_map.mp hv
    by_cases hup : (u.up && u.ndev) = true
    · rw [if_pos hup] at hstopped
      cases hstopped
    · rw [if_neg hup] at hstopped
      exact absurd (h.stopped u hu hstopped).2 hup
  · exact h.stopped

/-- A function that leaves the flow control alone and gives no buffer back. -/
theorem goOn_flow (h : Flow s) (hf : f ≠ .completeFlow)
    (htbusy : (s.advance f ok).1.tbusy = s.tbusy) (hvifs : (s.advance f ok).1.vifs = s.vifs)
    (hcount : (s.advance f ok).1.free.count ≤ s.free.count) : Flow (s.goOn f ok) where
  pending hbusy hhigh := by
    have hbusy' : s.tbusy = true := htbusy ▸ hbusy
    have hhigh' : s.free.count > AICWF_USB_TX_HIGH_WATER := lt_of_lt_of_le hhigh hcount
    exact mem_goOn_of_ne (h.pending hbusy' hhigh') hf.symm
  stopped := by
    have htb : (s.goOn f ok).tbusy = s.tbusy := htbusy
    have hvs : (s.goOn f ok).vifs = s.vifs := hvifs
    rw [htb, hvs]
    exact h.stopped

theorem txdataFlow_flow (h : Flow s) : Flow (s.goOn .txdataFlow ok) where
  pending hbusy hhigh := by
    change s.flowStop.tbusy = true at hbusy
    change s.flowStop.free.count > _ at hhigh
    unfold State.flowStop at hbusy hhigh
    split_ifs at hbusy hhigh with hlow
    · simp only [AICWF_USB_TX_LOW_WATER, AICWF_USB_TX_HIGH_WATER, AICWF_USB_TX_URBS] at hlow hhigh
      omega
    · exact mem_goOn_of_ne (h.pending hbusy hhigh) (by simp)
  stopped := flowStop_stopped h

theorem completeFlow_flow (h : Flow s) : Flow (s.goOn .completeFlow ok) where
  pending hbusy hhigh := by
    change s.flowWake.tbusy = true at hbusy
    change s.flowWake.free.count > _ at hhigh
    unfold State.flowWake at hbusy hhigh
    split_ifs at hbusy hhigh with hwake
    exact absurd ⟨hhigh, hbusy⟩ hwake
  stopped := flowWake_stopped h

theorem prepareQueue_flow (h : Flow s) (hcheck : Rechecked s) :
    Flow (s.goOn (.prepareQueue b) ok) where
  pending hbusy hhigh := by
    change s.free.count+1 > _ at hhigh
    rcases hcheck hbusy with hlow | hpending
    · omega
    · exact mem_goOn_of_ne hpending (by simp)
  stopped := h.stopped

theorem txDequeue_le (q : BufQueue) : q.txDequeue.2.count ≤ q.count := by
  unfold BufQueue.txDequeue
  cases q.list with
  | nil => exact le_refl _
  | cons b rest =>
    dsimp only
    omega

theorem frame_flow (h : Flow s) (hcare : Careful s (.advance f ok)) : Flow (s.goOn f ok) := by
  cases f with
  | txdataFlow => exact txdataFlow_flow h
  | completeQueue b => exact ⟨fun _ _ => mem_goOn_new (List.mem_singleton_self _), h.stopped⟩
  | completeFlow => exact completeFlow_flow h
  | prepareQueue b => exact prepareQueue_flow h hcare
  | txdata p id =>
    by_cases hup : s.state = .up <;> apply goOn_flow h <;> simp [State.advance, hup, State.drop]
  | txdataTake p id =>
    have hle := txDequeue_le s.free
    cases hfree : s.free.txDequeue with
    | mk first q =>
      rw [hfree] at hle
      cases first <;> apply goOn_flow h <;> simp [State.advance, hfree, State.drop]
      exact hle
  | txdataFill p id b =>
    obtain ⟨v, stray, heq⟩ := fill_eq s p id b ok
    apply goOn_flow h <;> simp [State.advance, heq, State.setBuf]
  | cancel pos next =>
    by_cases hpos : pos = .freeHead <;> apply goOn_flow h <;> simp [State.advance, hpos]
  | prepareTake =>
    cases hpost : s.post.txDequeue with
    | mk first q => cases first <;> apply goOn_flow h <;> simp [State.advance, hpost]
  | _ => exact goOn_flow h (by simp) rfl rfl (le_refl _)

theorem process_flow (h : Flow s) (hcare : Careful s (.process ok)) : Flow (s.process ok) := by
  unfold Careful at hcare
  fun_cases State.process s ok
  case case9 b hthread =>
    rw [hthread] at hcare
    refine ⟨fun hbusy hhigh => ?_, h.stopped⟩
    change s.free.count+1 > _ at hhigh
    rcases hcare hbusy with hlow | hpending
    · omega
    · exact hpending
  all_goals exact ⟨h.pending, h.stopped⟩

/-! ## The walk of a stop -/

/-- No cursor points to the head of the free list. -/
def Walks (s : State) : Prop :=
  ∀ pos next, Frame.cancel pos next ∈ s.running → pos ≠ .freeHead ∧ next ≠ .freeHead

theorem succ_buf (hb : b ∈ s.post.list) : s.succ (.buf b) ≠ .freeHead := by
  unfold State.succ
  dsimp only
  rw [if_pos hb]
  split <;> simp

theorem succ_postHead (s : State) :
    s.succ .postHead = .postHead ∨ ∃ b ∈ s.post.list, s.succ .postHead = .buf b := by
  unfold State.succ
  cases hpost : s.post.list with
  | nil => exact .inl rfl
  | cons b rest => exact .inr ⟨b, List.mem_cons_self, rfl⟩

theorem cancelAt_walks {pos : Node} (hpos : pos = .postHead ∨ ∃ b ∈ s.post.list, pos = .buf b) :
    ∀ p n, Frame.cancel p n ∈ s.cancelAt pos → p ≠ .freeHead ∧ n ≠ .freeHead := by
  intro p n hmem
  rcases hpos with rfl | ⟨b, hb, rfl⟩
  · simp [State.cancelAt] at hmem
  · have heq : s.cancelAt (.buf b) = [.cancel (.buf b) (s.succ (.buf b))] := if_neg (by simp)
    rw [heq, List.mem_singleton] at hmem
    cases hmem
    exact ⟨by simp, succ_buf hb⟩

/-- Only a walk goes on as a walk. -/
theorem cancel_of_advance {pos next : Node} (h : .cancel pos next ∈ (s.advance f ok).2) :
    f = .cancelFirst ∨ ∃ p n, f = .cancel p n := by
  cases f with
  | cancelFirst => exact .inl rfl
  | cancel p n => exact .inr ⟨p, n, rfl⟩
  | txdata p id => simp only [State.advance] at h; split_ifs at h <;> simp at h
  | txdataTake p id =>
    simp only [State.advance] at h
    split at h <;> simp at h
  | prepare => simp only [State.advance] at h; split_ifs at h <;> simp at h
  | prepareTake =>
    simp only [State.advance] at h
    split at h <;> simp at h
  | _ => simp [State.advance] at h

theorem frame_walks (h : Walks s) (hf : f ∈ s.running) (hcare : Careful s (.advance f ok)) :
    Walks (s.goOn f ok) := by
  intro p n hmem
  rcases mem_goOn hmem with hnew | hold
  · rcases cancel_of_advance hnew with rfl | ⟨pos, next, rfl⟩
    · exact cancelAt_walks (succ_postHead s) p n hnew
    · have hnodes := h pos next hf
      simp only [State.advance, if_neg hnodes.1] at hnew
      cases next with
      | buf b => exact cancelAt_walks (.inr ⟨b, hcare, rfl⟩) p n hnew
      | postHead => exact cancelAt_walks (.inl rfl) p n hnew
      | freeHead => exact absurd rfl hnodes.2
  · exact h p n hold

theorem process_running (s : State) (ok : Bool) :
    (s.process ok).running = s.running ∧ (s.process ok).stray = s.stray := by
  fun_cases State.process s ok <;> exact ⟨rfl, rfl⟩

theorem fill_stray (s : State) {p : Pkt} {id : ℕ} {kmalloc : Bool}
    (hcare : p.needCfm = true → kmalloc = true) :
    (s.fill p id b kmalloc).stray = s.stray := by
  have hcopy : ¬ p.len < p.copyEnd := Nat.not_lt.mpr (copyEnd_le p)
  have hroom : ¬ p.headroom < sizeofTxdescApi+sizeofUsbHeader := Nat.not_lt.mpr (headroom_le p)
  unfold State.fill
  split_ifs with hcfm
  · simp [hcare hcfm, hcopy]
  · simp [hroom]

theorem advance_stray (hwalks : Walks s) (hf : f ∈ s.running)
    (hcare : Careful s (.advance f ok)) : (s.advance f ok).1.stray = s.stray := by
  fun_cases State.advance s f ok
  case case5 p id b => exact fill_stray s hcare
  case case7 =>
    obtain ⟨tbusy, vifs, heq⟩ := flowStop_eq s
    rw [heq]
  case case10 =>
    obtain ⟨tbusy, vifs, heq⟩ := flowWake_eq s
    rw [heq]
  case case13 q heq =>
    have hpost : s.post.list ≠ [] := hcare
    unfold BufQueue.txDequeue at heq
    split at heq
    · contradiction
    · cases heq
  case case19 next => exact absurd rfl (hwalks _ next hf).1
  all_goals rfl

/-! ## Every step -/

structure Inv (s : State) : Prop where
  kept : Kept s
  counted : s.free.count = s.free.list.length ∧ s.post.count = s.post.list.length
  typed : Typed s
  queued : Queued s
  fresh : Fresh s
  flow : Flow s
  walks : Walks s
  inside : s.stray = false

theorem init_inv (vifs : List (Bool × Bool)) : Inv (init vifs) where
  kept := init_kept vifs
  counted := ⟨by simp [init], rfl⟩
  typed := ⟨fun _ _ h => (nomatch h), fun _ h => (nomatch h)⟩
  queued := List.Sublist.refl _
  fresh _ := Nat.le_refl _
  flow := by
    refine ⟨fun h => (nomatch h), fun v hv hstopped => ?_⟩
    obtain ⟨u, -, rfl⟩ := List.mem_map.mp hv
    cases hstopped
  walks _ _ h := nomatch h
  inside := rfl

theorem goOn_inv (h : Inv s) (hf : f ∈ s.running) (hcare : Careful s (.advance f ok)) :
    Inv (s.goOn f ok) where
  kept := goOn_kept h.kept hf
  counted :=
    have hmoved := advance_moved s f ok
    ⟨moved_count hmoved.1 h.counted.1, moved_count hmoved.2 h.counted.2⟩
  typed :=
    have htyped := advance_typed h.typed hcare
    ⟨htyped.kind, htyped.matching⟩
  queued := advance_queued h.queued h.kept hf ok
  fresh := frame_fresh h.fresh h.kept hf
  flow := frame_flow h.flow hcare
  walks := frame_walks h.walks hf hcare
  inside := (advance_stray h.walks hf hcare).trans h.inside

theorem process_inv (h : Inv s) (hcare : Careful s (.process ok)) : Inv (s.process ok) where
  kept := process_kept h.kept ok
  counted :=
    have hmoved := process_moved s ok
    ⟨moved_count hmoved.1 h.counted.1, moved_count hmoved.2 h.counted.2⟩
  typed := process_typed h.typed hcare
  queued := process_queued h.queued h.kept ok
  fresh := process_fresh h.fresh h.kept ok
  flow := process_flow h.flow hcare
  walks := by
    unfold Walks
    rw [(process_running s ok).1]
    exact h.walks
  inside := (process_running s ok).2.trans h.inside

theorem txdata_inv (h : Inv s) (p : Pkt) :
    Inv ({ s with calls := s.calls+1 }.call (.txdata p s.calls)) where
  kept := by
    refine Ledger.mint h.kept (fun _ => rfl) (fun _ => rfl) fun n => ?_
    have hnew := count_head s.calls (s.running.flatMap Frame.entering) n
    change (ids s++s.calls::s.running.flatMap Frame.entering).count n = _
    rw [List.count_append, List.count_append, hnew]
    exact (Nat.add_assoc ..).symm
  counted := h.counted
  typed := ⟨h.typed.kind, h.typed.matching⟩
  queued := h.queued
  fresh n := by
    have hold := h.fresh n
    have hnew := count_head s.calls (arriving s) n
    change (s.calls::arriving s).count n+s.accepted.count n ≤ if n < s.calls+1 then 1 else 0
    by_cases hn : n = s.calls
    · subst hn
      rw [if_neg (Nat.lt_irrefl _)] at hold
      rw [if_pos (Nat.lt_succ_self _), hnew, List.count_singleton_self]
      omega
    · have hzero : [s.calls].count n = 0 :=
        List.count_eq_zero_of_not_mem fun hmem => hn (List.mem_singleton.mp hmem)
      have hlt : n < s.calls+1 ↔ n < s.calls := by omega
      simp only [hlt]
      omega
  flow := ⟨fun hbusy hhigh => List.mem_cons_of_mem _ (h.flow.pending hbusy hhigh), h.flow.stopped⟩
  walks pos next hmem := h.walks pos next (by simpa [State.call] using hmem)
  inside := h.inside

theorem complete_inv (h : Inv s) (hb : b ∈ s.submitted) :
    Inv ({ s with submitted := s.submitted.erase b }.call (.complete b)) where
  kept := by
    refine Ledger.congr h.kept (fun _ => rfl) (fun x => ?_) fun _ => rfl
    have hsplit : s.submitted.count x = (b::s.submitted.erase b).count x :=
      (List.perm_cons_erase hb).count_eq x
    rw [count_head] at hsplit
    simp only [loaded, State.call, Frame.loaded, List.flatMap_cons, List.count_append]
    omega
  counted := h.counted
  typed := ⟨h.typed.kind, h.typed.matching⟩
  queued := h.queued
  fresh := h.fresh
  flow := ⟨fun hbusy hhigh => List.mem_cons_of_mem _ (h.flow.pending hbusy hhigh), h.flow.stopped⟩
  walks pos next hmem := h.walks pos next (by simpa [State.call] using hmem)
  inside := h.inside

theorem call_inv (h : Inv s) (hf : f = .start ∨ f = .stop) : Inv (s.call f) where
  kept := by rcases hf with rfl | rfl <;> exact h.kept
  counted := h.counted
  typed := ⟨h.typed.kind, h.typed.matching⟩
  queued := h.queued
  fresh := by rcases hf with rfl | rfl <;> exact h.fresh
  flow := ⟨fun hbusy hhigh => List.mem_cons_of_mem _ (h.flow.pending hbusy hhigh), h.flow.stopped⟩
  walks pos next hmem := by
    rcases hf with rfl | rfl <;> exact h.walks pos next (by simpa [State.call] using hmem)
  inside := h.inside

theorem step_inv (s : State) (a : Act) (t : State) (hcare : Careful s a)
    (hstep : step s a = some t) (h : Inv s) : Inv t := by
  have hgo : ¬ s.stray = true := by simp [h.inside]
  unfold step at hstep
  rw [if_neg hgo] at hstep
  cases a with
  | txdata p =>
    obtain rfl := Option.some.inj hstep
    exact txdata_inv h p
  | complete b status =>
    dsimp only at hstep
    split_ifs at hstep with hb
    obtain rfl := Option.some.inj hstep
    exact complete_inv h hb
  | start =>
    obtain rfl := Option.some.inj hstep
    split_ifs
    · exact h
    · exact call_inv h (.inl rfl)
  | stop =>
    obtain rfl := Option.some.inj hstep
    split_ifs
    · exact h
    · exact call_inv h (.inr rfl)
  | advance f ok =>
    dsimp only at hstep
    split_ifs at hstep with hready
    obtain rfl := Option.some.inj hstep
    exact goOn_inv h hready.1 hcare
  | process ok =>
    obtain rfl := Option.some.inj hstep
    exact process_inv h hcare

theorem inv_sound (h : Inv s) : Sound s where
  placed b := by
    have hplaced := h.kept.placed b
    simp only [empty, loaded, List.count_append] at hplaced
    simp only [State.held, List.count_append]
    omega
  counts := h.counted
  order := (List.sublist_append_left ..).trans h.queued
  once := by
    rw [List.nodup_iff_count_le_one]
    intro n
    have hfresh := h.fresh n
    split_ifs at hfresh <;> omega
  kept n hn := by
    have hkept := h.kept.kept (List.nodup_finRange _) List.mem_finRange n
    have hfresh := h.fresh n
    have hin := List.count_pos_iff.mpr hn
    simp only [arriving, List.count_append] at hkept hfresh
    change _+(ids s).count n = 1
    split_ifs at hkept hfresh with hlt <;> omega
  matching := h.typed.matching
  inside := h.inside
  woken hquiet hhigh v hv := by
    by_contra hstopped
    have hbusy := (h.flow.stopped v hv (by simpa using hstopped)).1
    have hpending := h.flow.pending hbusy hhigh
    rw [hquiet.1] at hpending
    cases hpending

/-! ## Runs -/

/-- Runs whose steps are careful keep buffers, order and storage, and leave no queue stopped. -/
theorem tx_buffers_sound (vifs : List (Bool × Bool)) (es : List Act)
    (hes : Meets step Careful (init vifs) es) : Throughout step Sound (init vifs) es :=
  throughout_of_meets (fun s a t hcare hstep hs => step_inv s a t hcare hstep hs)
    (fun _ h => inv_sound h) (init_inv vifs) hes

/-- One call of `aicwf_usb_bus_txdata`, up to its last step. -/
def accepting (p : Pkt) (id : ℕ) (b : BufId) : List Act :=
  [.txdata p, .advance (.txdata p id) true, .advance (.txdataTake p id) true,
    .advance (.txdataFill p id b) true, .advance (.txdataQueue b) true, .advance .txdataFlow true]

def started : List Act := [.start, .advance .start true, .advance .prepare true]

/-- The thread gets one buffer; `usb_submit_urb` answers `ok`. -/
def submitting (ok : Bool) : List Act :=
  [.process true, .process true, .process true, .process ok]

def confirmed : Pkt := ⟨true, 0, 60⟩

def first : BufId := ⟨0, by decide⟩

theorem confirmed_frame_sound : Throughout step Sound (init [(true, true)])
    (started++accepting confirmed 0 first++.process true::submitting true++
      [.complete first 0, .advance (.complete first) true, .advance (.completeQueue first) true,
        .advance .completeFlow true]) :=
  tx_buffers_sound _ _ (by decide +kernel)

/-- The only frame posted needs a confirmation, and the core refuses it. -/
def refused : List Act :=
  started++accepting confirmed 0 first++.process true::submitting false++[.process true]

/-- All but 24 buffers are posted; the core refuses all of them. -/
def drained : List Act :=
  started++((List.finRange AICWF_USB_TX_URBS).take 76).flatMap (fun b : BufId =>
      accepting ⟨false, 0, 60⟩ b b)++
    .process true::(List.range 76).flatMap (fun _ =>
      submitting false++[.process true, .process true])++[.process true]

instance (s : State) : Decidable s.Quiet := inferInstanceAs (Decidable (_ ∧ _))

/-- The copy of a frame is freed as an skb, and a queue stays stopped with all buffers free. -/
theorem misfreed_and_stopped :
    (∃ t ∈ exec step (init [(true, true)]) refused, ¬ Sound t) ∧
    ∃ t ∈ exec step (init [(true, true)]) drained, ¬ Sound t := by
  have hcopy : ∃ t ∈ exec step (init [(true, true)]) refused,
      (Store.copy 0, Release.devKfreeSkb) ∈ t.released := by decide +kernel
  have hqueue : ∃ t ∈ exec step (init [(true, true)]) drained, t.Quiet ∧ t.free.count = 100 ∧
      t.vifs.map Vif.stopped = [true] := by decide +kernel
  constructor
  · obtain ⟨t, ht, hfreed⟩ := hcopy
    refine ⟨t, ht, fun h => ?_⟩
    cases h.matching _ hfreed
  · obtain ⟨t, ht, hquiet, hcount, hvifs⟩ := hqueue
    refine ⟨t, ht, fun h => ?_⟩
    have hhigh : t.free.count > AICWF_USB_TX_HIGH_WATER := by
      rw [hcount]
      decide
    have hall : t.vifs.map Vif.stopped = t.vifs.map fun _ => false :=
      List.map_congr_left (h.woken hquiet hhigh)
    rw [hvifs] at hall
    cases hlist : t.vifs with
    | nil =>
      rw [hlist] at hall
      cases hall
    | cons v rest =>
      rw [hlist] at hall
      cases hall

end AIC.UsbTxBuffers
