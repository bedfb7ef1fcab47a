import Aic8800.TxqMachine

/-!
# Retries come first

A txq under `rwnx_txq_queue_skb`, `rwnx_txq_get_skb_to_push` and `rwnx_tx_push`,
beside two lists: the buffers queued again and the others, each in the order it was
queued. What else changes a txq changes its credits, its push limit or its stops.
-/

set_option autoImplicit false

namespace AIC.TxqRetry
open AIC.TxqMachine Lib.GuardedRun

/-- `warned` records the `WARN` of `rwnx_tx_push`. -/
structure Line where
  txq : Txq
  again : List Skb
  fresh : List Skb
  warned : Bool

/-- The txq as `rwnx_txq_init` leaves it. -/
def start (hw : Hw) (k : TxqId) (status : Finset StopReason) (hwq : HwqId) (sta : Option StaId)
    (psId : PsId) : Line :=
  ⟨(hw.txqInit k status hwq sta psId).txq k, [], [], false⟩

inductive Act where
  | queue (skb : Skb) (retry : Bool)
  | process
  | change (credits : ℤ) (pushLimit : ℕ) (stops : Finset StopReason)

/-- `rwnx_tx_push` warns when the last of the retries is not the one remembered. -/
def pushOne (p : Txq × Bool) (skb : Skb) : Txq × Bool :=
  (p.1.push, p.2 || (p.1.nbRetry == 1 && p.1.lastRetrySkb != some skb.id))

/-- The buffers are taken from the list before the first of them is pushed. -/
def pushReady (t : Txq) : Txq × Bool :=
  (t.skList.take t.getSkbToPush.1).foldl pushOne
    ({ t with skList := t.skList.drop t.getSkbToPush.1 }, false)

/-- A buffer is in the list once, and `rwnx_hwq_process` stops in a `BUG_ON` without credits or
buffers. -/
def step (s : Line) : Act → Option Line
  | .queue skb retry =>
    if skb.id ∈ s.txq.skList.map Skb.id then none
    else (s.txq.enqueue skb retry).map fun t =>
      { s with
        txq := t
        again := if retry then s.again++[skb] else s.again
        fresh := if retry then s.fresh else s.fresh++[skb] }
  | .process =>
    if s.txq.credits ≤ 0 ∨ s.txq.skList = [] then none
    else
      let n := s.txq.getSkbToPush.1
      some
        { txq := (pushReady s.txq).1
          again := s.again.drop n
          fresh := s.fresh.drop (n-s.again.length)
          warned := s.warned || (pushReady s.txq).2 }
  | .change credits pushLimit stops => some
    { s with
      txq := { s.txq with
        credits := credits
        pushLimit := pushLimit
        stops := stops } }

/-- The number and the last of the buffers queued again. -/
structure Counted (t : Txq) (again : List Skb) : Prop where
  number : t.nbRetry = again.length
  last : t.lastRetrySkb = again.getLast?.map Skb.id

/-! ## Queueing -/

theorem skbAppend_absent {old : ℕ} (skb : Skb) {l : List Skb} (h : old ∉ l.map Skb.id) :
    Txq.skbAppend old skb l = none := by
  induction l with
  | nil => rfl
  | cons x l ih =>
    rw [List.map_cons, List.mem_cons, not_or] at h
    rw [Txq.skbAppend, ih h.2]
    exact if_neg (Ne.symm h.1)

/-- The buffer goes right behind the old one. -/
theorem skbAppend_behind (skb x : Skb) (l m : List Skb) (h : x.id ∉ m.map Skb.id) :
    Txq.skbAppend x.id skb (l++x::m) = some (l++x::skb::m) := by
  induction l with
  | nil =>
    rw [List.nil_append, Txq.skbAppend, skbAppend_absent skb h]
    exact if_pos rfl
  | cons y l ih =>
    rw [List.cons_append, Txq.skbAppend, ih]
    rfl

theorem enqueue_retry {t : Txq} {again fresh : List Skb} (h : Counted t again)
    (hlist : t.skList = again++fresh) (honce : (t.skList.map Skb.id).Nodup) (skb : Skb) :
    t.enqueue skb true =
      some { t with
        skList := (again++[skb])++fresh
        lastRetrySkb := some skb.id
        nbRetry := t.nbRetry+1 } := by
  unfold Txq.enqueue
  rcases List.eq_nil_or_concat again with rfl | ⟨l, x, rfl⟩
  · have hnone : t.lastRetrySkb = none := h.last
    rw [hnone, hlist]
    rfl
  · have hsome : t.lastRetrySkb = some x.id := by
      rw [h.last, List.concat_eq_append, List.getLast?_append]
      rfl
    have hout : x.id ∉ fresh.map Skb.id := by
      intro hmem
      rw [hlist, List.concat_eq_append, List.append_assoc, List.map_append, List.map_append] at honce
      have hrest := (List.nodup_append.mp honce).2.1
      exact (List.nodup_append.mp hrest).2.2 x.id (List.mem_singleton.mpr rfl) x.id hmem rfl
    have hbehind := skbAppend_behind skb x l fresh hout
    have hput : Txq.skbAppend x.id skb t.skList = some ((l.concat x++[skb])++fresh) := by
      rw [hlist]
      simpa using hbehind
    simp only [hsome, Bool.not_true, Bool.false_eq_true, if_false, hput, Option.map_some]

/-! ## Pushing -/

theorem Counted.push {t : Txq} {x : Skb} {again : List Skb} (h : Counted t (x::again)) (w : Bool) :
    Counted (pushOne (t, w) x).1 again ∧ (pushOne (t, w) x).2 = w := by
  have hnumber := h.number
  have hlast := h.last
  rw [List.length_cons] at hnumber
  cases again with
  | nil =>
    simp only [List.length_nil, Nat.zero_add] at hnumber
    simp only [List.getLast?_singleton, Option.map_some] at hlast
    refine ⟨⟨?_, ?_⟩, ?_⟩ <;> simp [pushOne, Txq.push, hnumber, hlast]
  | cons y again =>
    rw [List.length_cons] at hnumber
    rw [List.getLast?_cons_cons] at hlast
    have hmany : t.nbRetry ≠ 1 := by omega
    refine ⟨⟨?_, ?_⟩, ?_⟩
    · simp only [pushOne, Txq.push, List.length_cons]
      omega
    · simp only [pushOne, Txq.push, if_neg hmany, hlast]
    · simp [pushOne, hmany]

theorem Counted.push_fresh {t : Txq} (h : Counted t []) (x : Skb) (w : Bool) :
    Counted (pushOne (t, w) x).1 [] ∧ (pushOne (t, w) x).2 = w := by
  have hnumber : t.nbRetry = 0 := h.number
  have hlast : t.lastRetrySkb = none := h.last
  refine ⟨⟨?_, ?_⟩, ?_⟩ <;> simp [pushOne, Txq.push, hnumber, hlast]

/-- Pushing the first buffers of the list, the ones queued again before the others. -/
theorem Counted.pushes {n : ℕ} {t : Txq} {again : List Skb} (h : Counted t again)
    (fresh : List Skb) (w : Bool) :
    Counted (((again++fresh).take n).foldl pushOne (t, w)).1 (again.drop n) ∧
      (((again++fresh).take n).foldl pushOne (t, w)).2 = w := by
  induction n generalizing t again fresh with
  | zero => exact ⟨h, rfl⟩
  | succ n ih =>
    cases again with
    | cons x again =>
      obtain ⟨hcount, hwarn⟩ := h.push w
      have hrest := ih hcount fresh
      rw [List.cons_append, List.take_succ_cons, List.foldl_cons, List.drop_succ_cons,
        ← Prod.mk.eta (p := pushOne (t, w) x), hwarn]
      exact hrest
    | nil =>
      cases fresh with
      | nil => exact ⟨h, rfl⟩
      | cons x fresh =>
        obtain ⟨hcount, hwarn⟩ := h.push_fresh x w
        have hrest := ih hcount fresh
        rw [List.nil_append, List.drop_nil] at hrest
        rw [List.nil_append, List.take_succ_cons, List.foldl_cons, List.drop_nil,
          ← Prod.mk.eta (p := pushOne (t, w) x), hwarn]
        exact hrest

theorem pushes_list (l : List Skb) (p : Txq × Bool) : (l.foldl pushOne p).1.skList = p.1.skList := by
  induction l generalizing p with
  | nil => rfl
  | cons x l ih => exact ih (pushOne p x)

/-! ## Runs -/

structure Sound (s : Line) : Prop where
  counted : Counted s.txq s.again
  list : s.txq.skList = s.again++s.fresh
  once : (s.txq.skList.map Skb.id).Nodup
  quiet : s.warned = false

theorem Sound.queue {s t : Line} (h : Sound s) {skb : Skb} {retry : Bool}
    (ht : step s (.queue skb retry) = some t) : Sound t := by
  have hmem : skb.id ∉ s.txq.skList.map Skb.id := by
    intro hmem
    rw [step, if_pos hmem] at ht
    cases ht
  rw [step, if_neg hmem] at ht
  cases retry with
  | false =>
    obtain ⟨u, hu, rfl⟩ := Option.map_eq_some_iff.mp ht
    obtain rfl := Option.some.inj hu
    refine ⟨⟨h.counted.number, h.counted.last⟩, ?_, ?_, h.quiet⟩
    · simp only [h.list, Bool.false_eq_true, if_false, List.append_assoc]
    · rw [List.map_append, List.map_singleton]
      refine List.nodup_append.mpr ⟨h.once, List.nodup_singleton _, fun a ha b hb => ?_⟩
      rw [List.mem_singleton.mp hb]
      rintro rfl
      exact hmem ha
  | true =>
    obtain ⟨u, hu, rfl⟩ := Option.map_eq_some_iff.mp ht
    rw [enqueue_retry h.counted h.list h.once] at hu
    obtain rfl := Option.some.inj hu
    refine ⟨⟨?_, ?_⟩, rfl, ?_, h.quiet⟩
    · simp [h.counted.number]
    · simp
    · have hperm : ((s.again++[skb])++s.fresh).Perm (skb::s.txq.skList) := by
        rw [h.list, List.append_assoc, List.singleton_append]
        exact List.perm_middle
      exact (hperm.map Skb.id).nodup_iff.mpr (List.nodup_cons.mpr ⟨hmem, h.once⟩)

theorem Sound.process {s t : Line} (h : Sound s) (ht : step s .process = some t) : Sound t := by
  simp only [step] at ht
  split_ifs at ht
  obtain rfl := Option.some.inj ht
  have hcount : Counted { s.txq with skList := s.txq.skList.drop s.txq.getSkbToPush.1 } s.again :=
    ⟨h.counted.number, h.counted.last⟩
  have hpush := hcount.pushes (n := s.txq.getSkbToPush.1) s.fresh false
  have hlist : (pushReady s.txq).1.skList = s.txq.skList.drop s.txq.getSkbToPush.1 :=
    pushes_list _ _
  rw [← h.list] at hpush
  refine ⟨hpush.1, ?_, ?_, ?_⟩
  · rw [hlist, h.list, List.drop_append]
  · rw [hlist, List.map_drop]
    exact h.once.sublist (List.drop_sublist _ _)
  · simp only [h.quiet, Bool.false_or]
    exact hpush.2

theorem step_sound {s t : Line} {a : Act} (ht : step s a = some t) (h : Sound s) : Sound t := by
  cases a with
  | queue skb retry => exact h.queue ht
  | process => exact h.process ht
  | change credits pushLimit stops =>
    obtain rfl := Option.some.inj ht
    exact ⟨⟨h.counted.number, h.counted.last⟩, h.list, h.once, h.quiet⟩

/-- The list is the buffers queued again and then the others, each in its order, with their
number and the last of them; no push warned, and a buffer can be queued either way. -/
structure RetriesFirst (s : Line) : Prop where
  list : s.txq.skList = s.again++s.fresh
  number : s.txq.nbRetry = s.again.length
  last : s.txq.lastRetrySkb = s.again.getLast?.map Skb.id
  null : s.txq.lastRetrySkb = none ↔ s.txq.nbRetry = 0
  quiet : s.warned = false
  queueable : ∀ skb retry, skb.id ∉ s.txq.skList.map Skb.id →
    ∃ t, step s (.queue skb retry) = some t

theorem Sound.queueable {s : Line} (h : Sound s) (skb : Skb) (retry : Bool)
    (hout : skb.id ∉ s.txq.skList.map Skb.id) : ∃ t, step s (.queue skb retry) = some t := by
  simp only [step, if_neg hout]
  cases retry with
  | false => exact ⟨_, rfl⟩
  | true =>
    rw [enqueue_retry h.counted h.list h.once]
    exact ⟨_, rfl⟩

theorem run_retries_first {hw : Hw} {k : TxqId} {status : Finset StopReason} {hwq : HwqId}
    {sta : Option StaId} {psId : PsId} {as : List Act} {s : Line}
    (h : exec step (start hw k status hwq sta psId) as = some s) : RetriesFirst s := by
  have hinit : (hw.txqInit k status hwq sta psId).txq k =
      { Txq.blank with
        active := true
        stops := status
        credits := NX_TXQ_INITIAL_CREDITS
        hwq := some hwq
        sta := sta
        psId := psId
        ndevTxq := k.hasNdev } := Function.update_self ..
  have hstart : Sound (start hw k status hwq sta psId) := by
    constructor
    · constructor <;> simp [start, hinit, Txq.blank]
    · simp [start, hinit, Txq.blank]
    · simp [start, hinit, Txq.blank]
    · rfl
  have hs : Sound s := exec_preserves (fun _ _ _ hstep hi => step_sound hstep hi) hstart h
  refine ⟨hs.list, hs.counted.number, hs.counted.last, ?_, hs.quiet, hs.queueable⟩
  rw [hs.counted.last, hs.counted.number]
  simp [List.getLast?_eq_none_iff]

/-- Two buffers are queued again, one of them is pushed, and a third is queued again. -/
def retriedRun : List Act :=
  [.queue ⟨0, none, false, false⟩ false, .queue ⟨1, none, false, false⟩ false,
    .queue ⟨2, none, false, false⟩ true, .queue ⟨3, none, false, false⟩ true, .change 1 0 ∅,
    .process, .queue ⟨4, none, false, false⟩ true]

theorem run_retries_first_retried :
    ∃ s, exec step (start init (.unk 0) ∅ .vo none .legacy) retriedRun = some s ∧
      s.txq.skList.map Skb.id = [3, 4, 0, 1] ∧ RetriesFirst s := by
  have hrun : exec step (start init (.unk 0) ∅ .vo none .legacy) retriedRun =
      some ((exec step (start init (.unk 0) ∅ .vo none .legacy) retriedRun).get
        (by decide +kernel)) := (Option.some_get _).symm
  exact ⟨_, hrun, by decide +kernel, run_retries_first hrun⟩

end AIC.TxqRetry
