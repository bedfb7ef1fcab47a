import Aic8800.Lib.GuardedRun
import Aic8800.Lib.PlacedOnce
import Mathlib.Algebra.Order.Ring.Nat
import Mathlib.Data.Int.Basic
import Mathlib.Logic.Function.Iterate
import Mathlib.Order.Basic

/-!
# The queue with priorities

`struct frame_queue` and its functions, for packets of any kind. `hi_prio` is raised
by an enqueue and lowered by a dequeue only, so it bounds the levels in use from
above. The packets that were let in and those that left, each with its priority, are
recorded for the statements.
-/

set_option autoImplicit false

namespace AIC.FramePriority
open Lib.GuardedRun Lib.PlacedOnce

variable {α : Type}

/-- The numbers are u16. -/
structure FrameQueue (α : Type) where
  numPrio : ℕ
  hiPrio : ℕ
  qmax : ℕ
  qcnt : ℕ
  queuelist : ℕ → List α

def u16 (n : ℤ) : ℕ := (n % 65536).toNat

/-- `aicwf_frame_queue_init`. -/
def frameQueueInit (α : Type) (numPrio maxLen : ℤ) : FrameQueue α where
  numPrio := u16 numPrio
  hiPrio := 0
  qmax := u16 maxLen
  qcnt := 0
  queuelist := fun _ => []

/-- The lengths of the first `n` levels. -/
def total (lists : ℕ → List α) (n : ℕ) : ℕ :=
  ((List.range n).map fun prio => (lists prio).length).sum

namespace FrameQueue

def setLevel (q : FrameQueue α) (prio : ℕ) (l : List α) : FrameQueue α :=
  { q with queuelist := Function.update q.queuelist prio l }

/-- `aicwf_frame_queue_penq`. -/
def penq (q : FrameQueue α) (prio : ℕ) (p : α) : FrameQueue α :=
  if q.qmax ≤ (q.queuelist prio).length then q
  else
    { q.setLevel prio (q.queuelist prio++[p]) with
      qcnt := u16 (q.qcnt+1)
      hiPrio := if q.hiPrio < prio then u16 prio else q.hiPrio }

/-- `aicwf_frame_enq`. -/
def frameEnq (q : FrameQueue α) (pkt : α) (prio : ℕ) : FrameQueue α × Bool :=
  if (q.queuelist prio).length < q.qmax ∧ q.qcnt < q.qmax then (q.penq prio pkt, true)
  else (q, false)

/-- `hi_prio` after the loop of `aicwf_frame_dequeue`. -/
def settle (lists : ℕ → List α) : ℕ → ℕ
  | 0 => 0
  | prio+1 => if (lists (prio+1)).isEmpty then settle lists prio else prio+1

/-- `__skb_dequeue` of the level of `hi_prio`. -/
def takeTop (q : FrameQueue α) : FrameQueue α × Option α :=
  match q.queuelist q.hiPrio with
  | [] => (q, none)
  | p::rest => ({ q.setLevel q.hiPrio rest with qcnt := u16 (q.qcnt-1) }, some p)

/-- `aicwf_frame_dequeue`. -/
def frameDequeue (q : FrameQueue α) : FrameQueue α × Option α :=
  if q.qcnt = 0 then (q, none) else { q with hiPrio := settle q.queuelist q.hiPrio }.takeTop

/-- The walk over one level in `aicwf_frame_queue_flush`. -/
def flushLevel (q : FrameQueue α) (prio : ℕ) : FrameQueue α :=
  { q.setLevel prio [] with
    qcnt := (fun n : ℕ => u16 (n-1))^[(q.queuelist prio).length] q.qcnt }

/-- The first `n` turns of the loop in `aicwf_frame_queue_flush`. -/
def flushBelow (q : FrameQueue α) : ℕ → FrameQueue α
  | 0 => q
  | n+1 => (q.flushBelow n).flushLevel n

/-- `aicwf_frame_queue_flush`. -/
def frameQueueFlush (q : FrameQueue α) : FrameQueue α := q.flushBelow q.numPrio

/-- `aicwf_is_framequeue_empty`. -/
def isFramequeueEmpty (q : FrameQueue α) : Bool := !decide (0 < total q.queuelist (q.hiPrio+1))

end FrameQueue

structure Run (α : Type) where
  queue : FrameQueue α
  accepted : List (ℕ × α)
  left : List (ℕ × α)

def start (α : Type) (numPrio maxLen : ℤ) : Run α := ⟨frameQueueInit α numPrio maxLen, [], []⟩

inductive Act (α : Type) where
  | enq (pkt : α) (prio : ℕ)
  | dequeue
  | flush

/-- Every packet of the queue, level by level. -/
def FrameQueue.packets (q : FrameQueue α) : List (ℕ × α) :=
  (List.range q.numPrio).flatMap fun prio => (q.queuelist prio).map fun p => (prio, p)

/-- Where `num_prio` and above is no level. What is dequeued was on the level of `hi_prio`. -/
def step (s : Run α) : Act α → Option (Run α)
  | .enq pkt prio =>
    if s.queue.numPrio ≤ prio then none
    else some
      { s with
        queue := (s.queue.frameEnq pkt prio).1
        accepted := if (s.queue.frameEnq pkt prio).2 then s.accepted++[(prio, pkt)]
          else s.accepted }
  | .dequeue => some
    { s with
      queue := s.queue.frameDequeue.1
      left := s.left++s.queue.frameDequeue.2.toList.map fun p =>
        (s.queue.frameDequeue.1.hiPrio, p) }
  | .flush => some
    { s with
      queue := s.queue.frameQueueFlush
      left := s.left++s.queue.packets }

/-- The packets of one priority. -/
def ofPrio (prio : ℕ) (l : List (ℕ × α)) : List α := (l.filter fun e => e.1 == prio).map Prod.snd

/-! ## The packets of a priority -/

@[simp] theorem ofPrio_append (prio : ℕ) (l m : List (ℕ × α)) :
    ofPrio prio (l++m) = ofPrio prio l++ofPrio prio m := by
  simp [ofPrio, List.filter_append]

theorem ofPrio_level (prio k : ℕ) (l : List α) :
    ofPrio prio (l.map fun p => (k, p)) = if k = prio then l else [] := by
  by_cases h : k = prio <;> simp [ofPrio, List.filter_map, Function.comp_def, h]

theorem ofPrio_levels (lists : ℕ → List α) (prio n : ℕ) :
    ofPrio prio ((List.range n).flatMap fun k => (lists k).map fun p => (k, p)) =
      if prio < n then lists prio else [] := by
  induction n with
  | zero => rfl
  | succ n ih =>
    rw [List.range_succ, List.flatMap_append, List.flatMap_singleton, ofPrio_append, ih,
      ofPrio_level]
    rcases Nat.lt_trichotomy prio n with h | rfl | h
    · rw [if_pos h, if_neg (by omega), if_pos (by omega), List.append_nil]
    · rw [if_neg (by omega), if_pos rfl, if_pos (by omega), List.nil_append]
    · rw [if_neg (by omega), if_neg (by omega), if_neg (by omega), List.nil_append]

theorem ofPrio_packets (q : FrameQueue α) (prio : ℕ) :
    ofPrio prio q.packets = if prio < q.numPrio then q.queuelist prio else [] :=
  ofPrio_levels q.queuelist prio q.numPrio

/-! ## The lengths of the levels -/

theorem total_eq (lists : ℕ → List α) (n : ℕ) :
    total lists n = ((List.range n).flatMap lists).length := by
  simp [total, List.length_flatMap]

theorem total_update (lists : ℕ → List α) {prio n : ℕ} (h : prio < n) (l : List α) :
    total (Function.update lists prio l) n+(lists prio).length = total lists n+l.length := by
  have hperm := (flatMap_update lists h l).length_eq
  rw [List.length_append, List.length_append] at hperm
  rw [total_eq, total_eq, hperm]

theorem total_eq_zero (lists : ℕ → List α) (n : ℕ) :
    total lists n = 0 ↔ ∀ prio < n, lists prio = [] := by
  rw [total_eq, List.length_eq_zero_iff, List.flatMap_eq_nil_iff]
  simp only [List.mem_range]

theorem length_le_total (lists : ℕ → List α) {prio n : ℕ} (h : prio < n) :
    (lists prio).length ≤ total lists n := by
  have hupdate := total_update lists h []
  simp only [List.length_nil] at hupdate
  omega

/-- The loop ends at the highest level that is not empty. -/
theorem settle_spec (lists : ℕ → List α) {hi prio : ℕ} (hp : prio ≤ hi) (hne : lists prio ≠ []) :
    lists (FrameQueue.settle lists hi) ≠ [] ∧ prio ≤ FrameQueue.settle lists hi ∧
      FrameQueue.settle lists hi ≤ hi := by
  induction hi with
  | zero =>
    obtain rfl : prio = 0 := by omega
    exact ⟨hne, le_refl _, le_refl _⟩
  | succ hi ih =>
    simp only [FrameQueue.settle, List.isEmpty_iff]
    split_ifs with hempty
    · have hle : prio ≤ hi := by
        have hdiff : prio ≠ hi+1 := fun h => hne (h ▸ hempty)
        omega
      obtain ⟨hn, hl, hu⟩ := ih hle
      exact ⟨hn, hl, by omega⟩
    · exact ⟨hempty, hp, le_refl _⟩

/-! ## The invariant -/

/-- `hi_prio` bounds the levels in use, and so does `num_prio`. -/
structure Sound (q : FrameQueue α) : Prop where
  levels : q.numPrio ≤ 65536
  most : q.qmax < 65536
  above : ∀ prio, q.hiPrio < prio → q.queuelist prio = []
  outside : ∀ prio, q.numPrio ≤ prio → q.queuelist prio = []
  count : q.qcnt = total q.queuelist q.numPrio
  bound : q.qcnt ≤ q.qmax

theorem u16_of_lt {n : ℕ} (h : n < 65536) : u16 n = n := by
  simp only [u16]
  omega

theorem u16_lt (n : ℤ) : u16 n < 65536 := by
  simp only [u16]
  omega

theorem init_sound (numPrio maxLen : ℤ) : Sound (frameQueueInit α numPrio maxLen) where
  levels := Nat.le_of_lt (u16_lt numPrio)
  most := u16_lt maxLen
  above _ _ := rfl
  outside _ _ := rfl
  count := ((total_eq_zero _ _).mpr fun _ _ => rfl).symm
  bound := Nat.zero_le _

/-- A level is no longer than the queue. -/
theorem Sound.length_le {q : FrameQueue α} (h : Sound q) (prio : ℕ) :
    (q.queuelist prio).length ≤ q.qcnt := by
  by_cases hp : prio < q.numPrio
  · rw [h.count]
    exact length_le_total q.queuelist hp
  · rw [h.outside prio (by omega)]
    exact Nat.zero_le _

theorem Sound.empty_iff {q : FrameQueue α} (h : Sound q) :
    q.qcnt = 0 ↔ ∀ prio, q.queuelist prio = [] := by
  rw [h.count, total_eq_zero]
  constructor
  · intro hall prio
    by_cases hp : prio < q.numPrio
    · exact hall prio hp
    · exact h.outside prio (by omega)
  · exact fun hall prio _ => hall prio

theorem Sound.isEmpty_iff {q : FrameQueue α} (h : Sound q) :
    q.isFramequeueEmpty = true ↔ ∀ prio, q.queuelist prio = [] := by
  rw [FrameQueue.isFramequeueEmpty, Bool.not_eq_true', decide_eq_false_iff_not, Nat.not_lt,
    Nat.le_zero, total_eq_zero]
  constructor
  · intro hall prio
    by_cases hp : prio < q.hiPrio+1
    · exact hall prio hp
    · exact h.above prio (by omega)
  · exact fun hall prio _ => hall prio

/-! ## Enqueue -/

theorem Sound.enq_iff {q : FrameQueue α} (h : Sound q) (pkt : α) (prio : ℕ) :
    (q.frameEnq pkt prio).2 = true ↔ q.qcnt < q.qmax := by
  have hlen := h.length_le prio
  unfold FrameQueue.frameEnq
  split_ifs with hroom
  · exact ⟨fun _ => hroom.2, fun _ => rfl⟩
  · exact ⟨fun hno => hno.elim, fun hlt => absurd ⟨by omega, hlt⟩ hroom⟩

theorem enq_refused {q : FrameQueue α} {pkt : α} {prio : ℕ} (h : (q.frameEnq pkt prio).2 = false) :
    (q.frameEnq pkt prio).1 = q := by
  unfold FrameQueue.frameEnq at h ⊢
  split_ifs at h ⊢
  rfl

theorem Sound.enq_accepted {q : FrameQueue α} (h : Sound q) {pkt : α} {prio : ℕ}
    (hprio : prio < q.numPrio) (hdone : (q.frameEnq pkt prio).2 = true) :
    (q.frameEnq pkt prio).1 =
      { q.setLevel prio (q.queuelist prio++[pkt]) with
        qcnt := q.qcnt+1
        hiPrio := if q.hiPrio < prio then prio else q.hiPrio } := by
  have hroom : q.qcnt < q.qmax := (h.enq_iff pkt prio).mp hdone
  have hlen := h.length_le prio
  have hmost := h.most
  have hlevels := h.levels
  have hcnt : u16 (q.qcnt+1) = q.qcnt+1 := u16_of_lt (n := q.qcnt+1) (by omega)
  have hhi : u16 prio = prio := u16_of_lt (by omega)
  unfold FrameQueue.frameEnq FrameQueue.penq
  rw [if_pos ⟨by omega, hroom⟩, if_neg (by omega), hcnt, hhi]

theorem Sound.enq {q : FrameQueue α} (h : Sound q) (pkt : α) {prio : ℕ} (hprio : prio < q.numPrio) :
    Sound (q.frameEnq pkt prio).1 := by
  cases hdone : (q.frameEnq pkt prio).2 with
  | false =>
    rw [enq_refused hdone]
    exact h
  | true =>
    have hroom : q.qcnt < q.qmax := (h.enq_iff pkt prio).mp hdone
    have htotal := total_update q.queuelist hprio (q.queuelist prio++[pkt])
    have hcount := h.count
    rw [List.length_append, List.length_singleton] at htotal
    rw [h.enq_accepted hprio hdone]
    constructor
    · exact h.levels
    · exact h.most
    · intro k hk
      simp only at hk
      have hne : k ≠ prio := by
        split_ifs at hk <;> omega
      have hold : q.hiPrio < k := by
        split_ifs at hk <;> omega
      simp only [FrameQueue.setLevel, Function.update_of_ne hne]
      exact h.above k hold
    · intro k hk
      have hne : k ≠ prio := by
        have hle : q.numPrio ≤ k := hk
        omega
      simp only [FrameQueue.setLevel, Function.update_of_ne hne]
      exact h.outside k hk
    · simp only [FrameQueue.setLevel]
      omega
    · exact hroom

/-! ## Dequeue -/

theorem dequeue_empty {q : FrameQueue α} (h : q.qcnt = 0) : q.frameDequeue = (q, none) := if_pos h

/-- The first packet of the highest level that is not empty leaves. -/
theorem Sound.dequeue_some {q : FrameQueue α} (h : Sound q) (hne : q.qcnt ≠ 0) :
    ∃ prio pkt rest, q.queuelist prio = pkt::rest ∧ (∀ k, prio < k → q.queuelist k = []) ∧
      q.frameDequeue =
        ({ q.setLevel prio rest with hiPrio := prio, qcnt := q.qcnt-1 }, some pkt) := by
  have hused : ∃ prio, q.queuelist prio ≠ [] := by
    by_contra hno
    exact hne (h.empty_iff.mpr fun prio => not_not.mp fun hp => hno ⟨prio, hp⟩)
  obtain ⟨k, hk⟩ := hused
  have hreach : ∀ prio, q.queuelist prio ≠ [] → prio ≤ q.hiPrio := by
    intro prio hp
    by_contra hlt
    exact hp (h.above prio (by omega))
  have htop := (settle_spec q.queuelist (hreach k hk) hk).1
  obtain ⟨pkt, rest, hlist⟩ := List.exists_cons_of_ne_nil htop
  have hmost := h.most
  have hbound := h.bound
  have hcnt : u16 ((q.qcnt : ℤ)-1) = q.qcnt-1 := by
    simp only [u16]
    omega
  refine ⟨_, pkt, rest, hlist, ?_, ?_⟩
  · intro prio hprio
    by_contra hp
    have hle := (settle_spec q.queuelist (hreach prio hp) hp).2.1
    omega
  · rw [FrameQueue.frameDequeue, if_neg hne]
    simp only [FrameQueue.takeTop, hlist, FrameQueue.setLevel, hcnt]

theorem Sound.dequeue {q : FrameQueue α} (h : Sound q) : Sound q.frameDequeue.1 := by
  by_cases hne : q.qcnt = 0
  · rw [dequeue_empty hne]
    exact h
  obtain ⟨prio, pkt, rest, hlist, habove, hdeq⟩ := h.dequeue_some hne
  have hprio : prio < q.numPrio := by
    by_contra hge
    rw [h.outside prio (by omega)] at hlist
    cases hlist
  have htotal := total_update q.queuelist hprio rest
  have hcount := h.count
  have hbound := h.bound
  rw [hlist, List.length_cons] at htotal
  rw [hdeq]
  constructor
  · exact h.levels
  · exact h.most
  · intro k hk
    have hgt : prio < k := hk
    simp only [FrameQueue.setLevel, Function.update_of_ne (Nat.ne_of_gt hgt)]
    exact habove k hgt
  · intro k hk
    have hne' : k ≠ prio := by
      have hle : q.numPrio ≤ k := hk
      omega
    simp only [FrameQueue.setLevel, Function.update_of_ne hne']
    exact h.outside k hk
  · simp only [FrameQueue.setLevel]
    omega
  · simp only [FrameQueue.setLevel]
    omega

/-! ## Flush -/

theorem count_down {m n : ℕ} (h : n ≤ m) (hm : m < 65536) :
    (fun k : ℕ => u16 (k-1))^[n] m = m-n := by
  induction n generalizing m with
  | zero => rfl
  | succ n ih =>
    have hcnt : u16 ((m : ℤ)-1) = m-1 := by
      simp only [u16]
      omega
    rw [Function.iterate_succ_apply, hcnt, ih (by omega) (by omega)]
    omega

theorem Sound.flushLevel {q : FrameQueue α} (h : Sound q) (prio : ℕ) :
    q.flushLevel prio =
      { q.setLevel prio [] with qcnt := q.qcnt-(q.queuelist prio).length } := by
  have hlen := h.length_le prio
  have hmost := h.most
  have hbound := h.bound
  rw [FrameQueue.flushLevel, count_down hlen (by omega)]

theorem Sound.flushedLevel {q : FrameQueue α} (h : Sound q) {prio : ℕ} (hprio : prio < q.numPrio) :
    Sound (q.flushLevel prio) := by
  have htotal := total_update q.queuelist hprio []
  have hcount := h.count
  have hbound := h.bound
  have hempty : ∀ k, q.queuelist k = [] → Function.update q.queuelist prio [] k = [] := by
    intro k hk
    by_cases hkp : k = prio
    · rw [hkp, Function.update_self]
    · rw [Function.update_of_ne hkp, hk]
  rw [List.length_nil] at htotal
  rw [h.flushLevel prio]
  constructor
  · exact h.levels
  · exact h.most
  · exact fun k hk => hempty k (h.above k hk)
  · exact fun k hk => hempty k (h.outside k hk)
  · simp only [FrameQueue.setLevel]
    omega
  · simp only [FrameQueue.setLevel]
    omega

theorem Sound.flushBelow {q : FrameQueue α} (h : Sound q) {n : ℕ} (hn : n ≤ q.numPrio) :
    Sound (q.flushBelow n) ∧ (q.flushBelow n).numPrio = q.numPrio ∧
      ∀ prio, (q.flushBelow n).queuelist prio = if prio < n then [] else q.queuelist prio := by
  induction n with
  | zero => exact ⟨h, rfl, fun prio => (if_neg (Nat.not_lt_zero prio)).symm⟩
  | succ n ih =>
    obtain ⟨hs, hnum, hlists⟩ := ih (by omega)
    refine ⟨hs.flushedLevel (by omega), hnum, fun prio => ?_⟩
    show Function.update (q.flushBelow n).queuelist n [] prio = _
    by_cases hp : prio = n
    · rw [hp, Function.update_self, if_pos (Nat.lt_succ_self n)]
    · rw [Function.update_of_ne hp, hlists prio]
      exact if_congr (by omega) rfl rfl

theorem Sound.flush {q : FrameQueue α} (h : Sound q) :
    Sound q.frameQueueFlush ∧ ∀ prio, q.frameQueueFlush.queuelist prio = [] := by
  obtain ⟨hs, -, hlists⟩ := h.flushBelow (le_refl q.numPrio)
  refine ⟨hs, fun prio => ?_⟩
  rw [FrameQueue.frameQueueFlush, hlists prio]
  split_ifs with hp
  · rfl
  · exact h.outside prio (by omega)

/-! ## Runs -/

/-- What left with a priority and what waits with it are what was let in, in that order. -/
def InOrder (s : Run α) : Prop :=
  ∀ prio, ofPrio prio s.left++s.queue.queuelist prio = ofPrio prio s.accepted

theorem enq_inOrder {s : Run α} (h : Sound s.queue) (ho : InOrder s) (pkt : α) {k : ℕ}
    (hk : k < s.queue.numPrio) (hdone : (s.queue.frameEnq pkt k).2 = true) :
    InOrder { s with queue := (s.queue.frameEnq pkt k).1, accepted := s.accepted++[(k, pkt)] } := by
  intro prio
  have hnew : ofPrio prio [(k, pkt)] = if k = prio then [pkt] else [] := ofPrio_level prio k [pkt]
  rw [h.enq_accepted hk hdone]
  simp only [ofPrio_append, hnew, ← ho prio, FrameQueue.setLevel]
  by_cases hp : k = prio
  · subst hp
    rw [Function.update_self, if_pos rfl, List.append_assoc]
  · rw [Function.update_of_ne (Ne.symm hp), if_neg hp, List.append_nil]

theorem dequeue_inOrder {s : Run α} (h : Sound s.queue) (ho : InOrder s) :
    InOrder { s with
      queue := s.queue.frameDequeue.1
      left := s.left++s.queue.frameDequeue.2.toList.map fun p =>
        (s.queue.frameDequeue.1.hiPrio, p) } := by
  intro prio
  by_cases hne : s.queue.qcnt = 0
  · simpa [dequeue_empty hne] using ho prio
  obtain ⟨k, pkt, rest, hlist, -, hdeq⟩ := h.dequeue_some hne
  have hnew : ofPrio prio [(k, pkt)] = if k = prio then [pkt] else [] := ofPrio_level prio k [pkt]
  simp only [hdeq, Option.toList_some, List.map_singleton, ofPrio_append, hnew, ← ho prio,
    FrameQueue.setLevel]
  by_cases hp : k = prio
  · subst hp
    rw [Function.update_self, if_pos rfl, hlist, List.append_assoc, List.singleton_append]
  · rw [Function.update_of_ne (Ne.symm hp), if_neg hp, List.append_nil]

theorem flush_inOrder {s : Run α} (h : Sound s.queue) (ho : InOrder s) :
    InOrder { s with queue := s.queue.frameQueueFlush, left := s.left++s.queue.packets } := by
  intro prio
  simp only [ofPrio_append, ofPrio_packets, h.flush.2 prio, List.append_nil, ← ho prio]
  split_ifs with hp
  · rfl
  · rw [h.outside prio (by omega)]

theorem step_sound {s t : Run α} {a : Act α} (h : Sound s.queue) (ho : InOrder s)
    (ht : step s a = some t) : Sound t.queue ∧ InOrder t := by
  cases a with
  | enq pkt prio =>
    simp only [step] at ht
    split_ifs at ht with hprio hdone
    · rw [← Option.some.inj ht]
      exact ⟨h.enq pkt (by omega), enq_inOrder h ho pkt (by omega) hdone⟩
    · rw [← Option.some.inj ht, enq_refused (Bool.eq_false_iff.mpr hdone)]
      exact ⟨h, ho⟩
  | dequeue =>
    rw [← Option.some.inj ht]
    exact ⟨h.dequeue, dequeue_inOrder h ho⟩
  | flush =>
    rw [← Option.some.inj ht]
    exact ⟨h.flush.1, flush_inOrder h ho⟩

/-- The queue keeps to its bound and its hint, the tests for emptiness agree, a packet that is
refused changes nothing, and the oldest one of the highest priority is the next to leave. -/
structure Stable (s : Run α) : Prop where
  count : s.queue.qcnt = total s.queue.queuelist s.queue.numPrio
  bound : s.queue.qcnt ≤ s.queue.qmax
  above : ∀ prio, s.queue.hiPrio < prio → s.queue.queuelist prio = []
  room : ∀ pkt, ∀ prio < s.queue.numPrio,
    (s.queue.frameEnq pkt prio).2 = true ↔ s.queue.qcnt < s.queue.qmax
  refused : ∀ pkt, ∀ prio < s.queue.numPrio,
    (s.queue.frameEnq pkt prio).2 = false → (s.queue.frameEnq pkt prio).1 = s.queue
  empty : s.queue.isFramequeueEmpty = true ↔ ∀ prio < s.queue.numPrio, s.queue.queuelist prio = []
  null : s.queue.frameDequeue.2 = none ↔ ∀ prio < s.queue.numPrio, s.queue.queuelist prio = []
  next : ∀ pkt, s.queue.frameDequeue.2 = some pkt → ∃ prio < s.queue.numPrio, ∃ rest,
    s.queue.queuelist prio = pkt::rest ∧ (∀ k, prio < k → s.queue.queuelist k = []) ∧
      s.queue.frameDequeue.1.queuelist = Function.update s.queue.queuelist prio rest
  order : ∀ prio, ofPrio prio s.left++s.queue.queuelist prio = ofPrio prio s.accepted

theorem Sound.levels_empty {q : FrameQueue α} (h : Sound q) :
    (∀ prio, q.queuelist prio = []) ↔ ∀ prio < q.numPrio, q.queuelist prio = [] := by
  rw [← h.empty_iff, h.count, total_eq_zero]

theorem Sound.dequeue_null {q : FrameQueue α} (h : Sound q) :
    q.frameDequeue.2 = none ↔ ∀ prio, q.queuelist prio = [] := by
  rw [← h.empty_iff]
  constructor
  · intro hnone
    by_contra hne
    obtain ⟨prio, pkt, rest, -, -, hdeq⟩ := h.dequeue_some hne
    rw [hdeq] at hnone
    cases hnone
  · intro hzero
    rw [dequeue_empty hzero]

theorem Sound.dequeue_next {q : FrameQueue α} (h : Sound q) {pkt : α}
    (hpkt : q.frameDequeue.2 = some pkt) : ∃ prio < q.numPrio, ∃ rest,
      q.queuelist prio = pkt::rest ∧ (∀ k, prio < k → q.queuelist k = []) ∧
        q.frameDequeue.1.queuelist = Function.update q.queuelist prio rest := by
  have hne : q.qcnt ≠ 0 := by
    intro hzero
    rw [dequeue_empty hzero] at hpkt
    cases hpkt
  obtain ⟨prio, p, rest, hlist, habove, hdeq⟩ := h.dequeue_some hne
  rw [hdeq] at hpkt
  obtain rfl := Option.some.inj hpkt
  have hprio : prio < q.numPrio := by
    by_contra hge
    rw [h.outside prio (by omega)] at hlist
    cases hlist
  exact ⟨prio, hprio, rest, hlist, habove, by rw [hdeq]; rfl⟩

theorem run_stable {numPrio maxLen : ℤ} {as : List (Act α)} {s : Run α}
    (h : exec step (start α numPrio maxLen) as = some s) : Stable s := by
  have hstart : Sound (start α numPrio maxLen).queue ∧ InOrder (start α numPrio maxLen) :=
    ⟨init_sound numPrio maxLen, fun _ => rfl⟩
  obtain ⟨hs, ho⟩ := exec_preserves (I := fun s : Run α => Sound s.queue ∧ InOrder s)
    (fun _ _ _ hstep hi => step_sound hi.1 hi.2 hstep) hstart h
  constructor
  · exact hs.count
  · exact hs.bound
  · exact hs.above
  · exact fun pkt prio _ => hs.enq_iff pkt prio
  · exact fun _ _ _ => enq_refused
  · exact hs.isEmpty_iff.trans hs.levels_empty
  · exact hs.dequeue_null.trans hs.levels_empty
  · exact fun _ => hs.dequeue_next
  · exact ho

/-- Two levels, four packets of which the last is refused, and a flush. -/
def twoLevels : List (Act ℕ) :=
  [.enq 10 1, .enq 20 0, .enq 11 1, .enq 12 1, .dequeue, .dequeue, .dequeue, .dequeue, .enq 21 0,
    .flush]

theorem run_stable_two_levels : ∃ s, exec step (start ℕ 2 3) twoLevels = some s ∧
    s.left = [(1, 10), (1, 11), (0, 20), (0, 21)] ∧ Stable s := by
  have hrun : exec step (start ℕ 2 3) twoLevels =
      some ((exec step (start ℕ 2 3) twoLevels).get (by decide +kernel)) :=
    (Option.some_get _).symm
  exact ⟨_, hrun, by decide +kernel, run_stable hrun⟩

end AIC.FramePriority
