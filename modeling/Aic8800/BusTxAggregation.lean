import Aic8800.BusTxMachine
import Aic8800.FramePriority
import Aic8800.TxAggregateFormat

/-!
# What the transmit thread aggregates

The counters of the frame queue against its lists, under each stage of an
enqueue, and the aggregation buffer against the packets taken from the queue.
While the buffer holds packets there is room for them and a packet is still
queued, so the loop cannot end before they are sent.
-/

set_option autoImplicit false

namespace AIC.BusTxAggregation
open AIC.TxAggregate AIC.TxAggregateFormat AIC.BusTxMachine Lib.GuardedRun

/-! ## Counting a family of lists -/

theorem sum_length_update {s : Finset ℕ} {i : ℕ} (hi : i ∈ s) (lists : ℕ → List TxPkt)
    (l : List TxPkt) :
    (∑ j ∈ s, (Function.update lists i l j).length)+(lists i).length =
      (∑ j ∈ s, (lists j).length)+l.length := by
  have hupdate : ∀ j, (Function.update lists i l j).length =
      Function.update (fun k => (lists k).length) i l.length j := by
    intro j
    by_cases hj : j = i
    · subst j
      simp
    · simp [hj]
  simp only [hupdate]
  rw [Finset.sum_update_of_mem hi, Finset.sum_eq_add_sum_sdiff_singleton_of_mem hi]
  omega

/-! ## The frame queue -/

def uncounted : Enq → ℕ
  | .free => 0
  | _ => 1

def unraised : Enq → ℕ
  | .linked _ => 1
  | _ => 0

/-- The counters of the queue at each stage of an enqueue. `seen` is what the
test for emptiness cannot miss. -/
structure Counted (q : FrameQueue) (enq : Enq) (cnt : ℤ) : Prop where
  small : ∀ prio, q.queuelist prio ≠ [] → prio < 8
  top : q.hiPrio < 8
  reach : ∀ prio, q.queuelist prio ≠ [] → prio ≤ q.hiPrio ∨ enq = .linked prio
  stage : ∀ prio, enq = .linked prio → prio < 8
  queued : q.qcnt+unraised enq = q.packets
  counted : cnt+uncounted enq = q.packets
  nonneg : 0 ≤ cnt
  seen : cnt ≤ q.visible

theorem visible_packets {q : FrameQueue} (htop : q.hiPrio < 8)
    (hreach : ∀ prio, q.queuelist prio ≠ [] → prio ≤ q.hiPrio) : q.visible = q.packets := by
  apply Finset.sum_subset
  · intro prio hp
    rw [Finset.mem_range] at hp ⊢
    omega
  · intro prio _ hp
    rw [Finset.mem_range] at hp
    by_contra hne
    have := hreach prio (fun h => hne (by rw [h]; rfl))
    omega

theorem counted_empty (qmax : ℕ) : Counted ⟨0, qmax, 0, fun _ => []⟩ .free 0 := by
  constructor <;> simp [FrameQueue.packets, FrameQueue.visible, uncounted, unraised]

theorem counted_link {q : FrameQueue} {cnt : ℤ} {prio : ℕ} (h : Counted q .free cnt)
    (hp : prio < 8) (pkt : TxPkt) : Counted (q.link prio pkt) (.linked prio) cnt := by
  have hreach : ∀ p, q.queuelist p ≠ [] → p ≤ q.hiPrio := by
    intro p hne
    simpa using h.reach p hne
  have hvisible := visible_packets h.top hreach
  have hpackets : (q.link prio pkt).packets = q.packets+1 := by
    have hsum := sum_length_update (Finset.mem_range.mpr hp) q.queuelist
      (q.queuelist prio++[pkt])
    rw [List.length_append, List.length_singleton] at hsum
    simp only [FrameQueue.packets, FrameQueue.link]
    omega
  have hseen : q.visible ≤ (q.link prio pkt).visible := by
    simp only [FrameQueue.visible, FrameQueue.link]
    apply Finset.sum_le_sum
    intro p _
    by_cases hpp : p = prio
    · subst p
      simp
    · rw [Function.update_of_ne hpp]
  have hother : ∀ p, (q.link prio pkt).queuelist p ≠ [] → p = prio ∨ q.queuelist p ≠ [] := by
    intro p hne
    by_cases hpp : p = prio
    · exact .inl hpp
    · exact .inr (by simpa [FrameQueue.link, hpp] using hne)
  have hqueued := h.queued
  have hcounted := h.counted
  have hold := h.seen
  simp only [unraised, uncounted] at hqueued hcounted
  constructor
  · intro p hne
    rcases hother p hne with rfl | hold
    · exact hp
    · exact h.small p hold
  · exact h.top
  · intro p hne
    rcases hother p hne with rfl | hold
    · exact .inr rfl
    · exact .inl (hreach p hold)
  · intro p he
    rw [← Enq.linked.inj he]
    exact hp
  · rw [hpackets]
    simp only [FrameQueue.link, unraised]
    omega
  · rw [hpackets]
    simp only [uncounted]
    omega
  · exact h.nonneg
  · omega

theorem counted_raise {q : FrameQueue} {cnt : ℤ} {prio : ℕ} (h : Counted q (.linked prio) cnt) :
    Counted (q.raise prio) .raised cnt := by
  have hp := h.stage prio rfl
  have htop := h.top
  have hraised : (q.raise prio).hiPrio < 8 := by
    simp only [FrameQueue.raise]
    split_ifs <;> omega
  have hreach : ∀ p, (q.raise prio).queuelist p ≠ [] → p ≤ (q.raise prio).hiPrio := by
    intro p hne
    simp only [FrameQueue.raise]
    rcases h.reach p hne with hle | he
    · split_ifs <;> omega
    · rw [← Enq.linked.inj he]
      split_ifs <;> omega
  have hvisible := visible_packets hraised hreach
  have hpackets : (q.raise prio).packets = q.packets := rfl
  have hqueued := h.queued
  have hcounted := h.counted
  simp only [unraised, uncounted] at hqueued hcounted
  constructor
  · exact h.small
  · exact hraised
  · exact fun p hne => .inl (hreach p hne)
  · intro p he
    cases he
  · rw [hpackets]
    simp only [FrameQueue.raise, unraised]
    omega
  · rw [hpackets]
    exact hcounted
  · exact h.nonneg
  · rw [hvisible, hpackets]
    omega

theorem counted_count {q : FrameQueue} {cnt : ℤ} (h : Counted q .raised cnt) :
    Counted q .free (cnt+1) := by
  have hreach : ∀ p, q.queuelist p ≠ [] → p ≤ q.hiPrio := by
    intro p hne
    simpa using h.reach p hne
  have hvisible := visible_packets h.top hreach
  have hqueued := h.queued
  have hcounted := h.counted
  have hnonneg := h.nonneg
  simp only [unraised, uncounted] at hqueued hcounted
  constructor
  · exact h.small
  · exact h.top
  · exact fun p hne => .inl (hreach p hne)
  · intro p he
    cases he
  · simpa [unraised] using hqueued
  · simp only [uncounted]
    omega
  · omega
  · omega

theorem settle_eq (lists : ℕ → List TxPkt) (hi : ℕ) :
    FrameQueue.settle lists hi = FramePriority.FrameQueue.settle lists hi := by
  induction hi with
  | zero => rfl
  | succ hi ih => rw [FrameQueue.settle, FramePriority.FrameQueue.settle, ih]

theorem settle_spec (lists : ℕ → List TxPkt) {hi prio : ℕ} (hp : prio ≤ hi)
    (hne : lists prio ≠ []) :
    lists (FrameQueue.settle lists hi) ≠ [] ∧ prio ≤ FrameQueue.settle lists hi ∧
      FrameQueue.settle lists hi ≤ hi := by
  rw [settle_eq]
  exact FramePriority.settle_spec lists hp hne

theorem dequeue_none {q : FrameQueue} (h : Counted q .free 0) : q.dequeue = (q, none) := by
  have hqueued := h.queued
  have hcounted := h.counted
  simp only [unraised, uncounted] at hqueued hcounted
  rw [FrameQueue.dequeue, if_pos (by omega)]

theorem counted_unlink {q : FrameQueue} {cnt : ℤ} {prio : ℕ} {pkt : TxPkt} {rest : List TxPkt}
    (h : Counted q .free cnt) (hlist : q.queuelist prio = pkt::rest)
    (hbelow : ∀ p, q.queuelist p ≠ [] → p ≤ prio) :
    Counted (q.unlink prio rest) .free (cnt-1) := by
  have hprio : prio < 8 := h.small prio (by rw [hlist]; exact List.cons_ne_nil _ _)
  have hqueued := h.queued
  have hcounted := h.counted
  simp only [unraised, uncounted] at hqueued hcounted
  have hother : ∀ p, (q.unlink prio rest).queuelist p ≠ [] → q.queuelist p ≠ [] := by
    intro p hp
    by_cases hpp : p = prio
    · rw [hpp, hlist]
      exact List.cons_ne_nil _ _
    · simpa [FrameQueue.unlink, hpp] using hp
  have hpackets : (q.unlink prio rest).packets+1 = q.packets := by
    have hsum := sum_length_update (Finset.mem_range.mpr hprio) q.queuelist rest
    rw [hlist, List.length_cons] at hsum
    simp only [FrameQueue.packets, FrameQueue.unlink]
    omega
  have hvisible : (q.unlink prio rest).visible = (q.unlink prio rest).packets :=
    visible_packets hprio (fun p hp => hbelow p (hother p hp))
  have hcnt : (q.unlink prio rest).qcnt = q.qcnt-1 := rfl
  constructor
  · exact fun p hp => h.small p (hother p hp)
  · exact hprio
  · exact fun p hp => .inl (hbelow p (hother p hp))
  · intro p he
    cases he
  · simp only [unraised]
    omega
  · simp only [uncounted]
    omega
  · omega
  · omega

theorem dequeue_some {q : FrameQueue} {cnt : ℤ} (h : Counted q .free cnt) (hpos : 0 < cnt) :
    ∃ q' pkt, q.dequeue = (q', some pkt) ∧ Counted q' .free (cnt-1) := by
  have hqueued := h.queued
  have hcounted := h.counted
  simp only [unraised, uncounted] at hqueued hcounted
  have hreach : ∀ p, q.queuelist p ≠ [] → p ≤ q.hiPrio := by
    intro p hne
    simpa using h.reach p hne
  obtain ⟨prio, -, hlen⟩ : ∃ prio ∈ Finset.range 8, (q.queuelist prio).length ≠ 0 := by
    apply Finset.exists_ne_zero_of_sum_ne_zero
    change q.packets ≠ 0
    omega
  have hne : q.queuelist prio ≠ [] := fun he => hlen (by rw [he]; rfl)
  have hbelow : ∀ p, q.queuelist p ≠ [] → p ≤ FrameQueue.settle q.queuelist q.hiPrio :=
    fun p hp => (settle_spec q.queuelist (hreach p hp) hp).2.1
  obtain ⟨pkt, rest, hlist⟩ :=
    List.exists_cons_of_ne_nil (settle_spec q.queuelist (hreach prio hne) hne).1
  have hdequeue : q.dequeue =
      (q.unlink (FrameQueue.settle q.queuelist q.hiPrio) rest, some pkt) := by
    rw [FrameQueue.dequeue, if_neg (by omega)]
    simp only [hlist]
  exact ⟨_, pkt, hdequeue, counted_unlink h hlist hbelow⟩

/-- With a counted packet the test for emptiness fails, at every stage. -/
theorem not_isEmpty {q : FrameQueue} {enq : Enq} {cnt : ℤ} (h : Counted q enq cnt)
    (hpos : 0 < cnt) : q.isEmpty = false := by
  have := h.seen
  rw [FrameQueue.isEmpty, beq_eq_false_iff_ne]
  omega

/-! ## The aggregation buffer -/

/-- The frames sent and the buffer are groups of the packets taken from the queue, in order. -/
def Collected (chipid : ProductId) (s : Bus) : Prop :=
  ∃ groups : List (List TxPkt), ∃ held, s.transfers = groups.map (fun g => linkTail (records chipid g)) ∧
    s.aggr = ⟨records chipid held, held.length⟩ ∧ groups.flatten++held = s.taken

/-- What the buffer may hold at each place of the thread. -/
def Roomy (s : Bus) : Prop :=
  match s.pc with
  | .loop | .body => s.aggr.aggrCount = 0 ∨ (s.aggr.aggrCount : ℤ) < s.room ∧ 0 < s.txPktcnt
  | .send _ | .deq _ =>
    0 < s.room ∧ (s.aggr.aggrCount = 0 ∨ (s.aggr.aggrCount : ℤ) < s.room ∧ 0 < s.txPktcnt)
  | .flush _ => 0 < s.aggr.aggrCount ∧ (s.aggr.aggrCount : ℤ) ≤ s.room
  | _ => s.aggr.aggrCount = 0

structure Sound (cfg : Config) (s : Bus) : Prop where
  counted : Counted s.txq s.enq s.txPktcnt
  collected : Collected cfg.chipid s
  roomy : s.busUp = true → Roomy s

theorem records_append (chipid : ProductId) (pkts rest : List TxPkt) :
    records chipid (pkts++rest) = records chipid pkts++records chipid rest :=
  List.flatMap_append ..

theorem records_eq_nil (chipid : ProductId) (pkts : List TxPkt) :
    (records chipid pkts).length = 0 ↔ pkts.length = 0 := by
  cases pkts with
  | nil => simp [records]
  | cons pkt pkts =>
    simp only [records, List.flatMap_cons, List.length_append, recordOf_length, List.length_cons]
    omega

theorem Collected.empty_iff {chipid : ProductId} {s : Bus} (h : Collected chipid s) :
    s.aggr.aggrCount = 0 ↔ s.aggr.bytes.length = 0 := by
  obtain ⟨groups, held, -, haggr, -⟩ := h
  rw [haggr]
  exact (records_eq_nil chipid held).symm

theorem Collected.frame {chipid : ProductId} {s t : Bus} (h : Collected chipid s)
    (htransfers : t.transfers = s.transfers) (haggr : t.aggr = s.aggr) (htaken : t.taken = s.taken) :
    Collected chipid t := by
  simp only [Collected, htransfers, haggr, htaken]
  exact h

theorem Collected.send {chipid : ProductId} {s : Bus} (h : Collected chipid s) :
    Collected chipid s.aggrSend := by
  obtain ⟨groups, held, htransfers, haggr, htaken⟩ := h
  refine ⟨groups++[held], [], ?_, rfl, ?_⟩
  · simp only [Bus.aggrSend, htransfers, haggr, List.map_append, List.map_cons, List.map_nil]
  · rw [List.flatten_append, List.flatten_singleton, List.append_nil]
    exact htaken

theorem Collected.append {chipid : ProductId} {s t : Bus} (h : Collected chipid s) (pkt : TxPkt)
    (htransfers : t.transfers = s.transfers) (haggr : t.aggr = aicwfSdioAggr chipid s.aggr pkt)
    (htaken : t.taken = s.taken++[pkt]) : Collected chipid t := by
  obtain ⟨groups, held, hgroups, hheld, hall⟩ := h
  refine ⟨groups, held++[pkt], htransfers.trans hgroups, ?_, ?_⟩
  · have happend := aggr_all chipid [pkt] ⟨records chipid held, held.length⟩
      (records_aligned chipid held)
    rw [haggr, hheld, records_append, List.length_append]
    exact happend
  · rw [htaken, ← hall, List.append_assoc]

theorem aggrSend_count (s : Bus) : s.aggrSend.aggr.aggrCount = 0 := rfl

/-! ## One step -/

/-- The buffer goes out, on the way out of `aicwf_sdio_send`. -/
theorem aggrSend_sound {cfg : Config} {s : Bus} (h : Sound cfg s) (now : Bool) :
    Sound cfg { s.aggrSend with pc := Bus.sent now } := by
  refine ⟨h.counted, h.collected.send.frame rfl rfl rfl, ?_⟩
  cases now <;> simp [Roomy, Bus.sent, aggrSend_count]

theorem send_sound {cfg : Config} {s : Bus} {now : Bool} (h : Sound cfg s)
    (hpc : s.pc = .send now) : Sound cfg (s.sdioSend now) := by
  have hempty := h.collected.empty_iff
  rw [Bus.sdioSend, if_neg (by omega)]
  split_ifs with hfull hsome
  · exact aggrSend_sound h now
  · refine ⟨h.counted, h.collected.frame rfl rfl rfl, ?_⟩
    intro hup
    have hroomy := h.roomy hup
    simp only [Roomy, hpc] at hroomy
    omega
  · refine ⟨h.counted, h.collected.frame rfl rfl rfl, ?_⟩
    intro hup
    have hroomy := h.roomy hup
    simp only [Roomy, hpc] at hroomy
    exact hroomy

theorem deq_sound {cfg : Config} {s : Bus} {now : Bool} (h : Sound cfg s)
    (hpc : s.pc = .deq now) (hfree : s.enq = .free) : Sound cfg (s.sdioDeq cfg now) := by
  have hcounted := h.counted
  rw [hfree] at hcounted
  by_cases hpos : 0 < s.txPktcnt
  · obtain ⟨q, pkt, hdequeue, hq⟩ := dequeue_some hcounted hpos
    have hstep : s.sdioDeq cfg now = { s with
        txq := q
        txPktcnt := s.txPktcnt-1
        aggr := aicwfSdioAggr cfg.chipid s.aggr pkt
        taken := s.taken++[pkt]
        pc := .flush now } := by
      simp only [Bus.sdioDeq, hdequeue]
    rw [hstep]
    refine ⟨by simpa only [hfree] using hq, h.collected.append pkt rfl rfl rfl, ?_⟩
    intro hup
    have hroomy := h.roomy hup
    simp only [Roomy, hpc] at hroomy
    simp only [Roomy, aicwfSdioAggr, Bus.room] at hroomy ⊢
    push_cast
    omega
  · have hzero : s.txPktcnt = 0 := by
      have := hcounted.nonneg
      omega
    rw [hzero] at hcounted
    have hstep : s.sdioDeq cfg now = { s with pc := Bus.sent now } := by
      simp only [Bus.sdioDeq, dequeue_none hcounted]
    rw [hstep]
    refine ⟨h.counted, h.collected.frame rfl rfl rfl, ?_⟩
    intro hup
    have hroomy := h.roomy hup
    simp only [Roomy, hpc] at hroomy
    have hnone : s.aggr.aggrCount = 0 := by omega
    cases now with
    | false => exact .inl hnone
    | true => exact hnone

theorem flush_sound {cfg : Config} {s : Bus} {now : Bool} (h : Sound cfg s)
    (hpc : s.pc = .flush now) : Sound cfg (s.sdioFlush now) := by
  rw [Bus.sdioFlush]
  split_ifs with hflush
  · exact aggrSend_sound h now
  · refine ⟨h.counted, h.collected.frame rfl rfl rfl, ?_⟩
    intro hup
    have hroomy := h.roomy hup
    have hnonneg := h.counted.nonneg
    simp only [Roomy, hpc] at hroomy
    push Not at hflush
    obtain ⟨hcnt, hnow, hne⟩ := hflush
    simp only [ne_eq, Bool.not_eq_true] at hnow
    simp only [Roomy, Bus.sent, hnow]
    exact .inr ⟨lt_of_le_of_ne hroomy.2 hne, lt_of_le_of_ne hnonneg (Ne.symm hcnt)⟩

theorem body_sound {cfg : Config} {s : Bus} (h : Sound cfg s) (hpc : s.pc = .body) (io : Io) :
    Sound cfg (s.loopBody cfg io) := by
  have hframe : ∀ t : Bus, t.transfers = s.transfers → t.aggr = s.aggr → t.taken = s.taken →
      Collected cfg.chipid t := fun t h1 h2 h3 => h.collected.frame h1 h2 h3
  have hroomy := h.roomy
  simp only [Roomy, hpc, Bus.room] at hroomy
  simp only [Bus.loopBody]
  split_ifs with hdown hthresh hcmd
  · exact ⟨h.counted, hframe _ rfl rfl rfl, fun hup => absurd hup (by simp [hdown])⟩
  · refine ⟨h.counted, hframe _ rfl rfl rfl, ?_⟩
    intro hup
    have := hroomy hup
    simp only [Roomy]
    omega
  · refine ⟨h.counted, hframe _ rfl rfl rfl, ?_⟩
    intro hup
    have := hroomy hup
    simp only [Roomy]
    omega
  · refine ⟨h.counted, hframe _ rfl rfl rfl, ?_⟩
    intro hup
    have := hroomy hup
    simp only [Roomy, Bus.room]
    omega

/-- The places where the buffer is empty. -/
def quiet : Pc → Bool
  | .loop | .body | .send _ | .deq _ | .flush _ => false
  | _ => true

/-- What is left alone outside the data loop. -/
structure Untouched (s t : Bus) : Prop where
  txq : t.txq = s.txq
  enq : t.enq = s.enq
  txPktcnt : t.txPktcnt = s.txPktcnt
  transfers : t.transfers = s.transfers
  aggr : t.aggr = s.aggr
  taken : t.taken = s.taken
  busUp : t.busUp = s.busUp

theorem roomy_of_quiet {s : Bus} (hpc : quiet s.pc = true) : Roomy s ↔ s.aggr.aggrCount = 0 := by
  cases h : s.pc <;> simp_all [Roomy, quiet]

theorem quiet_step {cfg : Config} {s t : Bus} {io : Io} (hpc : quiet s.pc = true)
    (ht : s.threadStep cfg io = some t) :
    Untouched s t ∧ (quiet t.pc = true ∨ t.pc = .loop) := by
  have still : ∀ u : Bus, s.threadStep cfg io = some u → Untouched s u →
      (quiet u.pc = true ∨ u.pc = .loop) → Untouched s t ∧ (quiet t.pc = true ∨ t.pc = .loop) := by
    intro u hu hsame hnext
    rw [hu] at ht
    obtain rfl := Option.some.inj ht
    exact ⟨hsame, hnext⟩
  cases h : s.pc <;> simp only [h, quiet, Bool.false_eq_true] at hpc
  case waiting =>
    simp only [Bus.threadStep, h] at ht still
    split_ifs at ht still with htrgg
    exact still _ rfl ⟨rfl, rfl, rfl, rfl, rfl, rfl, rfl⟩ (.inl rfl)
  case msgSend len cnt =>
    simp only [Bus.threadStep, h] at ht still
    split_ifs at ht still with hsema hout
    · exact still _ rfl ⟨rfl, rfl, rfl, rfl, rfl, rfl, rfl⟩ (.inl rfl)
    · exact still _ rfl ⟨rfl, rfl, rfl, rfl, rfl, rfl, rfl⟩ (.inl rfl)
  case msgFlow =>
    simp only [Bus.threadStep, h, Bus.msgFlow] at still
    cases hchip : cfg.chipid <;> simp only [hchip] at still <;>
      exact still _ rfl ⟨rfl, rfl, rfl, rfl, rfl, rfl, rfl⟩ (.inl rfl)
  case first =>
    simp only [Bus.threadStep, h] at still
    exact still _ rfl ⟨rfl, rfl, rfl, rfl, rfl, rfl, rfl⟩ (.inr rfl)
  all_goals
    simp only [Bus.threadStep, h] at still
    apply still _ rfl ⟨rfl, rfl, rfl, rfl, rfl, rfl, rfl⟩
    left
    try split_ifs
    all_goals rfl

theorem loop_sound {cfg : Config} {s : Bus} (h : Sound cfg s) (hpc : s.pc = .loop) :
    Sound cfg { s with pc := if s.txq.isEmpty then .returned else .body } := by
  refine ⟨h.counted, h.collected.frame rfl rfl rfl, ?_⟩
  intro hup
  have hroomy := h.roomy hup
  simp only [Roomy, hpc] at hroomy
  by_cases hempty : s.txq.isEmpty = true
  · have hnot : ¬ 0 < s.txPktcnt := by
      intro hpos
      rw [not_isEmpty h.counted hpos] at hempty
      exact Bool.false_ne_true hempty
    simp only [if_pos hempty, Roomy]
    omega
  · simp only [if_neg hempty, Roomy]
    exact hroomy

theorem thread_sound {cfg : Config} {s t : Bus} {io : Io} (h : Sound cfg s)
    (ht : s.threadStep cfg io = some t) : Sound cfg t := by
  by_cases hquiet : quiet s.pc = true
  · obtain ⟨hsame, hnext⟩ := quiet_step hquiet ht
    refine ⟨?_, h.collected.frame hsame.transfers hsame.aggr hsame.taken, ?_⟩
    · rw [hsame.txq, hsame.enq, hsame.txPktcnt]
      exact h.counted
    · intro hup
      rw [hsame.busUp] at hup
      have hnone := (roomy_of_quiet hquiet).mp (h.roomy hup)
      rcases hnext with hnext | hnext
      · rw [roomy_of_quiet hnext, hsame.aggr]
        exact hnone
      · simp only [Roomy, hnext, hsame.aggr]
        exact .inl hnone
  · cases hpc : s.pc <;> simp only [hpc, quiet, not_true, Bool.false_eq_true, not_false_iff] at hquiet
    case loop =>
      simp only [Bus.threadStep, hpc] at ht
      obtain rfl := Option.some.inj ht
      exact loop_sound h hpc
    case body =>
      simp only [Bus.threadStep, hpc] at ht
      obtain rfl := Option.some.inj ht
      exact body_sound h hpc io
    case send now =>
      simp only [Bus.threadStep, hpc] at ht
      obtain rfl := Option.some.inj ht
      exact send_sound h hpc
    case deq now =>
      simp only [Bus.threadStep, hpc] at ht
      split_ifs at ht with hfree
      obtain rfl := Option.some.inj ht
      exact deq_sound h hpc hfree
    case flush now =>
      simp only [Bus.threadStep, hpc] at ht
      obtain rfl := Option.some.inj ht
      exact flush_sound h hpc

/-- A caller only adds to the count. -/
theorem Roomy.caller {s t : Bus} (h : Roomy s) (hpc : t.pc = s.pc) (haggr : t.aggr = s.aggr)
    (hfw : t.fwAvailBufcnt = s.fwAvailBufcnt) (hcnt : s.txPktcnt ≤ t.txPktcnt) : Roomy t := by
  have hroom : t.room = s.room := by rw [Bus.room, Bus.room, hfw]
  cases hp : s.pc <;> simp only [Roomy, hp] at h <;>
    simp only [Roomy, hpc, hp, haggr, hroom] <;> omega

theorem caller_sound {cfg : Config} {s t : Bus} (h : Sound cfg s)
    (hcounted : Counted t.txq t.enq t.txPktcnt) (hpc : t.pc = s.pc) (haggr : t.aggr = s.aggr)
    (hfw : t.fwAvailBufcnt = s.fwAvailBufcnt) (hcnt : s.txPktcnt ≤ t.txPktcnt)
    (htransfers : t.transfers = s.transfers) (htaken : t.taken = s.taken)
    (hup : t.busUp = true → s.busUp = true) : Sound cfg t :=
  ⟨hcounted, h.collected.frame htransfers haggr htaken,
    fun ht => (h.roomy (hup ht)).caller hpc haggr hfw hcnt⟩

theorem step_sound {cfg : Config} {s t : Bus} {a : Act} (h : Sound cfg s)
    (ht : step cfg s a = some t) : Sound cfg t := by
  have hcounted := h.counted
  cases a with
  | txdata pkt priority =>
    simp only [step] at ht
    split_ifs at ht with hdown henq hfull
    · obtain rfl := Option.some.inj ht
      exact h
    · obtain rfl := Option.some.inj ht
      exact h
    · obtain rfl := Option.some.inj ht
      have hprio : priority &&& 0x7 < 8 := lt_of_le_of_lt Nat.and_le_right (by decide)
      rw [not_not.mp henq] at hcounted
      exact caller_sound h (counted_link hcounted hprio pkt) rfl rfl rfl (le_refl _) rfl rfl id
  | raise =>
    cases henq : s.enq with
    | linked prio =>
      simp only [step, henq] at ht
      obtain rfl := Option.some.inj ht
      rw [henq] at hcounted
      exact caller_sound h (counted_raise hcounted) rfl rfl rfl (le_refl _) rfl rfl id
    | free => simp [step, henq] at ht
    | raised => simp [step, henq] at ht
  | count =>
    simp only [step] at ht
    split_ifs at ht with henq
    obtain rfl := Option.some.inj ht
    rw [henq] at hcounted
    exact caller_sound h (counted_count hcounted) rfl rfl rfl (by simp) rfl rfl id
  | txmsg =>
    simp only [step] at ht
    split_ifs at ht
    obtain rfl := Option.some.inj ht
    exact caller_sound h hcounted rfl rfl rfl (le_refl _) rfl rfl id
  | msglen len =>
    by_cases hsema : s.cmdTxsema = true
    · simp only [step, if_pos hsema] at ht
      obtain rfl := Option.some.inj ht
      exact caller_sound h hcounted rfl rfl rfl (le_refl _) rfl rfl id
    · simp [step, hsema] at ht
  | complete =>
    simp only [step] at ht
    split_ifs at ht
    obtain rfl := Option.some.inj ht
    exact caller_sound h hcounted rfl rfl rfl (le_refl _) rfl rfl id
  | busDown =>
    simp only [step] at ht
    obtain rfl := Option.some.inj ht
    exact caller_sound h hcounted rfl rfl rfl (le_refl _) rfl rfl (by simp)
  | thread io => exact thread_sound h ht

theorem init_sound (cfg : Config) : Sound cfg init :=
  ⟨counted_empty TXQLEN, ⟨[], [], rfl, rfl, rfl⟩, fun _ => rfl⟩

theorem run_sound {cfg : Config} {as : List Act} {s : Bus}
    (h : exec (step cfg) init as = some s) : Sound cfg s :=
  exec_preserves (fun _ _ _ ht hs => step_sound hs ht) (init_sound cfg) h

theorem Roomy.bound {s : Bus} (h : Roomy s) (hsome : 0 < s.aggr.aggrCount) :
    (s.aggr.aggrCount : ℤ) ≤ s.room := by
  cases hpc : s.pc <;> simp only [Roomy, hpc] at h <;> omega

/-- The bookkeeping of the aggregation buffer in every state reached with the bus up. -/
structure Kept (cfg : Config) (s : Bus) : Prop where
  bound : 0 < s.aggr.aggrCount → (s.aggr.aggrCount : ℤ) ≤ s.fwAvailBufcnt-DATA_FLOW_CTRL_THRESH
  empty : s.aggr.aggrCount = 0 ↔ s.aggr.bytes = []
  count : s.enq = .free → s.txPktcnt = s.txq.packets
  once : ∃ groups : List (List TxPkt), ∃ held, s.transfers = groups.map (fun g => linkTail (records cfg.chipid g)) ∧
    s.aggr.bytes = records cfg.chipid held ∧ s.aggr.aggrCount = held.length ∧
    groups.flatten++held = s.taken
  ended : s.pc = .returned → s.aggr.bytes = []

/-- Nothing is lost, repeated or reordered between the queue and the bus, and nothing is left
in the buffer when the thread returns. -/
theorem run_kept {cfg : Config} {as : List Act} {s : Bus}
    (h : exec (step cfg) init as = some s) (hup : s.busUp = true) : Kept cfg s := by
  have hs := run_sound h
  have hroomy := hs.roomy hup
  have hempty : s.aggr.aggrCount = 0 ↔ s.aggr.bytes = [] := by
    rw [hs.collected.empty_iff, List.length_eq_zero_iff]
  constructor
  · exact hroomy.bound
  · exact hempty
  · intro hfree
    have hcounted := hs.counted.counted
    rw [hfree] at hcounted
    simpa [uncounted] using hcounted
  · obtain ⟨groups, held, htransfers, haggr, htaken⟩ := hs.collected
    exact ⟨groups, held, htransfers, by rw [haggr], by rw [haggr], htaken⟩
  · intro hpc
    simp only [Roomy, hpc] at hroomy
    exact hempty.mp hroomy

def creditIo (credits : UInt8) : Io := ⟨false, true, fun _ => some credits, fun _ _ => none⟩

/-- One packet, and the thread up to the loop. -/
def firstRun (credits : UInt8) : List Act :=
  [.txdata (samplePkt [5]) 0, .raise, .count, .complete]++
    List.replicate 6 (.thread (creditIo credits))

theorem run_kept_packet : ∃ s, exec (step ⟨.aic8801, 32⟩) init
    (firstRun 10++List.replicate 6 (.thread (creditIo 10))) = some s ∧ s.pc = .returned ∧
      s.taken.length = 1 ∧ Kept ⟨.aic8801, 32⟩ s := by
  have hrun : exec (step ⟨.aic8801, 32⟩) init
      (firstRun 10++List.replicate 6 (.thread (creditIo 10))) =
        some ((exec (step ⟨.aic8801, 32⟩) init
          (firstRun 10++List.replicate 6 (.thread (creditIo 10)))).get (by decide)) :=
    (Option.some_get _).symm
  exact ⟨_, hrun, by decide, by decide, run_kept hrun (by decide)⟩

/-- Without credits the empty buffer is above the bound. -/
theorem no_credits_no_room : ∃ s, exec (step ⟨.aic8801, 32⟩) init (firstRun 0) = some s ∧
    s.busUp = true ∧ s.pc = .loop ∧
      ¬ (s.aggr.aggrCount : ℤ) ≤ s.fwAvailBufcnt-DATA_FLOW_CTRL_THRESH := by
  have hrun : exec (step ⟨.aic8801, 32⟩) init (firstRun 0) =
      some ((exec (step ⟨.aic8801, 32⟩) init (firstRun 0)).get (by decide)) :=
    (Option.some_get _).symm
  exact ⟨_, hrun, by decide, by decide, by decide⟩

end AIC.BusTxAggregation
