import Aic8800.Lib.GuardedRun
import Aic8800.RxAggregate

/-!
# Waking the receive thread

`aicwf_sdio_hal_irqhandler` puts a buffer on `rxq`, counts it after it let go
of the queue lock, and signals `busrx_trgg` when the count reads exactly 1.
`sdio_busrx_thread` waits for the signal and empties the queue. The handler
runs one at a time under the SDIO host, with the bus up throughout.
-/

set_option autoImplicit false

namespace AIC.RxThread
open AIC.RxAggregate Lib.LoopRun Lib.GuardedRun

def MAX_RXQLEN : ℕ := 2000

inductive IrqPhase where
  | idle
  | enqueue (pkt : List UInt8)
  | count
  | test
  deriving DecidableEq

/-- `waiting` is `wait_for_completion_interruptible`; in `walk` and `freed` the
thread holds a buffer that `rx_cnt` still counts. -/
inductive ThreadPhase where
  | waiting
  | loop
  | walk (skb : List UInt8)
  | freed
  deriving DecidableEq

structure RxBus where
  rxq : List (List UInt8)
  rxCnt : ℤ
  busrxTrgg : ℕ
  irq : IrqPhase
  thread : ThreadPhase

def init : RxBus := ⟨[], 0, 0, .idle, .waiting⟩

inductive Act where
  | irq (pkt : Option (List UInt8))
  | irqStep
  | wake
  | threadStep (alloc : Bool)

/-- `aicwf_sdio_enq_rxpkt`, its counter apart, then the test of `rx_cnt`. -/
def irqStep (s : RxBus) : Option RxBus :=
  match s.irq with
  | .idle => none
  | .enqueue pkt =>
    if s.rxq.length < MAX_RXQLEN then some { s with rxq := s.rxq++[pkt], irq := .count }
    else some { s with irq := .test }
  | .count => some { s with rxCnt := s.rxCnt+1, irq := .test }
  | .test =>
    some { s with
      busrxTrgg := if s.rxCnt = 1 then s.busrxTrgg+1 else s.busrxTrgg
      irq := .idle }

/-- One step of `aicwf_process_rxframes`; `alloc` is the outcome of the
allocation the record needs. A read outside the buffer has no next step. -/
def threadStep (s : RxBus) (alloc : Bool) : Option RxBus :=
  match s.thread with
  | .waiting => none
  | .loop =>
    match s.rxq with
    | [] => some { s with thread := .waiting }
    | skb::rest => some { s with rxq := rest, thread := .walk skb }
  | .walk skb =>
    match skbTurn (fun _ => false) (fun _ => alloc) 0 skb with
    | .next rest _ => some { s with thread := .walk rest }
    | .stop .done => some { s with thread := .freed }
    -- return -EBADE, without atomic_dec
    | .stop .ebade => some { s with thread := .waiting }
    | .stop _ => none
  | .freed => some { s with rxCnt := s.rxCnt-1, thread := .loop }

def step (s : RxBus) : Act → Option RxBus
  | .irq pkt =>
    if s.irq = .idle then some { s with irq := pkt.elim .test .enqueue } else none
  | .irqStep => irqStep s
  | .wake =>
    if s.thread = .waiting ∧ 0 < s.busrxTrgg then
      some { s with busrxTrgg := s.busrxTrgg-1, thread := .loop }
    else none
  | .threadStep alloc => threadStep s alloc

/-! ## The count and the signal -/

def held : ThreadPhase → ℕ
  | .walk _ | .freed => 1
  | _ => 0

/-- The buffers `rx_cnt` is to count. -/
def buffers (s : RxBus) : ℤ := s.rxq.length+held s.thread

/-- `rx_cnt` is the number of buffers, but for one just queued and about to be counted. -/
def Counted (s : RxBus) : Prop :=
  s.rxCnt+(if s.irq = .count then 1 else 0) = buffers s

/-- With the thread idle and no handler run under way, a queued buffer has its signal. -/
def Signalled (s : RxBus) : Prop :=
  s.thread = .waiting → s.irq = .idle → s.rxq ≠ [] → 0 < s.busrxTrgg

instance decidableCounted (s : RxBus) : Decidable (Counted s) :=
  inferInstanceAs (Decidable (_ = _))

instance decidableSignalled (s : RxBus) : Decidable (Signalled s) :=
  inferInstanceAs (Decidable (_ → _))

/-- The thread is not refused the memory for a configuration record. -/
def Granted (s : RxBus) : Act → Prop
  | .threadStep alloc => ∀ skb, s.thread = .walk skb →
      skbTurn (fun _ => false) (fun _ => alloc) 0 skb ≠ .stop .ebade
  | _ => True

/-- The one buffer is in the hands of a handler run that is going to find the count at 1. -/
structure Attended (s : RxBus) : Prop where
  count : Counted s
  signal : s.thread = .waiting → s.rxq ≠ [] →
    0 < s.busrxTrgg ∨ s.rxq.length = 1 ∧ (s.irq = .count ∨ s.irq = .test)

theorem init_attended : Attended init := ⟨rfl, by simp [init]⟩

section
variable {s t : RxBus}

theorem Attended.signalled (h : Attended s) : Signalled s := by
  intro ht hi hne
  rcases h.signal ht hne with hs | ⟨-, hs | hs⟩
  · exact hs
  · rw [hi] at hs
    cases hs
  · rw [hi] at hs
    cases hs

theorem enqueue_attended (h : Attended s) {pkt : List UInt8} (hi : s.irq = .enqueue pkt) :
    Attended { s with rxq := s.rxq++[pkt], irq := .count } := by
  have hc := h.count
  rw [Counted, hi] at hc
  refine ⟨?_, fun ht _ => ?_⟩
  · simp only [Counted, buffers, reduceCtorEq, if_false, if_true, List.length_append,
      List.length_singleton, Nat.cast_add, Nat.cast_one] at hc ⊢
    omega
  · by_cases hne : s.rxq = []
    · exact Or.inr ⟨by simp [hne], Or.inl rfl⟩
    · rcases h.signal ht hne with hs | ⟨-, hs | hs⟩
      · exact Or.inl hs
      · rw [hi] at hs
        cases hs
      · rw [hi] at hs
        cases hs

/-- The handler goes on to test the counter, counted or with nothing to count. -/
theorem toTest_attended (h : Attended s) :
    Attended { s with rxCnt := s.rxCnt+(if s.irq = .count then 1 else 0), irq := .test } := by
  refine ⟨?_, fun ht hne => ?_⟩
  · simpa [Counted, buffers] using h.count
  · rcases h.signal ht hne with hs | ⟨hs, -⟩
    · exact Or.inl hs
    · exact Or.inr ⟨hs, Or.inr rfl⟩

theorem test_attended (h : Attended s) (hi : s.irq = .test) : Attended { s with
    busrxTrgg := if s.rxCnt = 1 then s.busrxTrgg+1 else s.busrxTrgg
    irq := .idle } := by
  have hc := h.count
  simp only [Counted, hi, reduceCtorEq, if_false, add_zero] at hc
  refine ⟨by simpa [Counted, buffers] using hc, fun ht hne => Or.inl ?_⟩
  rcases h.signal ht hne with hs | ⟨hone, -⟩
  · simp only
    split_ifs <;> omega
  · -- the thread holds nothing, so that the one buffer makes the count 1
    have hcnt : s.rxCnt = 1 := by
      have ht' : s.thread = .waiting := ht
      rw [hc, buffers, ht', hone]
      rfl
    simp [hcnt]

theorem irqStep_attended (h : Attended s) (hs : irqStep s = some t) : Attended t := by
  cases hi : s.irq with
  | idle => simp [irqStep, hi] at hs
  | enqueue pkt =>
    simp only [irqStep, hi] at hs
    split_ifs at hs
    · exact Option.some.inj hs ▸ enqueue_attended h hi
    · have ht := toTest_attended h
      simp only [hi, reduceCtorEq, if_false, add_zero] at ht
      exact Option.some.inj hs ▸ ht
  | count =>
    have ht := toTest_attended h
    simp only [hi, if_true] at ht
    simp only [irqStep, hi] at hs
    exact Option.some.inj hs ▸ ht
  | test =>
    simp only [irqStep, hi] at hs
    exact Option.some.inj hs ▸ test_attended h hi

theorem threadStep_attended (h : Attended s) {alloc : Bool}
    (hg : Granted s (.threadStep alloc)) (hs : threadStep s alloc = some t) : Attended t := by
  have hc := h.count
  cases ht : s.thread with
  | waiting => simp [threadStep, ht] at hs
  | loop =>
    cases hq : s.rxq with
    | nil =>
      simp only [threadStep, ht, hq] at hs
      obtain rfl := Option.some.inj hs
      exact ⟨by simpa [Counted, buffers, ht, held, hq] using hc, fun _ hne => absurd rfl hne⟩
    | cons skb rest =>
      simp only [threadStep, ht, hq] at hs
      obtain rfl := Option.some.inj hs
      exact ⟨by simpa [Counted, buffers, ht, held, hq] using hc, by simp⟩
  | walk skb =>
    simp only [threadStep, ht] at hs
    split at hs
    · obtain rfl := Option.some.inj hs
      exact ⟨by simpa [Counted, buffers, ht, held] using hc, by simp⟩
    · obtain rfl := Option.some.inj hs
      exact ⟨by simpa [Counted, buffers, ht, held] using hc, by simp⟩
    · rename_i hturn
      exact absurd hturn (hg skb ht)
    · cases hs
  | freed =>
    simp only [threadStep, ht, Option.some.injEq] at hs
    subst hs
    refine ⟨?_, by simp⟩
    simp only [Counted, buffers, ht, held] at hc ⊢
    omega

theorem step_attended (h : Attended s) {a : Act} (hg : Granted s a) (hs : step s a = some t) :
    Attended t := by
  cases a with
  | irq pkt =>
    simp only [step] at hs
    split_ifs at hs with hi
    obtain rfl := Option.some.inj hs
    have hc := h.count
    have hw := h.signal
    simp only [Counted, hi, reduceCtorEq, if_false, or_self, and_false, or_false] at hc hw
    cases pkt with
    | none => exact ⟨by simpa [Counted, buffers] using hc, fun ht hne => Or.inl (hw ht hne)⟩
    | some pkt => exact ⟨by simpa [Counted, buffers] using hc, fun ht hne => Or.inl (hw ht hne)⟩
  | irqStep => exact irqStep_attended h hs
  | wake =>
    simp only [step] at hs
    split_ifs at hs with hw
    obtain rfl := Option.some.inj hs
    exact ⟨by simpa [Counted, buffers, hw.1, held] using h.count, by simp⟩
  | threadStep alloc => exact threadStep_attended h hg hs

/-- A refusal leaves a buffer counted that is gone. -/
theorem refused_uncounted (hc : Counted s) {skb : List UInt8} {alloc : Bool}
    (hw : s.thread = .walk skb)
    (hr : skbTurn (fun _ => false) (fun _ => alloc) 0 skb = .stop .ebade) :
    ∃ t, step s (.threadStep alloc) = some t ∧ ¬ Counted t := by
  refine ⟨{ s with thread := .waiting }, by simp [step, threadStep, hw, hr], ?_⟩
  simp only [Counted, buffers, hw, held] at hc ⊢
  omega

theorem counted_granted {a : Act} (hc : Counted s) (hn : ∀ t ∈ step s a, Counted t) :
    Granted s a := by
  cases a with
  | threadStep alloc =>
    intro skb hw hr
    obtain ⟨t, ht, hbad⟩ := refused_uncounted hc hw hr
    exact hbad (hn t ht)
  | irq pkt => trivial
  | irqStep => trivial
  | wake => trivial

end

/-! ## Whole runs -/

/-- The count is right and no wake-up is lost in every state of a run exactly
when no configuration record in it was refused its memory. -/
theorem run_counted_iff (acts : List Act) :
    Throughout step (fun s => Counted s ∧ Signalled s) init acts ↔
      Meets step Granted init acts :=
  throughout_iff (fun _ _ _ hg hs ha => step_attended ha hg hs)
    (fun _ ha => ⟨ha.count, ha.signalled⟩)
    (fun _ _ ha hn => counted_granted ha.count fun t ht => (hn t ht).1) init_attended acts

/-- A configuration record of four bytes. -/
def configPkt : List UInt8 := [4, 0, 0x11, 0, 1, 2, 3, 4]

/-- The first record is refused its memory; another buffer comes when the thread is idle again. -/
def refusedRun : List Act :=
  [.irq (some configPkt), .irqStep, .irqStep, .irqStep, .wake, .threadStep true, .threadStep false,
    .irq (some configPkt), .irqStep, .irqStep, .irqStep]

/-- The count is one too high ever after, and the next buffer gets no signal. -/
theorem run_refused : ∃ s, exec step init refusedRun = some s ∧ ¬ Counted s ∧ ¬ Signalled s := by
  refine ⟨_, (Option.some_get (by decide +kernel)).symm, ?_, ?_⟩ <;> decide +kernel

end AIC.RxThread
