import Aic8800.BusTxAggregation

/-!
# Work left behind by the transmit thread

When the thread is outside `aicwf_sdio_tx_process` and there is work, somebody
has to signal it. The early exits and a command without credits do not, so this
is asked of the steps that take them; every other way out is covered by the
caller that brought the work.
-/

set_option autoImplicit false

namespace AIC.BusTxWork
open AIC.BusTxMachine AIC.BusTxAggregation AIC.TxAggregateFormat Lib.GuardedRun

def Idle (s : Bus) : Prop := s.cmdTxstate = false ∧ s.txq.packets = 0

instance (s : Bus) : Decidable (Idle s) := inferInstanceAs (Decidable (_ ∧ _))

/-- The completion is signalled, or a caller in the middle of its call is going to do so. -/
def Covered (s : Bus) : Prop :=
  0 < s.bustxTrgg ∨ 0 < s.signals ∨ s.enq ≠ .free ∨ s.cmdTxsema = true

instance (s : Bus) : Decidable (Covered s) := inferInstanceAs (Decidable (_ ∨ _))

/-- Outside `aicwf_sdio_tx_process` with the bus up there is no work, or a signal for it. -/
def NoLostWork (s : Bus) : Prop :=
  s.busUp = true → s.pc = .returned ∨ s.pc = .waiting → Idle s ∨ Covered s

/-- An early exit finds no work or a signal; a command is accepted or there is a signal. -/
def RelayedAt (cfg : Config) (s : Bus) (io : Io) : Pc → Prop
  | .cmdCtl | .dataCtl => Bus.refused io = true → Idle s ∨ Covered s
  | .msgSend len cnt => msgAccepted cfg.chipid len cnt = true ∨ Covered s
  | _ => True

def Relayed (cfg : Config) (s : Bus) : Act → Prop
  | .thread io => RelayedAt cfg s io s.pc
  | _ => True

instance (cfg : Config) (s : Bus) (io : Io) (pc : Pc) : Decidable (RelayedAt cfg s io pc) := by
  cases pc <;> dsimp only [RelayedAt] <;> infer_instance

instance (cfg : Config) (s : Bus) (a : Act) : Decidable (Relayed cfg s a) := by
  cases a <;> dsimp only [Relayed] <;> infer_instance

/-- What holds at each place when nobody is going to signal. -/
def Calm (s : Bus) : Prop :=
  match s.pc with
  | .waiting | .returned => Idle s
  | .dataCtl | .first | .loop | .body | .send false | .deq false | .flush false =>
    s.cmdTxstate = false
  | .send true | .deq true | .flush true => False
  | _ => True

theorem caller_covers {cfg : Config} {s t : Bus} {a : Act} (hcall : ∀ io, a ≠ .thread io)
    (ht : step cfg s a = some t) (hup : t.busUp = true) : Covered t ∨ t = s := by
  cases a with
  | txdata pkt priority =>
    simp only [step] at ht
    split_ifs at ht with hdown henq hfull
    · exact .inr (Option.some.inj ht).symm
    · exact .inr (Option.some.inj ht).symm
    · obtain rfl := Option.some.inj ht
      exact .inl (.inr (.inr (.inl (by simp))))
  | raise =>
    cases henq : s.enq with
    | linked prio =>
      simp only [step, henq] at ht
      obtain rfl := Option.some.inj ht
      exact .inl (.inr (.inr (.inl (by simp))))
    | free => simp [step, henq] at ht
    | raised => simp [step, henq] at ht
  | count =>
    simp only [step] at ht
    split_ifs at ht with henq
    obtain rfl := Option.some.inj ht
    exact .inl (.inr (.inl (Nat.succ_pos _)))
  | txmsg =>
    simp only [step] at ht
    split_ifs at ht
    obtain rfl := Option.some.inj ht
    exact .inl (.inr (.inr (.inr rfl)))
  | msglen len =>
    by_cases hsema : s.cmdTxsema = true
    · simp only [step, if_pos hsema] at ht
      obtain rfl := Option.some.inj ht
      left
      right
      left
      simp only at hup ⊢
      rw [if_pos hup]
      exact Nat.succ_pos _
    · simp [step, hsema] at ht
  | complete =>
    simp only [step] at ht
    split_ifs at ht
    obtain rfl := Option.some.inj ht
    exact .inl (.inl (Nat.succ_pos _))
  | busDown =>
    simp only [step] at ht
    obtain rfl := Option.some.inj ht
    cases hup
  | thread io => exact absurd rfl (hcall io)

/-- Once woken the thread leaves the signals and the callers alone. -/
structure SameCallers (s t : Bus) : Prop where
  bustxTrgg : t.bustxTrgg = s.bustxTrgg
  signals : t.signals = s.signals
  enq : t.enq = s.enq
  cmdTxsema : t.cmdTxsema = s.cmdTxsema
  busUp : t.busUp = s.busUp

theorem Covered.same {s t : Bus} (h : Covered s) (hst : SameCallers s t) : Covered t := by
  simp only [Covered, hst.bustxTrgg, hst.signals, hst.enq, hst.cmdTxsema]
  exact h

theorem send_same (s : Bus) (now : Bool) : SameCallers s (s.sdioSend now) := by
  simp only [Bus.sdioSend]
  split_ifs <;> exact ⟨rfl, rfl, rfl, rfl, rfl⟩

theorem deq_same (cfg : Config) (s : Bus) (now : Bool) : SameCallers s (s.sdioDeq cfg now) := by
  simp only [Bus.sdioDeq]
  split <;> exact ⟨rfl, rfl, rfl, rfl, rfl⟩

theorem flush_same (s : Bus) (now : Bool) : SameCallers s (s.sdioFlush now) := by
  simp only [Bus.sdioFlush]
  split_ifs <;> exact ⟨rfl, rfl, rfl, rfl, rfl⟩

theorem body_same (cfg : Config) (s : Bus) (io : Io) : SameCallers s (s.loopBody cfg io) := by
  simp only [Bus.loopBody]
  split_ifs <;> exact ⟨rfl, rfl, rfl, rfl, rfl⟩

theorem msgFlow_same (cfg : Config) (s : Bus) (io : Io) : SameCallers s (s.msgFlow cfg io) := by
  cases hchip : cfg.chipid <;> simp only [Bus.msgFlow, hchip] <;> exact ⟨rfl, rfl, rfl, rfl, rfl⟩

theorem thread_same {cfg : Config} {s t : Bus} {io : Io} (hpc : s.pc ≠ .waiting)
    (ht : s.threadStep cfg io = some t) : SameCallers s t := by
  cases h : s.pc <;> simp only [Bus.threadStep, h] at ht
  case waiting => exact absurd h hpc
  case msgFlow =>
    obtain rfl := Option.some.inj ht
    exact msgFlow_same cfg s io
  case msgSend len cnt =>
    split_ifs at ht
    · obtain rfl := Option.some.inj ht
      exact ⟨rfl, rfl, rfl, rfl, rfl⟩
    · obtain rfl := Option.some.inj ht
      exact ⟨rfl, rfl, rfl, rfl, rfl⟩
  case body =>
    obtain rfl := Option.some.inj ht
    exact body_same cfg s io
  case send now =>
    obtain rfl := Option.some.inj ht
    exact send_same s now
  case deq now =>
    split_ifs at ht
    obtain rfl := Option.some.inj ht
    exact deq_same cfg s now
  case flush now =>
    obtain rfl := Option.some.inj ht
    exact flush_same s now
  all_goals
    obtain rfl := Option.some.inj ht
    exact ⟨rfl, rfl, rfl, rfl, rfl⟩

/-! ## The thread between signals -/

theorem not_covered {s : Bus} (h : ¬ Covered s) : s.enq = .free ∧ s.cmdTxsema = false := by
  simp only [Covered, not_or, not_not, Bool.not_eq_true] at h
  exact ⟨h.2.2.1, h.2.2.2⟩

theorem idle_of_count {s : Bus} (hcounted : Counted s.txq s.enq s.txPktcnt) (hfree : s.enq = .free)
    (hcnt : ¬ 0 < s.txPktcnt) (hcmd : s.cmdTxstate = false) : Idle s := by
  have hsum := hcounted.counted
  have hnonneg := hcounted.nonneg
  rw [hfree] at hsum
  simp only [uncounted] at hsum
  exact ⟨hcmd, by omega⟩

theorem send_calm {s : Bus} {now : Bool} (hnow : now = false) (hcmd : s.cmdTxstate = false) :
    Calm (s.sdioSend now) := by
  subst now
  simp only [Bus.sdioSend]
  split_ifs <;> exact hcmd

theorem deq_calm {cfg : Config} {s : Bus} {now : Bool} (hnow : now = false)
    (hcmd : s.cmdTxstate = false) : Calm (s.sdioDeq cfg now) := by
  subst now
  simp only [Bus.sdioDeq]
  split <;> exact hcmd

theorem flush_calm {s : Bus} {now : Bool} (hnow : now = false) (hcmd : s.cmdTxstate = false) :
    Calm (s.sdioFlush now) := by
  subst now
  simp only [Bus.sdioFlush]
  split_ifs <;> exact hcmd

theorem body_calm {cfg : Config} {s : Bus} {io : Io} (hup : s.busUp = true)
    (hcmd : s.cmdTxstate = false) : Calm (s.loopBody cfg io) := by
  by_cases hthresh : s.fwAvailBufcnt ≤ DATA_FLOW_CTRL_THRESH
  · rw [Bus.loopBody, if_neg (by simp [hup]), if_pos hthresh, if_neg (by simp [hcmd])]
    exact hcmd
  · rw [Bus.loopBody, if_neg (by simp [hup]), if_neg hthresh]
    simp only [Calm, hcmd]

/-- Where nobody is going to signal, the thread goes on to a place where that is right. -/
theorem thread_calm {cfg : Config} {s t : Bus} {io : Io} (hup : s.busUp = true)
    (hcounted : Counted s.txq s.enq s.txPktcnt) (hnot : ¬ Covered s) (hcalm : Calm s)
    (hrel : Relayed cfg s (.thread io)) (ht : s.threadStep cfg io = some t) : Calm t := by
  have hfree := (not_covered hnot).1
  cases h : s.pc <;> simp only [Calm, h] at hcalm <;> simp only [Relayed, RelayedAt, h] at hrel <;>
    simp only [Bus.threadStep, h] at ht
  case waiting =>
    split_ifs at ht
    obtain rfl := Option.some.inj ht
    trivial
  case woken =>
    obtain rfl := Option.some.inj ht
    by_cases hwork : s.busUp = true ∧ (0 < s.txPktcnt ∨ s.cmdTxstate = true)
    · simp only [Calm, if_pos hwork]
    · simp only [Calm, if_neg hwork]
      simp only [hup, true_and, not_or, Bool.not_eq_true] at hwork
      exact idle_of_count hcounted hfree hwork.1 hwork.2
  case start =>
    obtain rfl := Option.some.inj ht
    simp only [Calm, if_pos hup]
  case cmdTest =>
    obtain rfl := Option.some.inj ht
    by_cases hcmd : s.cmdTxstate = true
    · simp only [Calm, if_pos hcmd]
    · simp only [Calm, if_neg hcmd]
      simpa using hcmd
  case cmdCtl =>
    obtain rfl := Option.some.inj ht
    by_cases hrefused : Bus.refused io = true
    · simp only [Calm, if_pos hrefused]
      exact (hrel hrefused).resolve_right hnot
    · simp only [Calm, if_neg hrefused]
  case msgFlow =>
    obtain rfl := Option.some.inj ht
    cases hchip : cfg.chipid <;> simp only [Bus.msgFlow, hchip, Calm]
  case msgSend len cnt =>
    rw [if_neg (by rw [(not_covered hnot).2]; exact Bool.false_ne_true),
      if_pos (hrel.resolve_right hnot)] at ht
    obtain rfl := Option.some.inj ht
    rfl
  case dataCtl =>
    obtain rfl := Option.some.inj ht
    by_cases hrefused : Bus.refused io = true
    · simp only [Calm, if_pos hrefused]
      exact (hrel hrefused).resolve_right hnot
    · simp only [Calm, if_neg hrefused]
      exact hcalm
  case first =>
    obtain rfl := Option.some.inj ht
    exact hcalm
  case loop =>
    obtain rfl := Option.some.inj ht
    by_cases hempty : s.txq.isEmpty = true
    · have hcnt : ¬ 0 < s.txPktcnt := by
        intro hpos
        rw [not_isEmpty hcounted hpos] at hempty
        exact Bool.false_ne_true hempty
      simp only [Calm, if_pos hempty]
      exact idle_of_count hcounted hfree hcnt hcalm
    · simp only [Calm, if_neg hempty]
      exact hcalm
  case body =>
    obtain rfl := Option.some.inj ht
    exact body_calm hup hcalm
  case send now =>
    obtain rfl := Option.some.inj ht
    cases now with
    | false => exact send_calm rfl hcalm
    | true => exact hcalm.elim
  case deq now =>
    split_ifs at ht
    obtain rfl := Option.some.inj ht
    cases now with
    | false => exact deq_calm rfl hcalm
    | true => exact hcalm.elim
  case flush now =>
    obtain rfl := Option.some.inj ht
    cases now with
    | false => exact flush_calm rfl hcalm
    | true => exact hcalm.elim
  case returned =>
    obtain rfl := Option.some.inj ht
    exact hcalm

/-! ## Runs -/

structure Tended (cfg : Config) (s : Bus) : Prop where
  sound : Sound cfg s
  calm : s.busUp = true → Covered s ∨ Calm s

theorem step_tended {cfg : Config} {s t : Bus} {a : Act} (h : Tended cfg s)
    (hrel : Relayed cfg s a) (ht : step cfg s a = some t) : Tended cfg t := by
  refine ⟨step_sound h.sound ht, ?_⟩
  intro hup
  by_cases hcall : ∀ io, a ≠ .thread io
  · rcases caller_covers hcall ht hup with hcovered | hsame
    · exact .inl hcovered
    · rw [hsame] at hup ⊢
      exact h.calm hup
  · push Not at hcall
    obtain ⟨io, rfl⟩ := hcall
    by_cases hwait : s.pc = .waiting
    · simp only [step, Bus.threadStep, hwait] at ht
      split_ifs at ht
      obtain rfl := Option.some.inj ht
      exact .inr trivial
    · have hsame := thread_same hwait ht
      rw [hsame.busUp] at hup
      by_cases hcovered : Covered s
      · exact .inl (hcovered.same hsame)
      · have hcalm := (h.calm hup).resolve_left hcovered
        exact .inr (thread_calm hup h.sound.counted hcovered hcalm hrel ht)

theorem init_tended (cfg : Config) : Tended cfg init :=
  ⟨init_sound cfg, fun _ => .inr ⟨rfl, by decide⟩⟩

/-- A packet and a command, both with credits. -/
def workRun : List Act :=
  [.txdata (samplePkt [5]) 0, .raise, .count, .txmsg, .msglen 24, .complete, .complete]++
    List.replicate 15 (.thread { creditIo 10 with msgRegs := fun _ _ => some 10 })

/-- A command that the thread finds without credits. -/
def refusedRun : List Act :=
  [.txmsg, .msglen 24, .complete]++List.replicate 10 (.thread (creditIo 0))

end AIC.BusTxWork
