import Aic8800.Lib.GuardedRun
import Aic8800.PowerMachine

/-!
# Is the device awake when its state says so?

The state of the device follows the sleep register: it is active when the chip
has acknowledged the last wake-up request. Three things break this. A wake-up
that gives up is recorded like one that succeeds, a sleep request on a bus that
went down is not recorded, and nothing keeps the device from going to sleep
between the test of the transmit thread and its transfers.
-/

set_option autoImplicit false

namespace AIC.PowerState
open Lib.GuardedRun AIC.PowerMachine
open AIC.BusTxMachine hiding init step Act

/-- From its test of the power state on, until it gives `txctl_sema` back. -/
def checked : Pc → Bool
  | .msgFlow | .msgSend _ _ | .first | .loop | .body | .send _ | .deq _ | .flush _ => true
  | _ => false

/-- The thread holds `pwrctl_wakeup_sema`. -/
def critical : Stctl → Bool
  | .out | .entry _ | .down _ => false
  | _ => true

/-- The state is active only when the chip is awake, and transfers are made in the active state. -/
structure Honest (s : Sdio) : Prop where
  state : s.state = .active → s.acked = true
  sent : ∀ p ∈ s.sent, p = .active

/-- The same, but for a thread that stands between its write of the sleep request and the
assignment behind it. -/
structure Settled (s : Sdio) : Prop where
  state : (∀ th, s.stctl th ≠ .sleepEnd) → s.state = .active → s.acked = true
  sent : ∀ p ∈ s.sent, p = .active

/-- A wake-up does not give up, and no sleep request is written. -/
def WakefulAt : Stctl → Prop
  | .wakeEnd n => n ≠ 0
  | .sleepDown | .sleepWrite => False
  | _ => True

def Wakeful (s : Sdio) : Act → Prop
  | .thread th _ _ => WakefulAt (s.stctl th)
  | _ => True

/-- A wake-up does not give up, no sleep request is written on a bus that went down, and none is
completed while the transmit thread is behind its test. -/
def CarefulAt (s : Sdio) : Stctl → Prop
  | .wakeEnd n => n ≠ 0
  | .sleepDown => False
  | .sleepEnd => checked s.bus.pc = false
  | _ => True

def Careful (s : Sdio) : Act → Prop
  | .thread th _ _ => CarefulAt s (s.stctl th)
  | _ => True

instance (pc : Stctl) : Decidable (WakefulAt pc) := by
  cases pc <;> dsimp only [WakefulAt] <;> infer_instance

instance (s : Sdio) (a : Act) : Decidable (Wakeful s a) := by
  cases a <;> dsimp only [Wakeful] <;> infer_instance

instance (s : Sdio) (pc : Stctl) : Decidable (CarefulAt s pc) := by
  cases pc <;> dsimp only [CarefulAt] <;> infer_instance

instance (s : Sdio) (a : Act) : Decidable (Careful s a) := by
  cases a <;> dsimp only [Careful] <;> infer_instance

/-! ## The transmit thread -/

theorem sends_checked {cfg : Config} {bus : Bus} (h : sends cfg bus = true) :
    checked bus.pc = true := by
  unfold sends flushes at h
  cases hpc : bus.pc <;> simp [hpc] at h <;> rfl

/-- The thread comes behind its test with the device active. -/
theorem checked_step {cfg : Config} {bus bus' : Bus} {io : Io}
    (h : bus.threadStep cfg io = some bus') (hpc : checked bus'.pc = true) :
    checked bus.pc = true ∨ io.active = true := by
  cases hold : bus.pc <;> simp only [Bus.threadStep, hold] at h
  case cmdCtl | dataCtl =>
    obtain rfl := Option.some.inj h
    right
    by_contra hasleep
    have href : Bus.refused io = true := by
      simp [Bus.refused, Bool.eq_false_of_not_eq_true hasleep]
    rw [if_pos href] at hpc
    cases hpc
  case msgFlow | msgSend | first | loop | body | send | deq | flush => exact .inl rfl
  case waiting =>
    split at h
    · obtain rfl := Option.some.inj h
      cases hpc
    · cases h
  case woken | start | cmdTest =>
    obtain rfl := Option.some.inj h
    dsimp only at hpc
    split at hpc <;> cases hpc
  case returned =>
    obtain rfl := Option.some.inj h
    cases hpc

theorem sdioSend_transfers {bus : Bus} {now : Bool} (hpc : bus.pc = .send now) :
    (bus.sdioSend now).transfers = if flushes bus then
      bus.transfers++[TxAggregate.linkTail bus.aggr.bytes] else bus.transfers := by
  unfold Bus.sdioSend flushes
  rw [hpc]
  split
  · rename_i hbad
    exact (if_neg fun h => (of_decide_eq_true h).1 hbad).symm
  · rename_i hgood
    split
    · rename_i hroom
      split
      · rename_i hsome
        exact (if_pos (decide_eq_true ⟨hgood, hroom, hsome⟩)).symm
      · rename_i hnone
        exact (if_neg fun h => hnone (of_decide_eq_true h).2.2).symm
    · rename_i hroom
      exact (if_neg fun h => hroom (of_decide_eq_true h).2.1).symm

theorem sdioFlush_transfers {bus : Bus} {now : Bool} (hpc : bus.pc = .flush now) :
    (bus.sdioFlush now).transfers = if flushes bus then
      bus.transfers++[TxAggregate.linkTail bus.aggr.bytes] else bus.transfers := by
  unfold Bus.sdioFlush flushes
  rw [hpc]
  split
  · rename_i hfull
    exact (if_pos (decide_eq_true hfull)).symm
  · rename_i hmore
    exact (if_neg fun h => hmore (of_decide_eq_true h)).symm

theorem quiet_transfers {cfg : Config} {bus bus' : Bus} {io : Io}
    (hsend : ∀ now, bus.pc ≠ .send now) (hflush : ∀ now, bus.pc ≠ .flush now)
    (h : bus.threadStep cfg io = some bus') : bus'.transfers = bus.transfers := by
  cases hold : bus.pc <;> simp only [Bus.threadStep, hold] at h
  case send now => exact absurd hold (hsend now)
  case flush now => exact absurd hold (hflush now)
  case msgFlow =>
    obtain rfl := Option.some.inj h
    unfold Bus.msgFlow
    split <;> rfl
  case body =>
    obtain rfl := Option.some.inj h
    unfold Bus.loopBody
    split_ifs <;> rfl
  case deq now =>
    split at h
    · obtain rfl := Option.some.inj h
      unfold Bus.sdioDeq
      split <;> rfl
    · cases h
  case waiting =>
    split at h
    · obtain rfl := Option.some.inj h
      rfl
    · cases h
  case msgSend len cnt =>
    split_ifs at h
    all_goals
      obtain rfl := Option.some.inj h
      rfl
  all_goals
    obtain rfl := Option.some.inj h
    rfl

/-- A frame is handed over exactly where `flushes` says so. -/
theorem transfers_step {cfg : Config} {bus bus' : Bus} {io : Io}
    (h : bus.threadStep cfg io = some bus') :
    bus'.transfers = if flushes bus then
      bus.transfers++[TxAggregate.linkTail bus.aggr.bytes] else bus.transfers := by
  by_cases hsend : ∃ now, bus.pc = .send now
  · obtain ⟨now, hpc⟩ := hsend
    simp only [Bus.threadStep, hpc] at h
    exact Option.some.inj h ▸ sdioSend_transfers hpc
  by_cases hflush : ∃ now, bus.pc = .flush now
  · obtain ⟨now, hpc⟩ := hflush
    simp only [Bus.threadStep, hpc] at h
    exact Option.some.inj h ▸ sdioFlush_transfers hpc
  have hno : flushes bus = false := by
    unfold flushes
    split
    · rename_i now hpc
      exact absurd ⟨now, hpc⟩ hsend
    · rename_i now hpc
      exact absurd ⟨now, hpc⟩ hflush
    · rfl
  rw [hno]
  exact quiet_transfers (not_exists.mp hsend) (not_exists.mp hflush) h

theorem caller_pc {cfg : Config} {bus bus' : Bus} {a : BusTxMachine.Act}
    (hcall : fromCaller a = true) (h : BusTxMachine.step cfg bus a = some bus') :
    bus'.pc = bus.pc := by
  cases a with
  | txdata pkt priority =>
    simp only [BusTxMachine.step] at h
    split_ifs at h
    all_goals
      obtain rfl := Option.some.inj h
      rfl
  | raise =>
    simp only [BusTxMachine.step] at h
    split at h
    · obtain rfl := Option.some.inj h
      rfl
    · cases h
  | count | msglen | complete =>
    simp only [BusTxMachine.step] at h
    split at h
    · obtain rfl := Option.some.inj h
      rfl
    · cases h
  | txmsg =>
    simp only [BusTxMachine.step] at h
    split at h
    · cases h
    · obtain rfl := Option.some.inj h
      rfl
  | busDown =>
    obtain rfl := Option.some.inj h
    rfl
  | thread io => cases hcall

/-! ## The semaphore and the state -/

/-- What the thread that holds the semaphore knows, where it stands. -/
def Agrees (s : Sdio) : Stctl → Prop
  | .wakeWrite _ => s.state = .sleep
  | .wakeRead _ _ => s.state = .sleep ∧ s.acked = false
  | .wakeEnd n => s.state = .sleep ∧ (s.acked = true ↔ n ≠ 0)
  | .sleepAllow | .sleepTest | .sleepWrite | .sleepDown => s.state = .active ∧ s.acked = true
  | .sleepEnd => s.state = .active
  | _ => s.state = .active → s.acked = true

structure Sound (s : Sdio) : Prop where
  owner : ∀ th, critical (s.stctl th) = true ↔ s.pwrctlWakeupSema = some th
  free : s.pwrctlWakeupSema = none → s.state = .active → s.acked = true
  held : ∀ th, s.pwrctlWakeupSema = some th → Agrees s (s.stctl th)
  tx : checked s.bus.pc = true → s.state = .active
  sent : ∀ p ∈ s.sent, p = .active

theorem init_sound : Sound init := by
  refine ⟨fun th => ⟨?_, ?_⟩, ?_, ?_, ?_, ?_⟩
  · intro hno
    cases hno
  · intro hno
    cases hno
  · intro _ hno
    cases hno
  · intro th hno
    cases hno
  · intro hno
    cases hno
  · intro p hno
    cases hno

variable {s t : Sdio} {th : Thread} {pc : Stctl}

theorem Agrees.congr (h : Agrees s pc) (hstate : t.state = s.state) (hacked : t.acked = s.acked) :
    Agrees t pc := by
  cases pc <;> simp only [Agrees, hstate, hacked] at h ⊢ <;> exact h

/-- Neither the power state nor a thread in `aicwf_sdio_pwr_stctl` is touched. -/
theorem Sound.congr (h : Sound s) (hstctl : t.stctl = s.stctl)
    (hsema : t.pwrctlWakeupSema = s.pwrctlWakeupSema) (hstate : t.state = s.state)
    (hacked : t.acked = s.acked) (htx : checked t.bus.pc = true → s.state = .active)
    (hsent : ∀ p ∈ t.sent, p = .active) : Sound t := by
  refine ⟨?_, ?_, ?_, ?_, hsent⟩
  · rw [hstctl, hsema]
    exact h.owner
  · rw [hsema, hstate, hacked]
    exact h.free
  · intro th hth
    rw [hstctl]
    rw [hsema] at hth
    exact (h.held th hth).congr hstate hacked
  · rw [hstate]
    exact htx

/-- A thread moves outside of the critical section. -/
theorem Sound.outside {old : Stctl} (h : Sound s) (hold : s.stctl th = old)
    (hout : critical old = false) (hpc : critical pc = false) : Sound (s.goto th pc) := by
  have hno : s.pwrctlWakeupSema ≠ some th := by
    intro hth
    have hin := (h.owner th).mpr hth
    rw [hold, hout] at hin
    cases hin
  refine ⟨fun x => ?_, h.free, fun x hx => ?_, h.tx, h.sent⟩
  · by_cases hx : x = th
    · subst hx
      show critical (Function.update s.stctl x pc x) = true ↔ _
      rw [Function.update_self, hpc]
      exact ⟨fun hf => (Bool.false_ne_true hf).elim, fun hs => (hno hs).elim⟩
    · show critical (Function.update s.stctl th pc x) = true ↔ _
      rw [Function.update_of_ne hx]
      exact h.owner x
  · have hne : x ≠ th := by
      rintro rfl
      exact hno hx
    show Agrees s (Function.update s.stctl th pc x)
    rw [Function.update_of_ne hne]
    exact h.held x hx

/-- The thread that holds the semaphore moves inside of the critical section. -/
theorem Sound.inside {old : Stctl} (h : Sound s) (hold : s.stctl th = old)
    (hin : critical old = true) (hstctl : t.stctl = Function.update s.stctl th pc)
    (hpc : critical pc = true) (hsema : t.pwrctlWakeupSema = s.pwrctlWakeupSema) (hagree : Agrees t pc)
    (hbus : t.bus = s.bus) (hsent : t.sent = s.sent)
    (htx : checked s.bus.pc = true → t.state = .active) : Sound t := by
  have hown := (h.owner th).mp (hold ▸ hin)
  refine ⟨fun x => ?_, ?_, fun x hx => ?_, ?_, ?_⟩
  · rw [hstctl, hsema, hown]
    by_cases hx : x = th
    · subst hx
      rw [Function.update_self, hpc]
      exact ⟨fun _ => rfl, fun _ => rfl⟩
    · rw [Function.update_of_ne hx, h.owner x, hown]
  · rw [hsema, hown]
    intro hno
    cases hno
  · rw [hsema, hown] at hx
    obtain rfl := Option.some.inj hx
    rw [hstctl, Function.update_self]
    exact hagree
  · rw [hbus]
    exact htx
  · rw [hsent]
    exact h.sent

theorem Sound.take (h : Sound s) (hfree : s.pwrctlWakeupSema = none) (target : PowerMachine.PowerState) :
    Sound ({ s with pwrctlWakeupSema := some th }.goto th (.compare target)) := by
  refine ⟨fun x => ?_, fun hno => (Option.some_ne_none th hno).elim, fun x hx => ?_, h.tx, h.sent⟩
  · show critical (Function.update s.stctl th _ x) = true ↔ some th = some x
    by_cases hx : x = th
    · subst hx
      rw [Function.update_self]
      exact ⟨fun _ => rfl, fun _ => rfl⟩
    · rw [Function.update_of_ne hx, h.owner x, hfree]
      exact ⟨fun hno => (Option.some_ne_none x hno.symm).elim,
        fun hno => (hx (Option.some.inj hno).symm).elim⟩
  · obtain rfl := Option.some.inj hx
    show Agrees _ (Function.update s.stctl th _ th)
    rw [Function.update_self]
    exact h.free hfree

theorem Sound.release (h : Sound s) (hup : s.stctl th = .up) :
    Sound ({ s with pwrctlWakeupSema := none }.goto th .out) := by
  have hown : s.pwrctlWakeupSema = some th := (h.owner th).mp (by rw [hup]; rfl)
  have hagree := h.held th hown
  rw [hup] at hagree
  refine ⟨fun x => ?_, fun _ => hagree, fun x hx => (Option.some_ne_none x hx.symm).elim, h.tx, h.sent⟩
  show critical (Function.update s.stctl th _ x) = true ↔ none = some x
  by_cases hx : x = th
  · subst hx
    rw [Function.update_self]
    exact ⟨fun hno => (Bool.false_ne_true hno).elim, fun hno => (Option.some_ne_none x hno.symm).elim⟩
  · rw [Function.update_of_ne hx, h.owner x, hown]
    exact ⟨fun heq => (hx (Option.some.inj heq).symm).elim,
      fun hno => (Option.some_ne_none x hno.symm).elim⟩

theorem agrees_wakeup (hstate : s.state = .sleep) (hacked : s.acked = false) (n : ℕ) :
    Agrees s (.wakeup n) ∧ critical (.wakeup n) = true := by
  cases n with
  | zero => exact ⟨⟨hstate, by simp [hacked]⟩, rfl⟩
  | succ n => exact ⟨hstate, rfl⟩

theorem agrees_reread (hstate : s.state = .sleep) (hacked : s.acked = false) (n m : ℕ) :
    Agrees s (.reread n m) ∧ critical (.reread n m) = true := by
  cases m with
  | zero => exact agrees_wakeup hstate hacked n
  | succ m => exact ⟨⟨hstate, hacked⟩, rfl⟩

theorem stctl_sound {reg : Reg} (hc : CarefulAt s (s.stctl th)) (h : Sound s)
    (hs : s.stctlStep th reg = some t) : Sound t := by
  have hagree : critical (s.stctl th) = true → Agrees s (s.stctl th) :=
    fun hcrit => h.held th ((h.owner th).mp hcrit)
  cases hpc : s.stctl th <;> simp only [Sdio.stctlStep, hpc] at hs <;> rw [hpc] at hc hagree
  case out => cases hs
  case entry target =>
    obtain rfl := Option.some.inj hs
    apply h.outside hpc rfl
    split <;> rfl
  case down target =>
    split at hs
    · rename_i hfree
      exact Option.some.inj hs ▸ h.take hfree target
    · cases hs
  case up => exact Option.some.inj hs ▸ h.release hpc
  case wakeEnd n =>
    obtain rfl := Option.some.inj hs
    obtain ⟨-, hacked⟩ := hagree rfl
    exact h.inside hpc rfl rfl rfl rfl (fun _ => hacked.mpr hc) rfl rfl
      fun _ => rfl
  case compare target =>
    have hknown : s.state = .active → s.acked = true := hagree rfl
    split at hs
    · obtain rfl := Option.some.inj hs
      split
      · exact h.inside hpc rfl rfl rfl rfl hknown rfl rfl h.tx
      · exact h.inside hpc rfl rfl rfl rfl hknown rfl rfl h.tx
    · rename_i hother
      cases target with
      | active =>
        obtain rfl := Option.some.inj hs
        have hstate : s.state = .sleep := by
          cases hst : s.state with
          | sleep => rfl
          | active => exact absurd hst hother
        rw [if_pos hstate]
        exact h.inside hpc rfl rfl rfl rfl hstate rfl rfl h.tx
      | sleep =>
        obtain rfl := Option.some.inj hs
        have hstate : s.state = .active := by
          cases hst : s.state with
          | sleep => exact absurd hst hother
          | active => rfl
        exact h.inside hpc rfl rfl rfl rfl
          ⟨hstate, hknown hstate⟩ rfl rfl h.tx
  case wakeWrite n =>
    have hstate : s.state = .sleep := hagree rfl
    obtain rfl := Option.some.inj hs
    split
    · exact h.inside hpc rfl rfl rfl rfl ⟨hstate, rfl⟩ rfl rfl h.tx
    · obtain ⟨hwake, hcrit⟩ := agrees_wakeup (s := { s with acked := false }) hstate rfl n
      have hwake' : Agrees ({ s with acked := false }.goto th (.wakeup n)) (.wakeup n) :=
        hwake.congr rfl rfl
      exact h.inside hpc rfl rfl hcrit rfl hwake' rfl rfl h.tx
  case wakeRead n m =>
    obtain ⟨hstate, hacked⟩ := hagree rfl
    obtain rfl := Option.some.inj hs
    split
    · exact h.inside hpc rfl rfl rfl rfl
        ⟨hstate, by simp [Sdio.goto]⟩ rfl rfl h.tx
    · obtain ⟨hread, hcrit⟩ := agrees_reread hstate hacked n m
      have hread' : Agrees (s.goto th (.reread n m)) (.reread n m) := hread.congr rfl rfl
      exact h.inside hpc rfl rfl hcrit rfl hread' rfl rfl h.tx
  case sleepAllow =>
    obtain rfl := Option.some.inj hs
    split
    · exact h.inside hpc rfl rfl rfl rfl (hagree rfl) rfl rfl h.tx
    · exact h.inside hpc rfl rfl rfl rfl (hagree rfl) rfl rfl h.tx
  case sleepTest =>
    obtain ⟨hstate, hacked⟩ := hagree rfl
    obtain rfl := Option.some.inj hs
    split
    · exact h.inside hpc rfl rfl rfl rfl ⟨hstate, hacked⟩ rfl rfl h.tx
    · exact h.inside hpc rfl rfl rfl rfl (fun _ => hacked) rfl rfl h.tx
  case sleepDown => exact hc.elim
  case sleepWrite =>
    obtain ⟨hstate, -⟩ := hagree rfl
    obtain rfl := Option.some.inj hs
    exact h.inside hpc rfl rfl rfl rfl hstate rfl rfl h.tx
  case sleepEnd =>
    obtain rfl := Option.some.inj hs
    refine h.inside hpc rfl rfl rfl rfl (fun hno => ?_) rfl rfl fun hno => ?_
    · cases hno
    · rw [hc] at hno
      cases hno

theorem tx_sound {cfg : Config} {io : Io} (h : Sound s) (hout : s.stctl .tx = .out)
    (hs : s.txStep cfg io = some t) : Sound t := by
  obtain ⟨bus, hbus, rfl⟩ := Option.map_eq_some_iff.mp hs
  have hsent : ∀ p ∈ if sends cfg s.bus then s.sent++[s.state] else s.sent, p = .active := by
    intro p hp
    split at hp
    · rename_i hsend
      rcases List.mem_append.mp hp with hold | hnew
      · exact h.sent p hold
      · rw [List.mem_singleton.mp hnew]
        exact h.tx (sends_checked hsend)
    · exact h.sent p hp
  have hmoved : Sound { s with
      bus := bus
      sent := if sends cfg s.bus then s.sent++[s.state] else s.sent } := by
    refine h.congr rfl rfl rfl rfl (fun hchecked => ?_) hsent
    rcases checked_step hbus hchecked with hold | hactive
    · exact h.tx hold
    · exact of_decide_eq_true hactive
  by_cases henter : s.bus.pc = .start ∧ bus.pc = .cmdTest
  · rw [if_pos henter]
    have hentry : critical (.entry .active) = false := rfl
    exact hmoved.outside hout rfl hentry
  · rw [if_neg henter]
    exact hmoved

theorem pwrctl_sound (h : Sound s) (hout : s.stctl .pwrctl = .out) (hs : s.pwrctlStep = some t) :
    Sound t := by
  cases hpwr : s.pwr <;> simp only [Sdio.pwrctlStep, hpwr] at hs
  case waiting =>
    split at hs
    · obtain rfl := Option.some.inj hs
      exact h.congr rfl rfl rfl rfl h.tx h.sent
    · cases hs
  case rxCnt =>
    split at hs
    · obtain rfl := Option.some.inj hs
      have hmoved : Sound { s with pwr := .waiting } := h.congr rfl rfl rfl rfl h.tx h.sent
      exact hmoved.outside hout rfl rfl
    · obtain rfl := Option.some.inj hs
      exact h.congr rfl rfl rfl rfl h.tx h.sent
  all_goals
    obtain rfl := Option.some.inj hs
    exact h.congr rfl rfl rfl rfl h.tx h.sent

theorem step_sound {cfg : Config} {a : PowerMachine.Act} (hc : Careful s a)
    (hs : PowerMachine.step cfg s a = some t) (h : Sound s) : Sound t := by
  cases a with
  | thread th io reg =>
    by_cases hout : s.stctl th = .out
    · simp only [PowerMachine.step, Sdio.threadStep, if_pos hout] at hs
      cases th with
      | tx => exact tx_sound h hout hs
      | rx => exact Option.some.inj hs ▸ h.outside hout rfl rfl
      | pwrctl => exact pwrctl_sound h hout hs
    · simp only [PowerMachine.step, Sdio.threadStep, if_neg hout] at hs
      exact stctl_sound hc h hs
  | env a =>
    simp only [PowerMachine.step] at hs
    split at hs
    · rename_i hcall
      obtain ⟨bus, hbus, rfl⟩ := Option.map_eq_some_iff.mp hs
      have hpc := caller_pc hcall hbus
      refine h.congr rfl rfl rfl rfl (fun hchecked => h.tx ?_) h.sent
      rw [← hpc]
      exact hchecked
    · cases hs
  | timer =>
    simp only [PowerMachine.step] at hs
    split at hs
    · obtain rfl := Option.some.inj hs
      exact h.congr rfl rfl rfl rfl h.tx h.sent
    · cases hs
  | rxCnt n => exact Option.some.inj hs ▸ h.congr rfl rfl rfl rfl h.tx h.sent
  | flags scanning isP2pAlive isP2pConnected =>
    exact Option.some.inj hs ▸ h.congr rfl rfl rfl rfl h.tx h.sent

/-! ## Runs -/

theorem Sound.settled (h : Sound s) : Settled s := by
  refine ⟨fun hnone hactive => ?_, h.sent⟩
  cases hsema : s.pwrctlWakeupSema with
  | none => exact h.free hsema hactive
  | some th =>
    have hagree := h.held th hsema
    have hlate := hnone th
    cases hpc : s.stctl th <;> simp only [hpc, Agrees, hactive, reduceCtorEq, false_and] at hagree
    case sleepEnd => exact absurd hpc hlate
    case out | entry | down | compare | up => exact hagree trivial
    case sleepAllow | sleepTest | sleepDown | sleepWrite => exact hagree.2

/-- No thread stands behind its write of the sleep request. -/
def Awake (s : Sdio) : Prop := ∀ th, s.stctl th ≠ .sleepEnd

theorem Settled.honest (h : Settled s) (hawake : Awake s) : Honest s := ⟨h.state hawake, h.sent⟩

theorem Wakeful.careful {a : PowerMachine.Act} (h : Wakeful s a) (hawake : Awake s) :
    Careful s a := by
  cases a with
  | thread th io reg =>
    have hlate := hawake th
    simp only [Wakeful, Careful] at h ⊢
    cases hpc : s.stctl th <;> rw [hpc] at h <;> simp only [CarefulAt]
    case wakeEnd n => exact h
    case sleepDown => exact h
    case sleepEnd => exact absurd hpc hlate
  | env a => trivial
  | timer => trivial
  | rxCnt n => trivial
  | flags a b c => trivial

theorem Awake.goto (h : Awake s) (hstctl : t.stctl = Function.update s.stctl th pc)
    (hpc : pc ≠ .sleepEnd) : Awake t := by
  intro x
  rw [hstctl]
  by_cases hx : x = th
  · subst hx
    rwa [Function.update_self]
  · rw [Function.update_of_ne hx]
    exact h x

theorem Awake.congr (h : Awake s) (hstctl : t.stctl = s.stctl) : Awake t := by
  intro x
  rw [hstctl]
  exact h x

theorem wakeup_ne (n : ℕ) : Stctl.wakeup n ≠ .sleepEnd := by
  cases n <;> exact nofun

theorem reread_ne (n m : ℕ) : Stctl.reread n m ≠ .sleepEnd := by
  cases m with
  | zero => exact wakeup_ne n
  | succ m => exact nofun

/-- Only the write of a sleep request comes to the assignment of the sleep state. -/
theorem stctl_awake {reg : Reg} (hc : WakefulAt (s.stctl th)) (h : Awake s)
    (hs : s.stctlStep th reg = some t) : Awake t := by
  cases hpc : s.stctl th <;> simp only [Sdio.stctlStep, hpc] at hs <;> rw [hpc] at hc
  case out => cases hs
  case down target =>
    split at hs
    · exact Option.some.inj hs ▸ h.goto rfl nofun
    · cases hs
  case compare target =>
    split at hs
    · obtain rfl := Option.some.inj hs
      split <;> exact h.goto rfl nofun
    · cases target with
      | active =>
        obtain rfl := Option.some.inj hs
        split
        · exact h.goto rfl (wakeup_ne 20)
        · exact h.goto rfl nofun
      | sleep => exact Option.some.inj hs ▸ h.goto rfl nofun
  case wakeWrite n =>
    obtain rfl := Option.some.inj hs
    split
    · exact h.goto rfl nofun
    · exact h.goto rfl (wakeup_ne n)
  case wakeRead n m =>
    obtain rfl := Option.some.inj hs
    split
    · exact h.goto rfl nofun
    · exact h.goto rfl (reread_ne n m)
  case entry | sleepAllow | sleepTest =>
    obtain rfl := Option.some.inj hs
    split <;> exact h.goto rfl nofun
  case sleepDown | sleepWrite => exact hc.elim
  case sleepEnd | wakeEnd | up => exact Option.some.inj hs ▸ h.goto rfl nofun

theorem tx_awake {cfg : Config} {io : Io} (h : Awake s) (hs : s.txStep cfg io = some t) :
    Awake t := by
  obtain ⟨bus, -, rfl⟩ := Option.map_eq_some_iff.mp hs
  by_cases henter : s.bus.pc = .start ∧ bus.pc = .cmdTest
  · exact h.goto (if_pos henter) nofun
  · exact h.congr (if_neg henter)

theorem pwrctl_awake (h : Awake s) (hs : s.pwrctlStep = some t) : Awake t := by
  cases hpwr : s.pwr <;> simp only [Sdio.pwrctlStep, hpwr] at hs
  case waiting =>
    split at hs
    · exact Option.some.inj hs ▸ h.congr rfl
    · cases hs
  case rxCnt =>
    obtain rfl := Option.some.inj hs
    split
    · exact h.goto rfl nofun
    · exact h.congr rfl
  all_goals exact Option.some.inj hs ▸ h.congr rfl

theorem step_awake {cfg : Config} {a : PowerMachine.Act} (hc : Wakeful s a)
    (hs : PowerMachine.step cfg s a = some t) (h : Awake s) : Awake t := by
  cases a with
  | thread th io reg =>
    by_cases hout : s.stctl th = .out
    · simp only [PowerMachine.step, Sdio.threadStep, if_pos hout] at hs
      cases th with
      | tx => exact tx_awake h hs
      | rx => exact Option.some.inj hs ▸ h.goto rfl nofun
      | pwrctl => exact pwrctl_awake h hs
    · simp only [PowerMachine.step, Sdio.threadStep, if_neg hout] at hs
      exact stctl_awake hc h hs
  | env a =>
    simp only [PowerMachine.step] at hs
    split at hs
    · obtain ⟨bus, -, rfl⟩ := Option.map_eq_some_iff.mp hs
      exact h.congr rfl
    · cases hs
  | timer =>
    simp only [PowerMachine.step] at hs
    split at hs
    · exact Option.some.inj hs ▸ h.congr rfl
    · cases hs
  | rxCnt n => exact Option.some.inj hs ▸ h.congr rfl
  | flags scanning isP2pAlive isP2pConnected => exact Option.some.inj hs ▸ h.congr rfl

theorem step_stctl {cfg : Config} {io : Io} {reg : Reg} (hpc : s.stctl th ≠ .out)
    (hs : s.stctlStep th reg = some t) :
    t ∈ PowerMachine.step cfg s (.thread th io reg) := by
  simp only [PowerMachine.step, Sdio.threadStep, if_neg hpc]
  exact hs

/-- A wake-up that gives up, and every sleep request that is written, leaves a state that is
active for a chip that is not awake. -/
theorem wakeful_of_honest {cfg : Config} {a : PowerMachine.Act} (h : Sound s)
    (hhonest : ∀ t ∈ PowerMachine.step cfg s a, Honest t) : Wakeful s a := by
  cases a with
  | thread th io reg =>
    have hagree : critical (s.stctl th) = true → Agrees s (s.stctl th) :=
      fun hcrit => h.held th ((h.owner th).mp hcrit)
    simp only [Wakeful]
    cases hpc : s.stctl th <;> simp only [WakefulAt] <;> rw [hpc] at hagree
    case wakeEnd n =>
      have hs : s.stctlStep th reg = some ({ s with state := .active }.armTimer.goto th .up) := by
        simp only [Sdio.stctlStep, hpc]
      have hacked := (hhonest _ (step_stctl (by simp [hpc]) hs)).state rfl
      exact (hagree rfl).2.mp hacked
    case sleepDown =>
      have hs : s.stctlStep th reg = some ({ s with acked := false }.stopTimer.goto th .up) := by
        simp only [Sdio.stctlStep, hpc]
      have hacked := (hhonest _ (step_stctl (by simp [hpc]) hs)).state (hagree rfl).1
      cases hacked
    case sleepWrite =>
      have hs : s.stctlStep th reg = some ({ s with acked := false }.goto th .sleepEnd) := by
        simp only [Sdio.stctlStep, hpc]
      have hacked := (hhonest _ (step_stctl (by simp [hpc]) hs)).state (hagree rfl).1
      cases hacked
  | env a => trivial
  | timer => trivial
  | rxCnt n => trivial
  | flags a b c => trivial

/-- At every single step the state is honest exactly as long as no wake-up gives up and no sleep
request is written. When a thread between that write and the assignment behind it is left aside,
it is enough that no wake-up gives up, that the bus does not go down in between, and that the
transmit thread is not behind its test when the device goes to sleep. -/
theorem run_honest (cfg : Config) (acts : List PowerMachine.Act) :
    (Throughout (PowerMachine.step cfg) Honest PowerMachine.init acts ↔
      Meets (PowerMachine.step cfg) Wakeful PowerMachine.init acts) ∧
    (Meets (PowerMachine.step cfg) Careful PowerMachine.init acts →
      Throughout (PowerMachine.step cfg) Settled PowerMachine.init acts) := by
  constructor
  · refine throughout_iff (J := fun s => Sound s ∧ Awake s) ?_ ?_ ?_ ⟨init_sound, ?_⟩ acts
    · rintro s a t hw hs ⟨hsound, hawake⟩
      exact ⟨step_sound (hw.careful hawake) hs hsound, step_awake hw hs hawake⟩
    · rintro s ⟨hsound, hawake⟩
      exact hsound.settled.honest hawake
    · rintro s a ⟨hsound, -⟩ hhonest
      exact wakeful_of_honest hsound hhonest
    · exact fun th => nofun
  · exact throughout_of_meets (fun _ _ _ hc hs h => step_sound hc hs h) (fun _ h => h.settled)
      init_sound

/-- A step of a thread, with what the registers answer. -/
def go (th : Thread) (reg : Reg) : PowerMachine.Act :=
  .thread th ⟨false, true, fun _ => none, fun _ _ => none⟩ reg

def answered : Reg := ⟨true, some 0x10⟩
def failed : Reg := ⟨false, none⟩

/-- The thread of the received frames wakes the device. -/
def wakeRun : List PowerMachine.Act := List.replicate 8 (go .rx answered)

/-- The timer runs off, and the power-control thread finds nothing to do. -/
def idleRun : List PowerMachine.Act := .timer::List.replicate 5 (go .pwrctl answered)

/-- A command comes, and the transmit thread goes on until it is about to send it. -/
def commandRun : List PowerMachine.Act :=
  [.env .txmsg, .env (.msglen 8), .env .complete]++List.replicate 10 (go .tx answered)

def sleepRun : List PowerMachine.Act := List.replicate 8 (go .pwrctl answered)

/-- The command is sent, and the device goes to sleep after it. -/
def orderlyRun : List PowerMachine.Act :=
  wakeRun++commandRun++[go .tx answered]++List.replicate 4 (go .tx answered)++idleRun++sleepRun

theorem run_honest_orderly :
    Throughout (PowerMachine.step ⟨.aic8800DC, 32⟩) Settled PowerMachine.init orderlyRun :=
  (run_honest ⟨.aic8800DC, 32⟩ orderlyRun).2 (by decide +kernel)

/-- Twenty wake-up requests fail. -/
def failedRun : List PowerMachine.Act := List.replicate 26 (go .rx failed)

/-- The power-control thread has found nothing to do when the command comes, and sends the device
to sleep when the transmit thread has tested the state. -/
def overtakenRun : List PowerMachine.Act :=
  wakeRun++idleRun++commandRun++sleepRun++[go .tx answered]

def gaveUp : Sdio :=
  (exec (PowerMachine.step ⟨.aic8800DC, 32⟩) PowerMachine.init failedRun).get (by decide +kernel)

def overtaken : Sdio :=
  (exec (PowerMachine.step ⟨.aic8800DC, 32⟩) PowerMachine.init overtakenRun).get
    (by decide +kernel)

theorem active_unacknowledged_sent_asleep :
    (∃ s, exec (PowerMachine.step ⟨.aic8800DC, 32⟩) PowerMachine.init failedRun = some s ∧
      s.state = .active ∧ s.acked = false ∧ s.pwrctlWakeupSema = none) ∧
    ∃ s, exec (PowerMachine.step ⟨.aic8800DC, 32⟩) PowerMachine.init overtakenRun = some s ∧
      s.sent = [.sleep] ∧ s.pwrctlWakeupSema = none := by
  constructor
  · exact ⟨gaveUp, (Option.some_get _).symm, by decide +kernel, by decide +kernel,
      by decide +kernel⟩
  · exact ⟨overtaken, (Option.some_get _).symm, by decide +kernel, by decide +kernel⟩

end AIC.PowerState
