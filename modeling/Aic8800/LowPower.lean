import Aic8800.Lib.GuardedRun
import Aic8800.Lib.RunningFrames
import Mathlib.Data.Int.Cast.Lemmas
import Mathlib.Data.Int.Order.Basic
import Mathlib.Tactic.Common

/-!
# The low power mode of Bluetooth

The protocol is started and stopped by writes to a file, and the work item puts the
serial port to sleep and wakes it up. Writes run at the same time as each other, as
the work item, the tasklet and the timer, and stand at one of their places between.
-/

set_option autoImplicit false

namespace AIC.LowPower
open Lib.RunningFrames

/-- A write to `lpm` or `btwrite`, by what it does next. -/
inductive Writer where
  | lpmOn | enabling | starting | counting | refused | entered | pulsed | requested | failed
  | leaving | stopping | freeing | disabling | outgoing | powering | allowing
deriving DecidableEq

/-- Where the work item stands: with the answer of `bluesleep_can_sleep`, or in the 20 ms of the
pulse that wakes Bluetooth again. -/
inductive WorkPlace where
  | answered (canSleep : Bool)
  | pulsing
deriving DecidableEq

/-- The variables of the driver. A line is true where it is asserted. `rxtimer` is bit 32 of `flags`,
the one that `test_bit(BT_RXTIMER, &flags)` is about. -/
structure Lpm where
  hasLpmEnabled : Bool
  uport : Bool
  openCount : ℤ
  proto : Bool
  asleep : Bool
  rxtimer : Bool
  txidle : Bool
  extWake : Bool
  hostWake : Bool
  timerArmed : Bool
  workPending : Bool
  working : Option WorkPlace
  taskPending : Bool
  irqRequested : Bool
  uartOn : Bool
  stayAwake : Bool
  writers : List Writer

section Steps

-- Whether the serial port has a driver
variable (port : Bool)

def hsuartPower (on : Bool) (s : Lpm) : Lpm := if s.uport then { s with uartOn := on } else s

def bluesleepCanSleep (s : Lpm) : Bool := !s.extWake && !s.hostWake && !s.rxtimer && s.uport

/-- `bluesleep_sleep_work` up to `bluesleep_can_sleep`. -/
def sleepWorkBegin (s : Lpm) : Option Lpm :=
  if s.workPending && s.working.isNone then
    let s := { s with workPending := false }
    if s.hasLpmEnabled then some { s with working := some (.answered (bluesleepCanSleep s)) }
    else some s
  else none

/-- The rest of `bluesleep_sleep_work`. There is no state behind the use of a port that was taken
away. -/
def sleepWorkEnd (txEmpty : Bool) (s : Lpm) : Option Lpm :=
  match s.working with
  | none => none
  | some (.answered true) =>
    let s := { s with working := none }
    if s.asleep then some s
    else if !s.uport then none
    else if txEmpty then
      some { hsuartPower false { s with asleep := true } with stayAwake := false }
    else some s
  | some (.answered false) =>
    let s := { s with working := none, timerArmed := true }
    if s.asleep then
      some (hsuartPower true { s with stayAwake := true, asleep := false, rxtimer := true })
    else if !s.extWake && !s.txidle then
      some { s with working := some .pulsing, extWake := true }
    else some s
  | some .pulsing => some { s with working := none, extWake := false }

/-- One piece of a write: the variables behind it, and what the write does next. -/
def writerStep (irqOk : Bool) (s : Lpm) : Writer → Lpm × List Writer
  -- `bluesleep_write_proc_lpm`
  | .lpmOn => (s, if s.hasLpmEnabled then [] else [.enabling])
  | .enabling => ({ s with hasLpmEnabled := true, uport := port }, [.starting])
  | .disabling => ({ s with hasLpmEnabled := false, uport := false }, [])
  -- `bluesleep_start`
  | .starting => (s, if s.proto then [] else [.counting])
  | .counting =>
    ({ s with openCount := s.openCount-1 }, if s.openCount-1 = 0 then [.entered] else [.refused])
  | .refused => ({ s with openCount := s.openCount+1 }, [])
  | .entered => ({ s with timerArmed := true, extWake := false }, [.pulsed])
  | .pulsed =>
    if irqOk && !s.irqRequested then
      ({ s with extWake := true, irqRequested := true }, [.requested])
    else ({ s with extWake := true }, [.failed])
  | .requested => ({ s with proto := true, stayAwake := true }, [])
  | .failed => ({ s with timerArmed := false }, [.leaving])
  | .leaving => ({ s with openCount := s.openCount+1 }, [])
  -- `bluesleep_stop`
  | .stopping =>
    if s.proto then
      let s := { s with extWake := true, timerArmed := false, proto := false }
      let s := if s.asleep then hsuartPower true { s with asleep := false } else s
      ({ s with openCount := s.openCount+1 }, [.freeing])
    else (s, [.disabling])
  | .freeing => ({ s with irqRequested := false, stayAwake := false }, [.disabling])
  -- `bluesleep_outgoing_data`
  | .outgoing =>
    if s.extWake then (s, [])
    else ({ s with stayAwake := true, extWake := true, asleep := false, txidle := false },
      [.powering])
  | .powering => (hsuartPower true s, [])
  -- `bluesleep_tx_allow_sleep`
  | .allowing => ({ s with extWake := false, txidle := true, workPending := true }, [])

/-- What a write to one of the files begins with. -/
def firstPlaces : List Writer := [.lpmOn, .stopping, .outgoing, .allowing]

inductive Act where
  | write (w : Writer)
  | go (w : Writer) (irqOk : Bool)
  | hostWake (level : Bool)
  | hostwakeTask
  | rxTimerExpire
  | workBegin
  | workEnd (txEmpty : Bool)
deriving DecidableEq

def step (s : Lpm) : Act → Option Lpm
  | .write w => if w ∈ firstPlaces then some { s with writers := w::s.writers } else none
  | .go w irqOk =>
    if w ∈ s.writers then
      -- An interrupt that was not requested is not freed.
      if w = .freeing && !s.irqRequested then none
      else
        let r := writerStep port irqOk s w
        some { r.1 with writers := goOn s.writers w r.2 }
    else none
  -- `bluesleep_hostwake_isr`, at both edges
  | .hostWake level =>
    some { s with hostWake := level
                  taskPending := s.taskPending || (s.irqRequested && level != s.hostWake) }
  | .hostwakeTask =>
    if s.taskPending then some { s with taskPending := false, workPending := true } else none
  -- `bluesleep_rx_timer_expire`
  | .rxTimerExpire =>
    if s.timerArmed then some { s with timerArmed := false, rxtimer := false, workPending := true }
    else none
  | .workBegin => sleepWorkBegin s
  | .workEnd txEmpty => sleepWorkEnd txEmpty s

end Steps

/-- After `bluesleep_init`. -/
def init (hostWake : Bool) : Lpm :=
  { hasLpmEnabled := false, uport := false, openCount := 1, proto := false, asleep := false
    rxtimer := false, txidle := false, extWake := false, hostWake := hostWake, timerArmed := false
    workPending := false, working := none, taskPending := false, irqRequested := false
    uartOn := true, stayAwake := false, writers := [] }

/-! ## Who has the gate -/

/-- Starts that passed `atomic_dec_and_test`. -/
def inside : List Writer := [.entered, .pulsed, .requested, .failed, .leaving]

/-- Writes that have the interrupt. -/
def holders : List Writer := [.requested, .freeing]

def number (ws l : List Writer) : ℤ := l.countP (· ∈ ws)

def oneIf (b : Bool) : ℤ := if b then 1 else 0

/-- The counter is one less for the protocol, for a start that passed it and for each that was
refused. Of the first two there is one at most. -/
structure Gated (s : Lpm) : Prop where
  count : s.openCount+oneIf s.proto+number inside s.writers+number [.refused] s.writers = 1
  gate : oneIf s.proto+number inside s.writers ≤ 1
  irq : oneIf s.proto+number holders s.writers = oneIf s.irqRequested

variable {port : Bool} {s t : Lpm} {w : Writer} {ws l fs : List Writer}

theorem number_nonneg (ws l : List Writer) : 0 ≤ number ws l := Int.natCast_nonneg _

theorem number_pos (hw : w ∈ l) (hws : w ∈ ws) : 1 ≤ number ws l := by
  have hpos : 0 < l.countP (· ∈ ws) := List.countP_pos_iff.mpr ⟨w, hw, decide_eq_true hws⟩
  unfold number
  omega

theorem number_cons (ws : List Writer) (w : Writer) (l : List Writer) :
    number ws (w::l) = oneIf (w ∈ ws)+number ws l := by
  simp only [number, List.countP_cons, oneIf]
  split_ifs <;> push_cast <;> omega

theorem number_goOn (hw : w ∈ l) (ws fs : List Writer) :
    number ws (goOn l w fs) = number ws fs+number ws l-oneIf (w ∈ ws) := by
  have hsplit : l.countP (· ∈ ws) = (w::l.erase w).countP (· ∈ ws) :=
    (List.perm_cons_erase hw).countP_eq _
  have hcons : number ws (w::l.erase w) = oneIf (w ∈ ws)+number ws (l.erase w) := number_cons ..
  have happ : number ws (goOn l w fs) = number ws fs+number ws (l.erase w) := by
    simp only [number, goOn, List.countP_append, Nat.cast_add]
  have hl : number ws l = number ws (w::l.erase w) := congrArg Nat.cast hsplit
  omega

theorem oneIf_range (b : Bool) : oneIf b = 0 ∨ oneIf b = 1 := by
  cases b
  · exact .inl rfl
  · exact .inr rfl

theorem gated_init (hostWake : Bool) : Gated (init hostWake) := ⟨rfl, Int.zero_le_ofNat 1, rfl⟩

/-- What a piece of a write changes of the sums, with the places it goes on from and to. -/
theorem Gated.moves (h : Gated s) (hw : w ∈ s.writers) (hws : t.writers = goOn s.writers w fs)
    (hcount : t.openCount+oneIf t.proto+number inside fs+number [.refused] fs =
      s.openCount+oneIf s.proto+oneIf (w ∈ inside)+oneIf (w ∈ [Writer.refused]))
    (hgate : oneIf t.proto+number inside fs ≤ 1-number inside s.writers+oneIf (w ∈ inside))
    (hirq : oneIf t.proto+number holders fs-oneIf t.irqRequested =
      oneIf s.proto+oneIf (w ∈ holders)-oneIf s.irqRequested) : Gated t := by
  have hi : number inside t.writers = _ := hws ▸ number_goOn hw inside fs
  have hr : number [.refused] t.writers = _ := hws ▸ number_goOn hw [.refused] fs
  have hh : number holders t.writers = _ := hws ▸ number_goOn hw holders fs
  have hc := h.count
  have hq := h.irq
  exact ⟨by omega, by omega, by omega⟩

/-- A piece that leaves the counter, the protocol and the interrupt, and its own place in them. -/
theorem Gated.still (h : Gated s) (hw : w ∈ s.writers) (hws : t.writers = goOn s.writers w fs)
    (ht : t.openCount = s.openCount ∧ t.proto = s.proto ∧ t.irqRequested = s.irqRequested)
    (hin : number inside fs = oneIf (w ∈ inside))
    (hre : number [.refused] fs = oneIf (w ∈ [Writer.refused]))
    (hho : number holders fs = oneIf (w ∈ holders)) : Gated t := by
  obtain ⟨hcount, hproto, hirq⟩ := ht
  have hg := h.gate
  refine h.moves hw hws ?_ ?_ ?_ <;> rw [hproto]
  · omega
  · omega
  · rw [hirq]
    omega

theorem hsuartPower_gate (on : Bool) (s : Lpm) : (hsuartPower on s).openCount = s.openCount ∧
    (hsuartPower on s).proto = s.proto ∧ (hsuartPower on s).irqRequested = s.irqRequested := by
  unfold hsuartPower
  split_ifs <;> exact ⟨rfl, rfl, rfl⟩

theorem Gated.go (h : Gated s) (hw : w ∈ s.writers) (hfree : w = .freeing → s.irqRequested = true)
    (irqOk : Bool) : Gated { (writerStep port irqOk s w).1 with
      writers := goOn s.writers w (writerStep port irqOk s w).2 } := by
  have hc := h.count
  have hg := h.gate
  have hq := h.irq
  have hnr := number_nonneg [.refused] s.writers
  have hni := number_nonneg inside s.writers
  have hp := oneIf_range s.proto
  have hone : oneIf true = 1 := rfl
  have hzero : oneIf false = 0 := rfl
  cases w with
  | lpmOn =>
    simp only [writerStep]
    split_ifs <;> exact h.still hw rfl ⟨rfl, rfl, rfl⟩ rfl rfl rfl
  | enabling => exact h.still hw rfl ⟨rfl, rfl, rfl⟩ rfl rfl rfl
  | starting =>
    simp only [writerStep]
    split_ifs <;> exact h.still hw rfl ⟨rfl, rfl, rfl⟩ rfl rfl rfl
  | counting =>
    -- Only the one that finds the counter at 1 passes.
    simp only [writerStep]
    split_ifs with hfirst
    · refine h.moves hw rfl ?_ ?_ rfl
      · change s.openCount-1+oneIf s.proto+1+0 = s.openCount+oneIf s.proto+0+0
        omega
      · change oneIf s.proto+1 ≤ 1-number inside s.writers+0
        omega
    · refine h.moves hw rfl ?_ ?_ rfl
      · change s.openCount-1+oneIf s.proto+0+1 = s.openCount+oneIf s.proto+0+0
        omega
      · change oneIf s.proto+0 ≤ 1-number inside s.writers+0
        omega
  | refused =>
    refine h.moves hw rfl ?_ ?_ rfl
    · change s.openCount+1+oneIf s.proto+0+0 = s.openCount+oneIf s.proto+0+1
      omega
    · change oneIf s.proto+0 ≤ 1-number inside s.writers+0
      omega
  | entered => exact h.still hw rfl ⟨rfl, rfl, rfl⟩ rfl rfl rfl
  | pulsed =>
    simp only [writerStep]
    split_ifs with hok
    · refine h.moves hw rfl rfl ?_ ?_
      · change oneIf s.proto+1 ≤ 1-number inside s.writers+1
        omega
      · have hfree : s.irqRequested = false := by simpa using ((Bool.and_eq_true _ _).mp hok).2
        rw [hfree]
        change oneIf s.proto+1-1 = oneIf s.proto+0-0
        omega
    · exact h.still hw rfl ⟨rfl, rfl, rfl⟩ rfl rfl rfl
  | requested =>
    have hin : 1 ≤ number inside s.writers := number_pos hw (by decide)
    have hno : oneIf s.proto = 0 := by omega
    refine h.moves hw rfl ?_ ?_ ?_
    · change s.openCount+1+0+0 = s.openCount+oneIf s.proto+1+0
      omega
    · change 1+0 ≤ 1-number inside s.writers+1
      omega
    · change 1+0-oneIf s.irqRequested = oneIf s.proto+1-oneIf s.irqRequested
      omega
  | failed => exact h.still hw rfl ⟨rfl, rfl, rfl⟩ rfl rfl rfl
  | leaving =>
    refine h.moves hw rfl ?_ ?_ rfl
    · change s.openCount+1+oneIf s.proto+0+0 = s.openCount+oneIf s.proto+1+0
      omega
    · change oneIf s.proto+0 ≤ 1-number inside s.writers+1
      omega
  | stopping =>
    by_cases hproto : s.proto = true
    · rw [hproto, hone] at hc hg hq
      have hstop : ∃ u : Lpm, writerStep port irqOk s .stopping = (u, [.freeing]) ∧
          u.openCount = s.openCount+1 ∧ u.proto = false ∧ u.irqRequested = s.irqRequested := by
        simp only [writerStep, if_pos hproto, hsuartPower]
        split_ifs <;> exact ⟨_, rfl, rfl, rfl, rfl⟩
      obtain ⟨u, hu, hopen, hoff, hirq⟩ := hstop
      rw [hu]
      refine h.moves hw rfl ?_ ?_ ?_
      · change u.openCount+oneIf u.proto+0+0 = s.openCount+oneIf s.proto+0+0
        rw [hopen, hoff, hproto, hone, hzero]
        omega
      · change oneIf u.proto+0 ≤ 1-number inside s.writers+0
        rw [hoff, hzero]
        omega
      · change oneIf u.proto+1-oneIf u.irqRequested = oneIf s.proto+0-oneIf s.irqRequested
        rw [hoff, hirq, hproto, hone, hzero]
        omega
    · simp only [writerStep, if_neg hproto]
      exact h.still hw rfl ⟨rfl, rfl, rfl⟩ rfl rfl rfl
  | freeing =>
    rw [hfree rfl, hone] at hq
    refine h.moves hw rfl rfl ?_ ?_
    · change oneIf s.proto+0 ≤ 1-number inside s.writers+0
      omega
    · rw [hfree rfl]
      change oneIf s.proto+0-0 = oneIf s.proto+1-1
      omega
  | disabling => exact h.still hw rfl ⟨rfl, rfl, rfl⟩ rfl rfl rfl
  | outgoing =>
    simp only [writerStep]
    split_ifs <;> exact h.still hw rfl ⟨rfl, rfl, rfl⟩ rfl rfl rfl
  | powering => exact h.still hw rfl (hsuartPower_gate true s) rfl rfl rfl
  | allowing => exact h.still hw rfl ⟨rfl, rfl, rfl⟩ rfl rfl rfl

/-- How `bluesleep_sleep_work` can go on behind `bluesleep_can_sleep`. -/
inductive WorkEnded (s : Lpm) (txEmpty : Bool) : Lpm → Prop
  | already (hw : s.working = some (.answered true)) (ha : s.asleep = true) :
    WorkEnded s txEmpty { s with working := none }
  | slept (hw : s.working = some (.answered true)) (ha : s.asleep = false) (hu : s.uport = true)
      (ht : txEmpty = true) :
    WorkEnded s txEmpty
      { s with working := none, asleep := true, uartOn := false, stayAwake := false }
  | busy (hw : s.working = some (.answered true)) (ha : s.asleep = false) (ht : txEmpty = false) :
    WorkEnded s txEmpty { s with working := none }
  | woke (hw : s.working = some (.answered false)) (ha : s.asleep = true) :
    WorkEnded s txEmpty (hsuartPower true { s with
      working := none, timerArmed := true, stayAwake := true, asleep := false, rxtimer := true })
  | pulse (hw : s.working = some (.answered false)) (ha : s.asleep = false)
      (hext : s.extWake = false) :
    WorkEnded s txEmpty { s with working := some .pulsing, timerArmed := true, extWake := true }
  | again (hw : s.working = some (.answered false)) (ha : s.asleep = false) :
    WorkEnded s txEmpty { s with working := none, timerArmed := true }
  | pulsed (hw : s.working = some .pulsing) :
    WorkEnded s txEmpty { s with working := none, extWake := false }

theorem sleepWorkEnd_cases {txEmpty : Bool} (hs : sleepWorkEnd txEmpty s = some t) :
    WorkEnded s txEmpty t := by
  unfold sleepWorkEnd at hs
  cases hw : s.working with
  | none =>
    rw [hw] at hs
    cases hs
  | some place =>
    rw [hw] at hs
    cases place with
    | pulsing =>
      obtain rfl := Option.some.inj hs
      exact .pulsed hw
    | answered canSleep =>
      cases canSleep with
      | true =>
        simp only at hs
        split_ifs at hs with ha hu ht
        · obtain rfl := Option.some.inj hs
          exact .already hw ha
        · obtain rfl := Option.some.inj hs
          have huport : s.uport = true := by simpa using hu
          simpa only [hsuartPower, huport, if_true] using
            WorkEnded.slept hw (Bool.eq_false_iff.mpr ha) huport ht
        · obtain rfl := Option.some.inj hs
          exact .busy hw (Bool.eq_false_iff.mpr ha) (Bool.eq_false_iff.mpr ht)
      | false =>
        simp only at hs
        split_ifs at hs with ha hpulse
        · obtain rfl := Option.some.inj hs
          exact .woke hw ha
        · obtain rfl := Option.some.inj hs
          have hext : s.extWake = false := by simpa using ((Bool.and_eq_true _ _).mp hpulse).1
          exact .pulse hw (Bool.eq_false_iff.mpr ha) hext
        · obtain rfl := Option.some.inj hs
          exact .again hw (Bool.eq_false_iff.mpr ha)

/-- The same gate: what the interrupts, the timer and the work item leave alone. -/
def SameGate (s t : Lpm) : Prop :=
  t.openCount = s.openCount ∧ t.proto = s.proto ∧ t.irqRequested = s.irqRequested ∧
    t.writers = s.writers

theorem sleepWorkEnd_gate {txEmpty : Bool} (hs : sleepWorkEnd txEmpty s = some t) :
    SameGate s t := by
  cases sleepWorkEnd_cases hs with
  | woke hw ha =>
    unfold hsuartPower
    split_ifs <;> exact ⟨rfl, rfl, rfl, rfl⟩
  | _ => exact ⟨rfl, rfl, rfl, rfl⟩

theorem sleepWorkBegin_cases (hs : sleepWorkBegin s = some t) :
    s.workPending = true ∧ s.working = none ∧
      (s.hasLpmEnabled = true ∧ t = { s with
          workPending := false, working := some (.answered (bluesleepCanSleep s)) } ∨
        s.hasLpmEnabled = false ∧ t = { s with workPending := false }) := by
  unfold sleepWorkBegin at hs
  simp only at hs
  split_ifs at hs with hready hon
  · obtain ⟨hpending, hnone⟩ := (Bool.and_eq_true _ _).mp hready
    exact ⟨hpending, by simpa using hnone, .inl ⟨hon, (Option.some.inj hs).symm⟩⟩
  · obtain ⟨hpending, hnone⟩ := (Bool.and_eq_true _ _).mp hready
    exact ⟨hpending, by simpa using hnone,
      .inr ⟨Bool.eq_false_iff.mpr hon, (Option.some.inj hs).symm⟩⟩

theorem Gated.same (h : Gated s) (hs : SameGate s t) : Gated t := by
  obtain ⟨hopen, hproto, hirq, hwriters⟩ := hs
  constructor
  · rw [hopen, hproto, hwriters, h.count]
  · rw [hproto, hwriters]
    exact h.gate
  · rw [hproto, hirq, hwriters, h.irq]

theorem first_free (hw : w ∈ firstPlaces) :
    w ∉ inside ∧ w ∉ [Writer.refused] ∧ w ∉ holders := by
  simp only [firstPlaces, List.mem_cons, List.not_mem_nil, or_false] at hw
  rcases hw with rfl | rfl | rfl | rfl <;> decide

theorem Gated.step (h : Gated s) {a : Act} (hs : step port s a = some t) : Gated t := by
  cases a with
  | write w =>
    simp only [LowPower.step] at hs
    split_ifs at hs with hfirst
    obtain rfl := Option.some.inj hs
    obtain ⟨hin, hre, hho⟩ := first_free hfirst
    have hnew : ∀ ws, w ∉ ws → number ws (w::s.writers) = number ws s.writers := by
      intro ws hws
      rw [number_cons, decide_eq_false hws]
      exact zero_add _
    constructor
    · rw [hnew _ hin, hnew _ hre]
      exact h.count
    · rw [hnew _ hin]
      exact h.gate
    · rw [hnew _ hho]
      exact h.irq
  | go w irqOk =>
    simp only [LowPower.step] at hs
    split_ifs at hs with hw hfree
    obtain rfl := Option.some.inj hs
    exact h.go hw (fun he => by simpa [he] using hfree) irqOk
  | hostWake level =>
    obtain rfl := Option.some.inj hs
    exact h.same ⟨rfl, rfl, rfl, rfl⟩
  | hostwakeTask =>
    simp only [LowPower.step] at hs
    split_ifs at hs
    obtain rfl := Option.some.inj hs
    exact h.same ⟨rfl, rfl, rfl, rfl⟩
  | rxTimerExpire =>
    simp only [LowPower.step] at hs
    split_ifs at hs
    obtain rfl := Option.some.inj hs
    exact h.same ⟨rfl, rfl, rfl, rfl⟩
  | workBegin =>
    obtain ⟨-, -, ⟨-, rfl⟩ | ⟨-, rfl⟩⟩ := sleepWorkBegin_cases hs
    · exact h.same ⟨rfl, rfl, rfl, rfl⟩
    · exact h.same ⟨rfl, rfl, rfl, rfl⟩
  | workEnd txEmpty => exact h.same (sleepWorkEnd_gate hs)

theorem Gated.free (h : Gated s) (hw : .freeing ∈ s.writers) : s.irqRequested = true := by
  have hholds : 1 ≤ number holders s.writers := number_pos hw (by decide)
  have hq := h.irq
  have hp := oneIf_range s.proto
  have hone : oneIf s.irqRequested = 1 := by
    rcases oneIf_range s.irqRequested with hi | hi <;> omega
  cases hirq : s.irqRequested with
  | true => rfl
  | false =>
    rw [hirq] at hone
    cases hone

/-- In every order of the pieces of any number of writes, and with every result of `request_irq`,
one start at most is behind the counter, and none while the protocol runs. The interrupt is freed
only where it was requested, and when no write runs the counter and the interrupt agree with the
protocol. -/
theorem gate_kept (hostWake : Bool) (es : List Act)
    (hrun : Lib.GuardedRun.exec (step port) (init hostWake) es = some s) :
    Gated s ∧ (∀ w ∈ s.writers, ∀ irqOk, ((step port) s (.go w irqOk)).isSome) ∧
      (s.writers = [] → s.openCount = 1-oneIf s.proto ∧ s.irqRequested = s.proto) := by
  have h : Gated s := Lib.GuardedRun.exec_preserves (fun _ _ _ hst hi => hi.step hst)
    (gated_init hostWake) hrun
  refine ⟨h, fun w hw irqOk => ?_, fun hnone => ?_⟩
  · have hfree : ¬ (w = .freeing && !s.irqRequested) = true := by
      intro hno
      obtain ⟨hf, hirq⟩ := (Bool.and_eq_true _ _).mp hno
      rw [h.free (of_decide_eq_true hf ▸ hw)] at hirq
      cases hirq
    simp only [step, if_pos hw, if_neg hfree]
    rfl
  · have hc := h.count
    have hq := h.irq
    rw [hnone] at hc hq
    change s.openCount+oneIf s.proto+0+0 = 1 at hc
    change oneIf s.proto+0 = oneIf s.irqRequested at hq
    refine ⟨by omega, ?_⟩
    cases hp : s.proto <;> cases hi : s.irqRequested <;> rw [hp, hi] at hq <;> first | rfl | cases hq

/-- Two writes that both find the mode off. -/
def twoStarts : List Act :=
  [.write .lpmOn, .write .lpmOn, .go .lpmOn true, .go .lpmOn true, .go .enabling true,
   .go .enabling true, .go .starting true, .go .starting true, .go .counting true,
   .go .counting true, .go .entered true, .go .pulsed true, .go .requested true,
   .go .refused true]

def started : Lpm :=
  { init false with
    hasLpmEnabled := true, uport := true, openCount := 0, proto := true, extWake := true
    timerArmed := true, irqRequested := true, stayAwake := true }

theorem gate_kept_twice :
    Gated started ∧ (∀ w ∈ started.writers, ∀ irqOk, ((step true) started (.go w irqOk)).isSome) ∧
      (started.writers = [] →
        started.openCount = 1-oneIf started.proto ∧ started.irqRequested = started.proto) :=
  gate_kept false twoStarts rfl

end AIC.LowPower
