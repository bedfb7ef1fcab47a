import Aic8800.LowPower

/-!
# Asleep and awake

When no write falls together with another or with the work item and the interrupt is
granted, the serial port is off exactly while the driver is asleep, a wake-up of
the host is never lost, and a driver with nothing left to do is asleep exactly when
both lines are idle.
-/

set_option autoImplicit false

namespace AIC.LowPowerSettled
open Lib.GuardedRun Lib.RunningFrames AIC.LowPower

/-- A write begins when no other runs and the work item does not, the work item begins when no
write runs, and `request_irq` grants the interrupt. -/
def Apart (s : Lpm) : Act → Prop
  | .write _ => s.writers = [] ∧ s.working = none
  | .go _ irqOk => irqOk = true
  | .workBegin => s.writers = []
  | _ => True

instance decidableApart : ∀ s a, Decidable (Apart s a)
  | s, .write _ => inferInstanceAs (Decidable (s.writers = [] ∧ s.working = none))
  | _, .go _ irqOk => inferInstanceAs (Decidable (irqOk = true))
  | s, .workBegin => inferInstanceAs (Decidable (s.writers = []))
  | _, .hostWake _ | _, .hostwakeTask | _, .rxTimerExpire | _, .workEnd _ => isTrue trivial

/-- What is switched on where a write stands at a place. -/
def Stage (port : Bool) (s : Lpm) : List Writer → Prop
  | [.enabling] => s.hasLpmEnabled = false ∧ s.proto = false ∧ s.irqRequested = false
  | [.starting] | [.counting] | [.entered] =>
    s.hasLpmEnabled = true ∧ s.uport = port ∧ s.proto = false ∧ s.irqRequested = false
  | [.pulsed] => s.hasLpmEnabled = true ∧ s.uport = port ∧ s.proto = false ∧ s.irqRequested = false
  | [.requested] => s.hasLpmEnabled = true ∧ s.uport = port ∧ s.proto = false ∧
    s.irqRequested = true ∧ s.extWake = true
  | [.freeing] => s.proto = false ∧ s.irqRequested = true
  | [.disabling] => s.proto = false ∧ s.irqRequested = false
  | [.refused] | [.failed] | [.leaving] => False
  | [.powering] => s.proto = s.hasLpmEnabled ∧ s.irqRequested = s.hasLpmEnabled ∧
      s.uport = (s.hasLpmEnabled && port) ∧ s.asleep = false
  | [] | [.lpmOn] | [.stopping] | [.outgoing] | [.allowing] =>
    s.proto = s.hasLpmEnabled ∧ s.irqRequested = s.hasLpmEnabled ∧
      s.uport = (s.hasLpmEnabled && port)
  | _ => False

/-- Something that will run the work item, or runs it. -/
def Stirs (s : Lpm) : Prop := s.taskPending = true ∨ s.workPending = true ∨ s.working ≠ none

structure Sound (port : Bool) (s : Lpm) : Prop where
  stage : Stage port s s.writers
  apart : s.working ≠ none → s.writers = [] ∧ s.hasLpmEnabled = true
  asleep : s.asleep = true → s.proto = true ∧ s.uport = true ∧ s.extWake = false
  uart : s.uartOn = !s.asleep ∨ s.writers = [.powering] ∧ s.uport = true
  awake : s.proto = true → s.stayAwake = !s.asleep
  idle : s.working = some (.answered true) → s.extWake = false ∧ s.uport = true ∧
    (s.hostWake = true → s.taskPending = true ∨ s.workPending = true)
  pulse : s.working = some .pulsing → s.asleep = false
  wakes : s.asleep = true → s.hostWake = true → Stirs s

variable {port : Bool} {s t : Lpm} {w : Writer}

theorem sound_init (port hostWake : Bool) : Sound port (init hostWake) where
  stage := ⟨rfl, rfl, rfl⟩
  apart h := absurd rfl h
  asleep h := by cases h
  uart := .inl rfl
  awake h := by cases h
  idle h := by cases h
  pulse _ := rfl
  wakes h := by cases h

/-- Only one write runs, and the work item does not. -/
theorem Sound.alone (h : Sound port s) (hw : w ∈ s.writers) :
    s.writers = [w] ∧ s.working = none := by
  have hst := h.stage
  constructor
  · cases hl : s.writers with
    | nil =>
      rw [hl] at hw
      cases hw
    | cons v l =>
      cases l with
      | nil =>
        rw [hl] at hw
        rw [List.mem_singleton.mp hw]
      | cons v' l =>
        rw [hl] at hst
        cases v <;> exact absurd hst id
  · by_contra hno
    rw [(h.apart hno).1] at hw
    cases hw

/-- A write that leaves all but its own place. -/
theorem Sound.moved (h : Sound port s) (hw : s.writers = [w]) (hnone : s.working = none)
    (hpow : w ≠ .powering) {fs : List Writer} (hst : Stage port s fs) :
    Sound port { s with writers := fs } where
  stage := hst
  apart hno := absurd hnone hno
  asleep := h.asleep
  uart := by
    rcases h.uart with hu | ⟨hu, -⟩
    · exact .inl hu
    · exact absurd (List.cons.inj (hw.symm.trans hu)).1 hpow
  awake := h.awake
  idle := h.idle
  pulse := h.pulse
  wakes := h.wakes

theorem Sound.go (h : Sound port s) (hg : Gated s) (hw : w ∈ s.writers)
    (hfree : w = .freeing → s.irqRequested = true) :
    Sound port { (writerStep port true s w).1 with
      writers := goOn s.writers w (writerStep port true s w).2 } := by
  obtain ⟨hone, hnone⟩ := h.alone hw
  have hst := h.stage
  rw [hone] at hst
  have hon : ∀ fs, goOn s.writers w fs = fs := by
    intro fs
    rw [hone, goOn, List.erase_cons_head, List.append_nil]
  rw [hon]
  have hidle : ∀ {P : Prop} {place}, s.working = some place → P := by
    intro P place hp
    rw [hnone] at hp
    cases hp
  have huart : w ≠ .powering → s.uartOn = !s.asleep := by
    intro hpow
    rcases h.uart with hu | ⟨hu, -⟩
    · exact hu
    · exact absurd (List.cons.inj (hone.symm.trans hu)).1 hpow
  have hoff : s.proto = false → s.asleep ≠ true := by
    intro hp ha
    rw [(h.asleep ha).1] at hp
    cases hp
  cases w with
  | lpmOn =>
    simp only [writerStep]
    split_ifs with hl
    · exact h.moved hone hnone (by decide) hst
    · have hoff : s.hasLpmEnabled = false := Bool.eq_false_iff.mpr hl
      exact h.moved hone hnone (by decide) ⟨hoff, hst.1.trans hoff, hst.2.1.trans hoff⟩
  | enabling =>
    have hno : s.asleep ≠ true := hoff hst.2.1
    exact ⟨⟨rfl, rfl, hst.2⟩, fun hi => absurd hnone hi, fun ha => absurd ha hno,
      .inl (huart (by decide)), h.awake, hidle, hidle, fun ha => absurd ha hno⟩
  | starting =>
    simp only [writerStep]
    rw [if_neg (by simp [hst.2.2.1])]
    exact h.moved hone hnone (by decide) hst
  | counting =>
    -- The protocol is off and this is the only start, so the counter is 1.
    have hcount : s.openCount-1 = 0 := by
      have hc := hg.count
      rw [hone, hst.2.2.1] at hc
      change s.openCount+0+0+0 = 1 at hc
      omega
    have hno : s.asleep ≠ true := hoff hst.2.2.1
    simp only [writerStep, if_pos hcount]
    exact ⟨hst, fun hi => absurd hnone hi, fun ha => absurd ha hno, .inl (huart (by decide)),
      h.awake, hidle, hidle, fun ha => absurd ha hno⟩
  | refused => exact absurd hst id
  | entered =>
    have hno : s.asleep ≠ true := hoff hst.2.2.1
    exact ⟨hst, fun hi => absurd hnone hi, fun ha => absurd ha hno, .inl (huart (by decide)),
      h.awake, hidle, hidle, fun ha => absurd ha hno⟩
  | pulsed =>
    have hno : s.asleep ≠ true := hoff hst.2.2.1
    simp only [writerStep, hst.2.2.2, Bool.not_false, Bool.and_self, if_true]
    exact ⟨⟨hst.1, hst.2.1, hst.2.2.1, rfl, rfl⟩, fun hi => absurd hnone hi,
      fun ha => absurd ha hno, .inl (huart (by decide)), h.awake, hidle, hidle,
      fun ha => absurd ha hno⟩
  | requested =>
    have hno : s.asleep ≠ true := hoff hst.2.2.1
    have hstage : Stage port { s with proto := true, stayAwake := true } [] := by
      refine ⟨hst.1.symm, hst.2.2.2.1.trans hst.1.symm, ?_⟩
      simp [hst.1, hst.2.1]
    refine ⟨hstage, fun hi => absurd hnone hi, fun ha => absurd ha hno, .inl (huart (by decide)),
      fun _ => ?_, hidle, hidle, fun ha => absurd ha hno⟩
    simp [writerStep, hno]
  | failed => exact absurd hst id
  | leaving => exact absurd hst id
  | stopping =>
    by_cases hp : s.proto = true
    · have hirq : s.irqRequested = true := hst.2.1.trans (hst.1.symm.trans hp)
      simp only [writerStep, if_pos hp]
      by_cases ha : s.asleep = true
      · simp only [hsuartPower, if_pos ha, (h.asleep ha).2.1, if_true]
        exact ⟨⟨rfl, hirq⟩, fun hi => absurd hnone hi, fun hno => (by cases hno), .inl rfl,
          fun hno => (by cases hno), hidle, hidle, fun hno => (by cases hno)⟩
      · simp only [if_neg ha]
        exact ⟨⟨rfl, hirq⟩, fun hi => absurd hnone hi, fun hno => absurd hno ha,
          .inl (huart (by decide)), fun hno => (by cases hno), hidle, hidle,
          fun hno => absurd hno ha⟩
    · have hpf : s.proto = false := Bool.eq_false_iff.mpr hp
      simp only [writerStep, if_neg hp]
      exact h.moved hone hnone (by decide) ⟨hpf, hst.2.1.trans (hst.1.symm.trans hpf)⟩
  | freeing =>
    have hno : s.asleep ≠ true := hoff hst.1
    refine ⟨⟨hst.1, rfl⟩, fun hi => absurd hnone hi, fun ha => absurd ha hno,
      .inl (huart (by decide)), fun hp => ?_, hidle, hidle, fun ha => absurd ha hno⟩
    exact absurd (hp.symm.trans hst.1) (by decide)
  | disabling =>
    have hno : s.asleep ≠ true := hoff hst.1
    exact ⟨⟨hst.1, hst.2, rfl⟩, fun hi => absurd hnone hi, fun ha => absurd ha hno,
      .inl (huart (by decide)), h.awake, hidle, hidle, fun ha => absurd ha hno⟩
  | outgoing =>
    simp only [writerStep]
    split_ifs with hext
    · exact h.moved hone hnone (by decide) hst
    · refine ⟨⟨hst.1, hst.2.1, hst.2.2, rfl⟩, fun hi => absurd hnone hi, fun ha => (by cases ha),
        ?_, fun _ => rfl, hidle, hidle, fun ha => (by cases ha)⟩
      by_cases ha : s.asleep = true
      · exact .inr ⟨rfl, (h.asleep ha).2.1⟩
      · refine .inl ((huart (by decide)).trans ?_)
        simp [ha]
  | powering =>
    have hno : s.asleep = false := hst.2.2.2
    have hstage : Stage port s [] := ⟨hst.1, hst.2.1, hst.2.2.1⟩
    simp only [writerStep, hsuartPower]
    split_ifs with hu
    · exact ⟨hstage, fun hi => absurd hnone hi, h.asleep, .inl (by simp [hno]), h.awake,
        hidle, hidle, h.wakes⟩
    · refine ⟨hstage, fun hi => absurd hnone hi, h.asleep, .inl ?_, h.awake,
        hidle, hidle, h.wakes⟩
      rcases h.uart with huart | ⟨-, hup⟩
      · exact huart
      · exact absurd hup hu
  | allowing =>
    exact ⟨hst, fun hi => absurd hnone hi, fun ha => ⟨(h.asleep ha).1, (h.asleep ha).2.1, rfl⟩,
      .inl (huart (by decide)), h.awake, hidle, hidle,
      fun _ _ => .inr (.inl rfl)⟩

theorem stage_nil (hw : t.writers = []) (hproto : t.proto = t.hasLpmEnabled)
    (hirq : t.irqRequested = t.hasLpmEnabled) (hport : t.uport = (t.hasLpmEnabled && port)) :
    Stage port t t.writers := by
  rw [hw]
  exact ⟨hproto, hirq, hport⟩

theorem Sound.workBegin (h : Sound port s) (hw : s.writers = [])
    (hs : sleepWorkBegin s = some t) : Sound port t := by
  have huart : s.uartOn = !s.asleep := by
    rcases h.uart with hu | ⟨hu, -⟩
    · exact hu
    · rw [hw] at hu
      cases hu
  obtain ⟨hpending, hnone, ⟨hon, rfl⟩ | ⟨hoff, rfl⟩⟩ := sleepWorkBegin_cases hs
  · refine ⟨h.stage, fun _ => ⟨hw, hon⟩, h.asleep, .inl huart, h.awake, fun hi => ?_,
      fun hi => (by cases hi), fun _ _ => .inr (.inr (by simp))⟩
    have hcan : bluesleepCanSleep s = true := by simpa using hi
    simp only [bluesleepCanSleep, Bool.and_eq_true, Bool.not_eq_true'] at hcan
    exact ⟨hcan.1.1.1, hcan.2, fun hh => absurd (hh.symm.trans hcan.1.1.2) (by decide)⟩
  · have hst := h.stage
    rw [hw] at hst
    have hno : s.asleep ≠ true := by
      intro ha
      have hp := (h.asleep ha).1
      rw [hst.1, hoff] at hp
      cases hp
    exact ⟨h.stage, fun hi => absurd hnone hi, h.asleep, .inl huart, h.awake,
      fun hi => absurd (hnone.symm.trans hi) (by simp),
      fun hi => absurd (hnone.symm.trans hi) (by simp), fun ha => absurd ha hno⟩

theorem Sound.workEnd (h : Sound port s) {txEmpty : Bool} (hs : sleepWorkEnd txEmpty s = some t) :
    Sound port t := by
  have hcases := sleepWorkEnd_cases hs
  have hworks : s.working ≠ none := by
    intro hno
    cases hcases <;> simp_all
  obtain ⟨hw, hon⟩ := h.apart hworks
  have hst := h.stage
  rw [hw] at hst
  have hproto : s.proto = true := hst.1.trans hon
  have huart : s.uartOn = !s.asleep := by
    rcases h.uart with hu | ⟨hu, -⟩
    · exact hu
    · rw [hw] at hu
      cases hu
  have hnone : ∀ {P : Prop} {place}, (none : Option WorkPlace) = some place → P :=
    fun hno => by cases hno
  cases hcases with
  | already hwork ha =>
    refine ⟨h.stage, fun hi => absurd rfl hi, h.asleep, .inl huart, h.awake, hnone, hnone,
      fun _ hh => ?_⟩
    exact ((h.idle hwork).2.2 hh).elim .inl fun hp => .inr (.inl hp)
  | slept hwork ha hu ht =>
    refine ⟨stage_nil hw hst.1 hst.2.1 hst.2.2, fun hi => absurd rfl hi,
      fun _ => ⟨hproto, hu, (h.idle hwork).1⟩, .inl rfl, fun _ => rfl, hnone, hnone, fun _ hh => ?_⟩
    exact ((h.idle hwork).2.2 hh).elim .inl fun hp => .inr (.inl hp)
  | busy hwork ha ht =>
    exact ⟨h.stage, fun hi => absurd rfl hi, h.asleep, .inl huart, h.awake, hnone, hnone,
      fun hno => absurd (hno.symm.trans ha) (by decide)⟩
  | woke hwork ha =>
    rw [hsuartPower, if_pos (h.asleep ha).2.1]
    exact ⟨stage_nil hw hst.1 hst.2.1 hst.2.2, fun hi => absurd rfl hi, fun hno => (by cases hno),
      .inl rfl, fun _ => rfl, hnone, hnone, fun hno => (by cases hno)⟩
  | pulse hwork ha hext =>
    exact ⟨stage_nil hw hst.1 hst.2.1 hst.2.2, fun _ => ⟨hw, hon⟩,
      fun hno => absurd (hno.symm.trans ha) (by decide), .inl huart, h.awake,
      fun hno => (by cases hno), fun _ => ha, fun hno => absurd (hno.symm.trans ha) (by decide)⟩
  | again hwork ha =>
    exact ⟨h.stage, fun hi => absurd rfl hi, h.asleep, .inl huart, h.awake, hnone, hnone,
      fun hno => absurd (hno.symm.trans ha) (by decide)⟩
  | pulsed hwork =>
    have ha : s.asleep = false := h.pulse hwork
    exact ⟨stage_nil hw hst.1 hst.2.1 hst.2.2, fun hi => absurd rfl hi,
      fun hno => absurd (hno.symm.trans ha) (by decide), .inl huart, h.awake, hnone, hnone,
      fun hno => absurd (hno.symm.trans ha) (by decide)⟩

theorem stage_congr {l : List Writer} (hon : t.hasLpmEnabled = s.hasLpmEnabled)
    (huport : t.uport = s.uport) (hproto : t.proto = s.proto)
    (hirq : t.irqRequested = s.irqRequested) (hext : t.extWake = s.extWake)
    (hasleep : t.asleep = s.asleep) : Stage port t l ↔ Stage port s l := by
  unfold Stage
  rw [hon, huport, hproto, hirq, hext, hasleep]

theorem irq_of_proto (hg : Gated s) (hp : s.proto = true) : s.irqRequested = true := by
  have hq := hg.irq
  have hh := number_nonneg holders s.writers
  rw [hp] at hq
  change 1+number holders s.writers = oneIf s.irqRequested at hq
  cases hi : s.irqRequested with
  | true => rfl
  | false =>
    rw [hi] at hq
    change 1+number holders s.writers = 0 at hq
    omega

theorem Sound.proto_of_working (h : Sound port s) (hw : s.working ≠ none) : s.proto = true := by
  obtain ⟨hnil, hon⟩ := h.apart hw
  have hst := h.stage
  rw [hnil] at hst
  exact hst.1.trans hon

theorem Sound.hostWake (h : Sound port s) (hg : Gated s) {level : Bool}
    (hs : LowPower.step port s (.hostWake level) = some t) : Sound port t := by
  obtain rfl := Option.some.inj hs
  -- With the protocol on, the line that is asserted now was asserted before or runs the tasklet.
  have hedge : s.proto = true → level = true →
      (s.taskPending || (s.irqRequested && level != s.hostWake)) = true ∨ s.hostWake = true := by
    intro hp hl
    cases hh : s.hostWake with
    | true => exact .inr rfl
    | false => simp [irq_of_proto hg hp, hl]
  refine ⟨(stage_congr rfl rfl rfl rfl rfl rfl).mpr h.stage, h.apart, h.asleep, h.uart, h.awake,
    fun hi => ⟨(h.idle hi).1, (h.idle hi).2.1, fun hl => ?_⟩, h.pulse, fun ha hl => ?_⟩
  · rcases hedge (h.proto_of_working fun hno => by cases hno.symm.trans hi) hl with htask | hh
    · exact .inl htask
    · exact ((h.idle hi).2.2 hh).imp_left fun htask => by simp [htask]
  · rcases hedge (h.asleep ha).1 hl with htask | hh
    · exact .inl htask
    · exact (h.wakes ha hh).imp_left fun htask => by simp [htask]

theorem Sound.step (h : Sound port s) (hg : Gated s) {a : Act} (ha : Apart s a)
    (hs : LowPower.step port s a = some t) : Sound port t := by
  cases a with
  | write w =>
    obtain ⟨hnil, hnone⟩ := ha
    simp only [LowPower.step] at hs
    split_ifs at hs with hfirst
    obtain rfl := Option.some.inj hs
    have hst := h.stage
    rw [hnil] at hst
    rw [hnil]
    refine ⟨?_, fun hi => absurd hnone hi, h.asleep, ?_, h.awake, h.idle, h.pulse, h.wakes⟩
    · simp only [firstPlaces, List.mem_cons, List.not_mem_nil, or_false] at hfirst
      rcases hfirst with rfl | rfl | rfl | rfl <;> exact hst
    · rcases h.uart with hu | ⟨hu, -⟩
      · exact .inl hu
      · rw [hnil] at hu
        cases hu
  | go w irqOk =>
    simp only [LowPower.step] at hs
    split_ifs at hs with hw hfree
    obtain rfl := Option.some.inj hs
    obtain rfl : irqOk = true := ha
    exact h.go hg hw fun he => by simpa [he] using hfree
  | hostWake level => exact h.hostWake hg hs
  | hostwakeTask =>
    simp only [LowPower.step] at hs
    split_ifs at hs
    obtain rfl := Option.some.inj hs
    exact ⟨(stage_congr rfl rfl rfl rfl rfl rfl).mpr h.stage, h.apart, h.asleep, h.uart, h.awake,
      fun hi => ⟨(h.idle hi).1, (h.idle hi).2.1, fun _ => .inr rfl⟩, h.pulse,
      fun _ _ => .inr (.inl rfl)⟩
  | rxTimerExpire =>
    simp only [LowPower.step] at hs
    split_ifs at hs
    obtain rfl := Option.some.inj hs
    exact ⟨(stage_congr rfl rfl rfl rfl rfl rfl).mpr h.stage, h.apart, h.asleep, h.uart, h.awake,
      fun hi => ⟨(h.idle hi).1, (h.idle hi).2.1, fun _ => .inr rfl⟩, h.pulse,
      fun _ _ => .inr (.inl rfl)⟩
  | workBegin => exact h.workBegin ha hs
  | workEnd txEmpty => exact h.workEnd hs

/-! ## Never awake for nothing -/

/-- A driver that is awake with idle lines will look again. -/
structure Looks (s : Lpm) : Prop where
  again : s.proto = true → s.uport = true → s.asleep = false → s.extWake = false →
    s.hostWake = false → s.timerArmed = true ∨ Stirs s
  pulse : s.working = some .pulsing →
    s.timerArmed = true ∨ s.taskPending = true ∨ s.workPending = true

/-- The transmit buffer is empty when the work item looks. -/
def Empty : Act → Prop
  | .workEnd txEmpty => txEmpty = true
  | _ => True

theorem looks_init (hostWake : Bool) : Looks (init hostWake) :=
  ⟨fun h => (by cases h), fun h => (by cases h)⟩

theorem Looks.of_pending (h : t.workPending = true) : Looks t :=
  ⟨fun _ _ _ _ _ => .inr (.inr (.inl h)), fun _ => .inr (.inr h)⟩

theorem Looks.of_armed (h : t.timerArmed = true) : Looks t :=
  ⟨fun _ _ _ _ _ => .inl h, fun _ => .inl h⟩

theorem Looks.go (h : Looks s) (hsound : Sound port s) (hw : w ∈ s.writers) :
    Looks { (writerStep port true s w).1 with
      writers := goOn s.writers w (writerStep port true s w).2 } := by
  obtain ⟨hone, hnone⟩ := hsound.alone hw
  have hst := hsound.stage
  rw [hone] at hst
  have hidle : ∀ {P : Prop} {place}, s.working = some place → P := by
    intro P place hp
    rw [hnone] at hp
    cases hp
  have hoff : ∀ {P : Prop}, s.proto = false → s.proto = true → P :=
    fun hf ht => absurd (ht.symm.trans hf) (by decide)
  cases w with
  | lpmOn => exact ⟨h.again, hidle⟩
  | enabling => exact ⟨fun hp => hoff hst.2.1 hp, hidle⟩
  | starting => exact ⟨h.again, hidle⟩
  | counting => exact ⟨fun hp => hoff hst.2.2.1 hp, hidle⟩
  | refused => exact absurd hst id
  | entered => exact .of_armed rfl
  | pulsed =>
    simp only [writerStep]
    split_ifs <;> exact ⟨fun hp => hoff hst.2.2.1 hp, hidle⟩
  | requested =>
    exact ⟨fun _ _ _ hext => absurd (hext.symm.trans hst.2.2.2.2) (by decide), hidle⟩
  | failed => exact absurd hst id
  | leaving => exact absurd hst id
  | stopping =>
    by_cases hp : s.proto = true
    · simp only [writerStep, if_pos hp, hsuartPower]
      split_ifs <;> exact ⟨fun hno => (by cases hno), hidle⟩
    · simp only [writerStep, if_neg hp]
      exact ⟨h.again, hidle⟩
  | freeing => exact ⟨fun hp => hoff hst.1 hp, hidle⟩
  | disabling => exact ⟨fun hp => hoff hst.1 hp, hidle⟩
  | outgoing =>
    simp only [writerStep]
    split_ifs
    · exact ⟨h.again, hidle⟩
    · exact ⟨fun _ _ _ hext => (by cases hext), hidle⟩
  | powering =>
    simp only [writerStep, hsuartPower]
    split_ifs <;> exact ⟨h.again, hidle⟩
  | allowing => exact .of_pending rfl

theorem Looks.step (h : Looks s) (hsound : Sound port s) (hg : Gated s) {a : Act}
    (ha : Apart s a) (he : Empty a) (hs : LowPower.step port s a = some t) : Looks t := by
  cases a with
  | write w =>
    simp only [LowPower.step] at hs
    split_ifs at hs
    obtain rfl := Option.some.inj hs
    exact ⟨h.again, h.pulse⟩
  | go w irqOk =>
    simp only [LowPower.step] at hs
    split_ifs at hs with hw
    obtain rfl := Option.some.inj hs
    obtain rfl : irqOk = true := ha
    exact h.go hsound hw
  | hostWake level =>
    obtain rfl := Option.some.inj hs
    refine ⟨fun hp hu hasleep hext hlevel => ?_, fun hi => (h.pulse hi).imp_right fun hr =>
      hr.imp_left fun htask => by simp [htask]⟩
    cases hh : s.hostWake with
    | true =>
      obtain rfl : level = false := hlevel
      exact .inr (.inl (by simp [irq_of_proto hg hp]))
    | false =>
      exact (h.again hp hu hasleep hext hh).imp_right fun hr => hr.imp_left fun htask =>
        by simp [htask]
  | hostwakeTask =>
    simp only [LowPower.step] at hs
    split_ifs at hs
    obtain rfl := Option.some.inj hs
    exact .of_pending rfl
  | rxTimerExpire =>
    simp only [LowPower.step] at hs
    split_ifs at hs
    obtain rfl := Option.some.inj hs
    exact .of_pending rfl
  | workBegin =>
    obtain ⟨-, hnone, ⟨-, rfl⟩ | ⟨hoff, rfl⟩⟩ := sleepWorkBegin_cases hs
    · exact ⟨fun _ _ _ _ _ => .inr (.inr (.inr (by simp))), fun hi => (by cases hi)⟩
    · have hst := hsound.stage
      rw [show s.writers = [] from ha] at hst
      refine ⟨fun hp => absurd (hp.symm.trans (hst.1.trans hoff)) (by decide), fun hi => ?_⟩
      cases hnone.symm.trans hi
  | workEnd txEmpty =>
    obtain rfl : txEmpty = true := he
    have hcases := sleepWorkEnd_cases hs
    cases hcases with
    | already hwork hasleep =>
      exact ⟨fun _ _ hno => absurd (hno.symm.trans hasleep) (by decide), fun hi => (by cases hi)⟩
    | slept hwork hasleep hu ht => exact ⟨fun _ _ hno => (by cases hno), fun hi => (by cases hi)⟩
    | busy hwork hasleep ht => cases ht
    | woke hwork hasleep =>
      refine .of_armed ?_
      unfold hsuartPower
      split_ifs <;> rfl
    | pulse hwork hasleep hext => exact .of_armed rfl
    | again hwork hasleep => exact .of_armed rfl
    | pulsed hwork =>
      rcases h.pulse hwork with harmed | htask | hpending
      · exact .of_armed harmed
      · exact ⟨fun _ _ _ _ _ => .inr (.inl htask), fun hi => (by cases hi)⟩
      · exact .of_pending hpending

/-! ## Runs -/

/-- Nothing is left to do. -/
def Settled (s : Lpm) : Prop := s.timerArmed = false ∧ ¬ Stirs s ∧ s.writers = []

/-- What is asserted, what is off and what is held agree with the lines and with being asleep. -/
structure Right (s : Lpm) : Prop where
  uart : s.writers = [] → s.uartOn = !s.asleep
  awake : s.proto = true → s.stayAwake = !s.asleep
  enabled : s.writers = [] → s.proto = s.hasLpmEnabled
  asleep : s.asleep = true → s.proto = true ∧ s.extWake = false
  wakes : s.asleep = true → s.hostWake = true → Stirs s
  port : s.working = some (.answered true) → s.uport = true

theorem Sound.right (h : Sound port s) : Right s where
  uart hw := by
    rcases h.uart with hu | ⟨hu, -⟩
    · exact hu
    · rw [hw] at hu
      cases hu
  awake := h.awake
  enabled hw := by
    have hst := h.stage
    rw [hw] at hst
    exact hst.1
  asleep ha := ⟨(h.asleep ha).1, (h.asleep ha).2.2⟩
  wakes := h.wakes
  port hw := (h.idle hw).2.1

/-- The mode is switched on and the line of Bluetooth is let go. -/
def sleeps : List Act :=
  [.write .lpmOn, .go .lpmOn true, .go .enabling true, .go .starting true, .go .counting true,
   .go .entered true, .go .pulsed true, .go .requested true, .write .allowing, .go .allowing true,
   .workBegin, .workEnd true, .rxTimerExpire, .workBegin, .workEnd true]

def slept : Lpm :=
  { started with
    extWake := false, asleep := true, txidle := true, uartOn := false, timerArmed := false
    stayAwake := false }

end AIC.LowPowerSettled
