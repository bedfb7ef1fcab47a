import Aic8800.Lib.GuardedRun
import Aic8800.RadarPattern

/-!
# The time base of the radar pulses

Pulses come at real times, with the time since the one before where 16 bits hold it, and
with the jiffies counter. The time stamp of each is to be as far from `last_pulse_ts` as
the pulse is from the one before.
-/

set_option autoImplicit false

namespace AIC.RadarTimeBase
open AIC.RadarPattern Lib.GuardedRun

/-- What `last_pulse_ts` was, what it became, and the real time between. -/
structure Stamp where
  base : ℕ
  stamp : ℕ
  gap : ℕ
  deriving DecidableEq

/-- A detector in use. `time` is that of the last pulse, and `stamped` tells of its time stamp,
where it is not the first. -/
structure State where
  dpd : Dpd
  time : Option ℕ
  stamped : Option Stamp

/-- A pulse received at a time. `first` is the pri if it is the first one. -/
structure Received where
  time : ℕ
  freq : ℕ
  len : ℕ
  first : ℕ
  jiffies : ℕ
  mem : ℕ → Mem

variable (usecs boot : ℕ)

/-- The jiffies counter, of 32 bits. -/
def clock (time : ℕ) : ℕ := (boot+time/usecs) % 2^32

/-- The time since the previous pulse, or 0 where it is too long. -/
def priOf (before : Option ℕ) (r : Received) : ℕ :=
  match before with
  | none => r.first
  | some t => if r.time-t ≤ 65535 then r.time-t else 0

def pulse (before : Option ℕ) (r : Received) : Pulse :=
  ⟨r.freq, priOf before r, r.len, clock usecs boot r.time, r.jiffies, r.mem⟩

/-- Times increase. Those on both sides of a long gap are whole jiffies, and the gap has 32 bits. -/
def Timed (before : Option ℕ) (r : Received) : Prop :=
  ∀ t ∈ before, t < r.time ∧
    (65535 < r.time-t → usecs ∣ t ∧ usecs ∣ r.time ∧ r.time-t < 2^32)

instance (before : Option ℕ) (r : Received) : Decidable (Timed usecs before r) :=
  match before with
  | none => .isTrue nofun
  | some t => decidable_of_iff (t < r.time ∧
      (65535 < r.time-t → usecs ∣ t ∧ usecs ∣ r.time ∧ r.time-t < 2^32)) (by simp [Timed])

/-- Without a domain a pulse has no time stamp. -/
def stampOf (s : State) (r : Received) : Option Stamp :=
  if s.dpd.region = .unset then none
  else s.time.map fun t =>
    ⟨s.dpd.lastPulseTs, timeStamp usecs s.dpd (pulse usecs boot s.time r), r.time-t⟩

def step (s : State) (r : Received) : Option State :=
  if Timed usecs s.time r then
    (dfsPatternDetectorAddPulse usecs s.dpd (pulse usecs boot s.time r)).map fun res =>
      ⟨res.1, some r.time, stampOf usecs boot s r⟩
  else none

def start (region : Region) (types : List RadarType) (jiffies : ℕ) : State :=
  ⟨dfsPatternDetectorInit region types jiffies, none, none⟩

/-- The time stamp is as far from the value before as the pulse from the one before, in 64 bits. -/
def Exact (s : State) : Prop := ∀ st ∈ s.stamped, st.stamp = (st.base+st.gap) % 2^64

/-- Behind a long gap the stored jiffies are those of the pulse before, and the counter did not
wrap since. -/
def Referred (s : State) (r : Received) : Prop :=
  ∀ t ∈ s.time, 65535 < r.time-t →
    s.dpd.prevJiffies = clock usecs boot t ∧ clock usecs boot t ≤ clock usecs boot r.time

instance (s : State) (r : Received) : Decidable (Referred usecs boot s r) :=
  match h : s.time with
  | none => .isTrue (by rw [Referred, h]; nofun)
  | some t => decidable_of_iff (65535 < r.time-t →
      s.dpd.prevJiffies = clock usecs boot t ∧ clock usecs boot t ≤ clock usecs boot r.time)
      (by rw [Referred, h]; simp)

variable {usecs boot}

/-- Jiffies that were counted without a wrap stand for the time between. -/
theorem usecs_between {t t' : ℕ} (hlt : t < t') (ht : usecs ∣ t) (ht' : usecs ∣ t')
    (hle : clock usecs boot t ≤ clock usecs boot t') (hfits : t'-t < 2^32) :
    jiffiesToUsecs usecs (clock usecs boot t'-clock usecs boot t) = t'-t := by
  obtain ⟨m, rfl⟩ := ht
  obtain ⟨m', rfl⟩ := ht'
  have hpos : 0 < usecs := Nat.pos_of_ne_zero (by rintro rfl; omega)
  unfold clock at hle ⊢
  rw [Nat.mul_div_cancel_left m hpos, Nat.mul_div_cancel_left m' hpos] at hle ⊢
  have hm : m < m' := Nat.lt_of_mul_lt_mul_left hlt
  have hgap : usecs*m'-usecs*m = usecs*(m'-m) := (Nat.mul_sub usecs m' m).symm
  have hcount : m'-m = (boot+m') % 2^32-(boot+m) % 2^32+
      2^32*((boot+m')/2^32-(boot+m)/2^32) := by omega
  rw [hgap] at hfits ⊢
  calc jiffiesToUsecs usecs ((boot+m') % 2^32-(boot+m) % 2^32)
      = usecs*((boot+m') % 2^32-(boot+m) % 2^32) % 2^32 := rfl
    _ = usecs*(m'-m) % 2^32 := by
        rw [hcount, Nat.mul_add, Nat.mul_left_comm, Nat.add_mul_mod_self_left]
    _ = usecs*(m'-m) := Nat.mod_eq_of_lt hfits

theorem advance_eq {s : State} {r : Received} {t : ℕ} (ht : s.time = some t)
    (htimed : Timed usecs s.time r) (hreferred : Referred usecs boot s r) :
    advance usecs s.dpd (pulse usecs boot s.time r) = r.time-t := by
  obtain ⟨hlt, hlong⟩ := htimed t ht
  by_cases hgap : r.time-t ≤ 65535
  · have hpri : priOf s.time r = r.time-t := by rw [ht]; exact if_pos hgap
    show (if priOf s.time r = 0 then _ else priOf s.time r) = r.time-t
    rw [hpri, if_neg (by omega)]
  · have hpri : priOf s.time r = 0 := by rw [ht]; exact if_neg hgap
    obtain ⟨hdvd, hdvd', hfits⟩ := hlong (Nat.lt_of_not_le hgap)
    obtain ⟨hprev, hle⟩ := hreferred t ht (Nat.lt_of_not_le hgap)
    show (if priOf s.time r = 0 then jiffiesToUsecs usecs
      (deltaJiffie s.dpd.prevJiffies (clock usecs boot r.time)) else _) = r.time-t
    rw [if_pos hpri, hprev, deltaJiffie, if_neg (Nat.not_lt.mpr hle)]
    exact usecs_between hlt hdvd hdvd' hle hfits

theorem step_exact {s s' : State} {r : Received} (hreferred : Referred usecs boot s r)
    (hstep : step usecs boot s r = some s') : Exact s' := by
  unfold step at hstep
  by_cases htimed : Timed usecs s.time r
  · rw [if_pos htimed] at hstep
    obtain ⟨res, -, rfl⟩ := Option.map_eq_some_iff.mp hstep
    intro st hst
    have hstamp : stampOf usecs boot s r = some st := hst
    unfold stampOf at hstamp
    split_ifs at hstamp
    obtain ⟨t, ht, rfl⟩ := Option.map_eq_some_iff.mp hstamp
    show (s.dpd.lastPulseTs+advance usecs s.dpd _) % 2^64 = _
    rw [advance_eq ht htimed hreferred]
  · rw [if_neg htimed] at hstep
    cases hstep

/-- In a run whose long gaps are all measured from the pulse before, without a wrap of the counter,
every time stamp is exact. -/
theorem stamps_exact (usecs boot : ℕ) (region : Region) (types : List RadarType) (jiffies : ℕ)
    (received : List Received)
    (h : Meets (step usecs boot) (Referred usecs boot) (start region types jiffies) received) :
    Throughout (step usecs boot) Exact (start region types jiffies) received :=
  throughout_of_meets (J := Exact) (fun _ _ _ hreferred hstep _ => step_exact hreferred hstep)
    (fun _ h => h) (fun st hst => absurd hst (Option.not_mem_none st)) h

/-- A pulse of a width that no radar type has. -/
def receivedAt (time : ℕ) : Received := ⟨time, 5500, 200, 0, 0, fun _ => ⟨true, 0, true⟩⟩

theorem stamps_exact_whole_jiffies : Throughout (step 10000 0) Exact
    (start .fcc fccRadarRefTypesRiu 0) ([0, 100000, 200000, 250000].map receivedAt) :=
  stamps_exact 10000 0 .fcc fccRadarRefTypesRiu 0 _ (by decide)

/-- A long gap behind a short one is measured from the last long one. -/
theorem mixed_gaps : ¬ Throughout (step 10000 0) Exact (start .fcc fccRadarRefTypesRiu 0)
    ([0, 50000, 150000].map receivedAt) := by
  intro h
  have hexact := h _ (List.prefix_refl _) _ rfl _ rfl
  exact absurd hexact (by decide)

/-- A gap across the wrap of the counter loses a jiffy. -/
theorem wrapped_gap : ¬ Throughout (step 10000 4294967286) Exact
    (start .fcc fccRadarRefTypesRiu 4294967286) ([0, 200000].map receivedAt) := by
  intro h
  have hexact := h _ (List.prefix_refl _) _ rfl _ rfl
  exact absurd hexact (by decide)

end AIC.RadarTimeBase
