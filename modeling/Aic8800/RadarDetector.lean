import Aic8800.Lib.GuardedRun
import Mathlib.Algebra.Order.Ring.Nat
import Mathlib.Data.List.DropRight

/-!
# The detector of short radar patterns

`pde_short_add_pulse` with the pulse queue and the sequences of one `pri_detector`, as
`dfs_pattern_detector_add_pulse` uses it: a sequence that is returned resets the
detector. What `kmalloc` gives comes with each pulse.
-/

set_option autoImplicit false

namespace AIC.RadarDetector
open Lib.GuardedRun

inductive RadarWaveformType where
  | short | weather | interleaved | long
  deriving DecidableEq

/-- A spec of which a sequence of pulses can be told from the tolerance. -/
structure RadarDetectorSpecs where
  priMin : ℕ
  priMax : ℕ
  numPri : ℕ
  ppb : ℕ
  ppbThresh : ℕ
  maxPriTolerance : ℕ
  type : RadarWaveformType
  tolerance_pos : 0 < maxPriTolerance
  tolerance_lt : maxPriTolerance < priMin
  pri_le : priMin ≤ priMax
  two_le_ppb : 2 ≤ ppb
  pri_u16 : priMax < 65536
  numPri_u8 : numPri < 256
  ppb_u8 : ppb < 256
  ppbThresh_u8 : ppbThresh < 256
  tolerance_u8 : maxPriTolerance < 256

structure PriSequence where
  pri : ℕ
  dur : ℕ
  count : ℕ
  countFalses : ℕ
  firstTs : ℕ
  lastTs : ℕ
  deadlineTs : ℕ
  ppbThresh : ℕ
  deriving DecidableEq

/-- The newest pulse and the newest sequence stand first. `count` is the length of `pulses`. -/
structure PriDetector where
  lastTs : ℕ
  sequences : List PriSequence
  pulses : List ℕ
  deriving DecidableEq

/-- A value as u32. -/
def u32 (n : ℕ) : ℕ := n % 2^32

def PPB_THRESH (ppb : ℕ) : ℕ := (ppb*50+50)/100

variable (rs : RadarDetectorSpecs)

/-- `pde_short_init`. -/
def windowSize : ℕ := u32 (rs.priMax*rs.ppb*rs.numPri)

def maxCount : ℕ := rs.ppb*2

def priDetectorReset (ts : ℕ) : PriDetector := ⟨ts, [], []⟩

def pulseQueueCheckWindow (lastTs : ℕ) (pulses : List ℕ) : List ℕ :=
  if pulses.length < 2 then pulses
  else if lastTs ≤ windowSize rs then pulses
  else pulses.rdropWhile fun ts => ts < lastTs-windowSize rs

def pulseQueueEnqueue (mem : Bool) (ts : ℕ) (pde : PriDetector) : PriDetector :=
  if mem then
    let pulses := pulseQueueCheckWindow rs ts (ts::pde.pulses)
    { pde with
      lastTs := ts
      pulses := if pulses.length ≥ maxCount rs then pulses.dropLast else pulses }
  else pde

def pdeGetMultiple (val fraction tolerance : ℕ) : ℕ :=
  if fraction = 0 then 0
  else
    let delta := if val < fraction then fraction-val else val-fraction
    if delta ≤ tolerance then 1
    else
      let factor := val/fraction
      let remainder := val % fraction
      if remainder > tolerance then
        if fraction-remainder ≤ tolerance then factor+1 else 0
      else factor

def dur (pri : ℕ) : ℕ := pri*(rs.ppb-1)+2*rs.maxPriTolerance

/-- The threshold of a sequence, a u8. -/
def ppbThreshOf (pri : ℕ) : ℕ :=
  if rs.type = .weather then PPB_THRESH (19000000/(360*pri) % 256) % 256 else rs.ppbThresh

/-- The pulses before the one that gives the period, down to the start of the window. `tmp` are
the pulses since the last one that matched. -/
def backScan (minValidTs : ℕ) : List ℕ → ℕ → PriSequence → PriSequence
  | [], _, ps => ps
  | p2::older, tmp, ps =>
    if p2 < minValidTs then ps
    else if 0 < pdeGetMultiple (u32 (ps.lastTs-p2)) ps.pri rs.maxPriTolerance then
      backScan minValidTs older 0
        { ps with count := ps.count+1, firstTs := p2, countFalses := ps.countFalses+tmp }
    else backScan minValidTs older (tmp+1) ps

def minValidTs (ts pri : ℕ) : ℕ := if dur rs pri > ts then 0 else ts-dur rs pri

/-- The sequence of the new pulse and the queued pulse `p`, with `idx` pulses between. -/
def candidate (ts idx p : ℕ) (older : List ℕ) : PriSequence :=
  let pri := u32 (ts-p)
  backScan rs (minValidTs rs ts pri) older 0
    { pri := pri, dur := dur rs pri, count := 2, countFalses := idx, firstTs := p, lastTs := ts,
      deadlineTs := 0, ppbThresh := 0 }

def finish (ps : PriSequence) : PriSequence :=
  { ps with deadlineTs := (ps.firstTs+ps.dur) % 2^64, ppbThresh := ppbThreshOf rs ps.pri }

/-- `mem` is the number of sequences there is memory for. The result is false if there was none. -/
def createSequences (ts minCount : ℕ) :
    ℕ → ℕ → List ℕ → List PriSequence → Bool × List PriSequence
  | _, _, [], seqs => (true, seqs)
  | mem, idx, p::older, seqs =>
    let deltaTs := u32 (ts-p)
    if deltaTs < rs.priMin then createSequences ts minCount mem (idx+1) older seqs
    else if deltaTs > rs.priMax then (true, seqs)
    else
      let ps := candidate rs ts idx p older
      if ps.count ≤ minCount then createSequences ts minCount mem (idx+1) older seqs
      else match mem with
        | 0 => (false, seqs)
        | mem+1 => createSequences ts minCount mem (idx+1) older (finish rs ps::seqs)

def factor (ts : ℕ) (ps : PriSequence) : ℕ :=
  pdeGetMultiple (u32 (ts-ps.lastTs)) ps.pri rs.maxPriTolerance

/-- The pulse against a sequence that is not too old. -/
def extend (ts : ℕ) (ps : PriSequence) : PriSequence :=
  if 0 < factor rs ts ps then { ps with lastTs := ts, count := ps.count+1 }
  else { ps with countFalses := ps.countFalses+1 }

/-- The length of the longest sequence that took the pulse, and the sequences. -/
def addToExistingSeqs (ts : ℕ) : List PriSequence → ℕ × List PriSequence
  | [] => (0, [])
  | ps::seqs =>
    let (maxCount, rest) := addToExistingSeqs ts seqs
    if ts > ps.deadlineTs then (maxCount, rest)
    else
      let extended := extend rs ts ps
      (if 0 < factor rs ts ps then max extended.count maxCount else maxCount, extended::rest)

def complete (ps : PriSequence) : Bool :=
  ps.count ≥ ps.ppbThresh && ps.count*rs.numPri > ps.countFalses

def checkDetection (pde : PriDetector) : Option PriSequence := pde.sequences.find? (complete rs)

def pdeShortAddPulse (seqMem : ℕ) (pulseMem : Bool) (ts : ℕ) (pde : PriDetector) :
    PriDetector × Option PriSequence :=
  if pde.pulses.length = 0 then (pulseQueueEnqueue rs pulseMem ts pde, none)
  else if ts-pde.lastTs < rs.maxPriTolerance then (pde, none)
  else
    let (maxUpdatedSeq, seqs) := addToExistingSeqs rs ts pde.sequences
    match createSequences rs ts maxUpdatedSeq seqMem 0 pde.pulses seqs with
    | (false, _) => (priDetectorReset ts, none)
    | (true, seqs) =>
      let pde := { pde with sequences := seqs }
      match checkDetection rs pde with
      | none => (pulseQueueEnqueue rs pulseMem ts pde, none)
      | some ps => (pde, some ps)

/-- A detector in use. `fed` are the pulses it was given, the newest first. -/
structure State where
  pde : PriDetector
  fed : List ℕ
  returned : Option PriSequence
  deriving DecidableEq

/-- A reset is that of `dfs_pattern_detector_pri_overflow`. -/
inductive Op where
  | pulse (ts seqMem : ℕ) (pulseMem : Bool)
  | reset (ts : ℕ)
  deriving DecidableEq

def answered (ts : ℕ) (fed : List ℕ) (res : PriDetector × Option PriSequence) : State :=
  ⟨if res.2.isSome then priDetectorReset ts else res.1, ts::fed, res.2⟩

/-- Time stamps are u64 and increase. -/
def step (st : State) : Op → Option State
  | .pulse ts seqMem pulseMem =>
    if ts < 2^64 ∧ ∀ t ∈ st.fed, t < ts then
      some (answered ts st.fed (pdeShortAddPulse rs seqMem pulseMem ts st.pde))
    else none
  | .reset ts => some { st with pde := priDetectorReset ts, returned := none }

def start (ts : ℕ) : State := ⟨priDetectorReset ts, [], none⟩

end AIC.RadarDetector
