import Aic8800.RadarDetector

/-!
# The pattern detector of a chain

`dfs_pattern_detector_add_pulse` over the detectors of all radar types and frequencies,
with the clock that it keeps for the pulses. The count of a pulse queue is a field of its
own here. Differences of time stamps are those of the source as long as the clock of
64 bits does not wrap.
-/

set_option autoImplicit false

namespace AIC.RadarPattern
open AIC.RadarDetector (PriDetector PriSequence RadarDetectorSpecs u32 addToExistingSeqs
  createSequences checkDetection)

/-- `enum nl80211_dfs_regions`. -/
inductive Region where
  | unset | fcc | etsi | jp
  deriving DecidableEq

/-- A spec with the range of its pulse widths. -/
structure RadarType extends RadarDetectorSpecs where
  widthMin : ℕ
  widthMax : ℕ

/-- A `pri_detector` with its frequency. -/
structure Pde extends PriDetector where
  freq : ℕ
  count : ℕ
  deriving DecidableEq

def LONG_RADAR_DURATION : ℕ := 12000000

def LONG_RADAR_BURST_MIN_DURATION : ℕ := 12000000/20

def LONG_RADAR_MAX_BURST : ℕ := 20

/-- What the allocations for a pulse give. -/
structure Mem where
  pde : Bool
  seqs : ℕ
  pulse : Bool

section Detector
variable (rs : RadarDetectorSpecs)

/-- The window that `init` sets. -/
def windowSize : ℕ := if rs.type = .long then LONG_RADAR_DURATION else RadarDetector.windowSize rs

def maxCount : ℕ := if rs.type = .long then LONG_RADAR_MAX_BURST else RadarDetector.maxCount rs

def pulseQueueDequeue (pde : Pde) : Pde :=
  if pde.pulses = [] then pde
  else { pde with pulses := pde.pulses.dropLast, count := u32 (pde.count+(2^32-1)) }

/-- The loop of `pulse_queue_check_window`, with a bound on its turns. -/
def dequeueOlder (minValidTs : ℕ) : ℕ → Pde → Pde
  | 0, pde => pde
  | n+1, pde => match pde.pulses.getLast? with
    | none => pde
    | some ts =>
      if ts ≥ minValidTs then pde else dequeueOlder minValidTs n (pulseQueueDequeue pde)

def pulseQueueCheckWindow (pde : Pde) : Pde :=
  if pde.count < 2 then pde
  else if pde.lastTs ≤ windowSize rs then pde
  else dequeueOlder (pde.lastTs-windowSize rs) pde.pulses.length pde

/-- The new pulse in the queue, before those that are too old leave it. -/
def queued (ts : ℕ) (pde : Pde) : Pde :=
  { pde with lastTs := ts, pulses := ts::pde.pulses, count := u32 (pde.count+1) }

def pulseQueueEnqueue (mem : Bool) (ts : ℕ) (pde : Pde) : Pde :=
  if mem then
    let pde := pulseQueueCheckWindow rs (queued ts pde)
    if pde.count ≥ maxCount rs then pulseQueueDequeue pde else pde
  else pde

def priDetectorReset (ts : ℕ) (pde : Pde) : Pde :=
  { pde with lastTs := ts, sequences := [], pulses := [], count := 0 }

def setSequences (pde : Pde) (seqs : List PriSequence) : Pde := { pde with sequences := seqs }

def pdeShortAddPulse (mem : Mem) (ts : ℕ) (pde : Pde) : Pde × Option PriSequence :=
  if pde.count = 0 then (pulseQueueEnqueue rs mem.pulse ts pde, none)
  else if ts-pde.lastTs < rs.maxPriTolerance then (pde, none)
  else
    let (maxUpdatedSeq, seqs) := addToExistingSeqs rs ts pde.sequences
    match createSequences rs ts maxUpdatedSeq mem.seqs 0 pde.pulses seqs with
    | (false, _) => (priDetectorReset ts pde, none)
    | (true, seqs) =>
      let pde := setSequences pde seqs
      match checkDetection rs pde.toPriDetector with
      | none => (pulseQueueEnqueue rs mem.pulse ts pde, none)
      | some ps => (pde, some ps)

/-- The first pulse of a long pattern. Its `dur` is not read before it is set. -/
def longSequence (ts : ℕ) : PriSequence :=
  { pri := 0, dur := 0, count := 1, countFalses := 1, firstTs := ts, lastTs := ts,
    deadlineTs := (ts+windowSize rs) % 2^64, ppbThresh := 0 }

/-- The bursts that are too old leave the sequence. -/
def expireBursts (minValidTs : ℕ) : ℕ → PriSequence → Pde → PriSequence × Pde
  | 0, ps, pde => (ps, pde)
  | n+1, ps, pde => match pde.pulses.getLast? with
    | none => (ps, pde)
    | some ts =>
      if ts ≥ minValidTs then
        ({ ps with firstTs := ts, deadlineTs := (ts+windowSize rs) % 2^64 }, pde)
      else expireBursts minValidTs n { ps with count := ps.count-1 } (pulseQueueDequeue pde)

def newBurst (ts : ℕ) (ps : PriSequence) (pde : Pde) : PriSequence × Pde :=
  if ts > ps.deadlineTs then expireBursts rs (ts-windowSize rs) pde.pulses.length ps pde
  else (ps, pde)

def pdeLongAddPulse (mem : Mem) (ts : ℕ) (pde : Pde) : Pde × Option PriSequence :=
  match pde.sequences with
  | [] =>
    if mem.seqs = 0 then (pde, none)
    else (pulseQueueEnqueue rs mem.pulse ts (setSequences pde [longSequence rs ts]), none)
  | ps::rest =>
    let deltaTs := u32 (ts-ps.lastTs)
    let ps := { ps with lastTs := ts }
    if deltaTs < rs.priMax then (setSequences pde (ps::rest), none)
    else if deltaTs ≥ rs.priMin ∧ deltaTs ≤ rs.priMax then
      (setSequences pde ({ ps with countFalses := ps.countFalses+1 }::rest), none)
    else if ps.count > 2 ∧ u32 (ps.dur+deltaTs) < LONG_RADAR_BURST_MIN_DURATION then
      (setSequences pde (ps::rest), none)
    else
      let (ps, pde) := newBurst rs ts { ps with count := ps.count+1, countFalses := 1 } pde
      if ps.count > rs.ppbThresh ∧ ts-ps.firstTs > windowSize rs/2 then
        (setSequences pde (ps::rest), some ps)
      else
        (pulseQueueEnqueue rs mem.pulse ts (setSequences pde ({ ps with dur := deltaTs }::rest)),
          none)

/-- `ops->add_pulse`. -/
def addPulse (mem : Mem) (ts : ℕ) (pde : Pde) : Pde × Option PriSequence :=
  if rs.type = .long then pdeLongAddPulse rs mem ts pde else pdeShortAddPulse rs mem ts pde

end Detector

def priDetectorInit (freq : ℕ) : Pde := ⟨⟨0, [], []⟩, freq, 0⟩

/-- The place of the detector for a frequency. `cur` is that of an unused one. -/
def priDetectorFind (freq : ℕ) : ℕ → Option ℕ → List Pde → Option ℕ
  | _, cur, [] => cur
  | i, cur, pde::pdes =>
    if pde.freq = freq then
      if pde.count ≠ 0 then some i else priDetectorFind freq (i+1) (some i) pdes
    else if pde.freq = freq+2 ∧ pde.count ≠ 0 then some i
    else if pde.freq+2 = freq ∧ pde.count ≠ 0 then some i
    else priDetectorFind freq (i+1) cur pdes

/-- The place of the detector, with the list it is in. -/
def priDetectorGet (mem : Bool) (freq : ℕ) (pdes : List Pde) : Option (ℕ × List Pde) :=
  match priDetectorFind freq 0 none pdes with
  | some i => some (i, pdes)
  | none => if mem then some (0, priDetectorInit freq::pdes) else none

/-- A radar type with `detectors[i]`. -/
structure Band where
  rs : RadarType
  pdes : List Pde

/-- `struct dfs_pattern_detector`. -/
structure Dpd where
  region : Region
  lastPulseTs : ℕ
  prevJiffies : ℕ
  bands : List Band

/-- The arguments of a call. `jiffies` is what a reset reads. -/
structure Pulse where
  freq : ℕ
  pri : ℕ
  len : ℕ
  now : ℕ
  jiffies : ℕ
  mem : ℕ → Mem

/-- The pulse given to the detector for its frequency. Without memory for a new detector the null
pointer is followed. -/
def feed (rs : RadarDetectorSpecs) (freq ts : ℕ) (mem : Mem) (pdes : List Pde) :
    Option (List Pde × Option PriSequence) :=
  (priDetectorGet mem.pde freq pdes).bind fun (i, pdes) =>
    pdes[i]?.map fun pde =>
      let (pde, ps) := addPulse rs mem ts pde
      (pdes.set i pde, ps)

/-- The width is not that of the type. -/
def OutOfRange (rs : RadarType) (len : ℕ) : Prop := rs.widthMin > len ∨ rs.widthMax < len

instance (rs : RadarType) (len : ℕ) : Decidable (OutOfRange rs len) :=
  inferInstanceAs (Decidable (_ ∨ _))

/-- The loop over the radar types from the `i`th on. It ends with the first pattern. -/
def addToBands (p : Pulse) (ts : ℕ) : ℕ → List Band → Option (List Band × Bool)
  | _, [] => some ([], false)
  | i, band::bands =>
    if OutOfRange band.rs p.len then
      (addToBands p ts (i+1) bands).map fun (rest, found) => (band::rest, found)
    else
      (feed band.rs.toRadarDetectorSpecs p.freq ts (p.mem i) band.pdes).bind fun (pdes, ps) =>
        if ps.isSome then some ({ band with pdes := pdes }::bands, true)
        else (addToBands p ts (i+1) bands).map fun (rest, found) =>
          ({ band with pdes := pdes }::rest, found)

namespace Band

def reset (ts : ℕ) (band : Band) : Band := { band with pdes := band.pdes.map (priDetectorReset ts) }

/-- A long pattern has `reset_on_pri_overflow` 0. -/
def overflow (ts : ℕ) (band : Band) : Band := if band.rs.type = .long then band else band.reset ts

end Band

def dfsPatternDetectorReset (jiffies : ℕ) (dpd : Dpd) : Dpd :=
  { dpd with
    lastPulseTs := 0
    prevJiffies := jiffies
    bands := dpd.bands.map (·.reset dpd.lastPulseTs) }

def dfsPatternDetectorPriOverflow (dpd : Dpd) : Dpd :=
  { dpd with bands := dpd.bands.map (·.overflow dpd.lastPulseTs) }

/-- A jiffy has `usecs` microseconds, a divisor of a second. -/
def jiffiesToUsecs (usecs j : ℕ) : ℕ := u32 (usecs*j)

def deltaJiffie (prevJiffies now : ℕ) : ℕ :=
  if now < prevJiffies then 0xffffffff-prevJiffies+now else now-prevJiffies

/-- What a pulse adds to the clock. -/
def advance (usecs : ℕ) (dpd : Dpd) (p : Pulse) : ℕ :=
  if p.pri = 0 then jiffiesToUsecs usecs (deltaJiffie dpd.prevJiffies p.now) else p.pri

/-- The time stamp of the pulse. -/
def timeStamp (usecs : ℕ) (dpd : Dpd) (p : Pulse) : ℕ :=
  (dpd.lastPulseTs+advance usecs dpd p) % 2^64

/-- The detector when the loop starts. -/
def clocked (usecs : ℕ) (dpd : Dpd) (p : Pulse) : Dpd :=
  if p.pri = 0 then
    dfsPatternDetectorPriOverflow
      { dpd with lastPulseTs := timeStamp usecs dpd p, prevJiffies := p.now }
  else { dpd with lastPulseTs := timeStamp usecs dpd p }

def dfsPatternDetectorAddPulse (usecs : ℕ) (dpd : Dpd) (p : Pulse) : Option (Dpd × Bool) :=
  if dpd.region = .unset then some (dpd, true)
  else
    let dpd := clocked usecs dpd p
    (addToBands p dpd.lastPulseTs 0 dpd.bands).map fun (bands, found) =>
      if found then (dfsPatternDetectorReset p.jiffies { dpd with bands := bands }, true)
      else ({ dpd with bands := bands }, false)

/-- `dfs_pattern_detector_init`. -/
def dfsPatternDetectorInit (region : Region) (types : List RadarType) (jiffies : ℕ) : Dpd :=
  ⟨region, 0, jiffies, types.map (⟨·, []⟩)⟩

def PRI_TOLERANCE : ℕ := 16

/-- `FCC_PATTERN`. -/
def fccPattern (wmin wmax pmin pmax prf ppb : ℕ) (type : RadarDetector.RadarWaveformType)
    (h : 32 < pmin ∧ pmin ≤ pmax*prf ∧ 2 ≤ ppb*prf ∧ pmax*prf+16 < 65536 ∧ prf < 256 ∧
      ppb*prf < 256 ∧ RadarDetector.PPB_THRESH ppb < 256 := by decide) : RadarType where
  widthMin := wmin
  widthMax := wmax
  priMin := pmin-PRI_TOLERANCE
  priMax := pmax*prf+PRI_TOLERANCE
  numPri := prf
  ppb := ppb*prf
  ppbThresh := RadarDetector.PPB_THRESH ppb
  maxPriTolerance := PRI_TOLERANCE
  type := type
  tolerance_pos := by decide
  tolerance_lt := Nat.lt_sub_of_add_lt h.1
  pri_le := (Nat.sub_le _ _).trans (h.2.1.trans (Nat.le_add_right _ _))
  two_le_ppb := h.2.2.1
  pri_u16 := h.2.2.2.1
  numPri_u8 := h.2.2.2.2.1
  ppb_u8 := h.2.2.2.2.2.1
  ppbThresh_u8 := h.2.2.2.2.2.2
  tolerance_u8 := by decide

def fccRadarRefTypesRiu : List RadarType :=
  [fccPattern 0 8 1428 1428 1 18 .short, fccPattern 0 8 518 3066 1 102 .weather,
    fccPattern 0 8 150 230 1 23 .short, fccPattern 6 20 200 500 1 16 .short,
    fccPattern 10 28 200 500 1 12 .short, fccPattern 50 110 1000 2000 1 8 .long,
    fccPattern 0 8 333 333 1 9 .short]

end AIC.RadarPattern
