import Aic8800.RadarPattern
import Aic8800.RadarSoundness

/-!
# What the detectors keep

The queues and the sequences of all detectors, over every run of pulses. A pulse that
meets a detector whose queued pulses are 2^32 microseconds old or older cuts the time
between.
-/

set_option autoImplicit false

namespace AIC.RadarInvariant
open AIC.RadarDetector (PriDetector PriSequence RadarDetectorSpecs u32 dur addToExistingSeqs
  createSequences checkDetection candidate finish)
open AIC.RadarPattern AIC.RadarSoundness Lib.GuardedRun

/-- The queue is counted and below its limit, the newest pulse stands first, and the others are in
the window of the newest. -/
structure QueueOk (rs : RadarDetectorSpecs) (pde : Pde) : Prop where
  count : pde.count = pde.pulses.length
  below : pde.count < maxCount rs
  sorted : pde.pulses.Pairwise (· > ·)
  newest : ∀ ts ∈ pde.pulses.head?, ts = pde.lastTs
  window : 2 ≤ pde.pulses.length → ∀ ts ∈ pde.pulses, pde.lastTs ≤ ts+windowSize rs

structure SequenceOk (rs : RadarDetectorSpecs) (ps : PriSequence) : Prop where
  count : 2 ≤ ps.count
  pri : rs.priMin ≤ ps.pri ∧ ps.pri ≤ rs.priMax
  first : ps.firstTs < ps.lastTs
  last : ps.lastTs ≤ ps.deadlineTs
  deadline : ps.deadlineTs = ps.firstTs+ps.dur

structure PdeOk (rs : RadarDetectorSpecs) (pde : Pde) : Prop where
  queue : QueueOk rs pde
  sequences : rs.type ≠ .long → ∀ ps ∈ pde.sequences, SequenceOk rs ps

/-- Every detector of every radar type. -/
def AllOk (dpd : Dpd) : Prop :=
  ∀ band ∈ dpd.bands, ∀ pde ∈ band.pdes, PdeOk band.rs.toRadarDetectorSpecs pde

variable (rs : RadarDetectorSpecs)

/-- No sequence of the pulse starts from a queued one that is 2^32 microseconds old, or has a
deadline beyond 64 bits. -/
def Fresh (ts : ℕ) (pde : Pde) : Prop :=
  rs.type ≠ .long → rs.maxPriTolerance ≤ ts-pde.lastTs →
    ∀ p ∈ scanned rs ts pde.pulses, rs.priMin ≤ u32 (ts-p) →
      ts-p < 2^32 ∧ p+dur rs (ts-p) < 2^64

/-- The detector that takes the pulse is fresh. -/
def FeedFresh (freq ts : ℕ) (mem : Mem) (pdes : List Pde) : Prop :=
  ∀ got ∈ priDetectorGet mem.pde freq pdes, ∀ pde ∈ got.2[got.1]?, Fresh rs ts pde

/-- So is every one that the loop comes to. -/
def BandsFresh (p : Pulse) (ts : ℕ) : ℕ → List Band → Prop
  | _, [] => True
  | i, band::bands =>
    if OutOfRange band.rs p.len then BandsFresh p ts (i+1) bands
    else FeedFresh band.rs.toRadarDetectorSpecs p.freq ts (p.mem i) band.pdes ∧
      ∀ res ∈ feed band.rs.toRadarDetectorSpecs p.freq ts (p.mem i) band.pdes,
        res.2 = none → BandsFresh p ts (i+1) bands

/-- The clock does not wrap, and the pulse comes to fresh detectors only. -/
def Safe (usecs : ℕ) (dpd : Dpd) (p : Pulse) : Prop :=
  dpd.region ≠ .unset → dpd.lastPulseTs+advance usecs dpd p < 2^64 ∧
    BandsFresh p (clocked usecs dpd p).lastPulseTs 0 (clocked usecs dpd p).bands

def step (usecs : ℕ) (dpd : Dpd) (p : Pulse) : Option Dpd :=
  (dfsPatternDetectorAddPulse usecs dpd p).map Prod.fst

instance (ts : ℕ) (pde : Pde) : Decidable (Fresh rs ts pde) :=
  inferInstanceAs (Decidable (_ → _ → ∀ p ∈ scanned rs ts pde.pulses, _ → _))

instance (freq ts : ℕ) (mem : Mem) (pdes : List Pde) :
    Decidable (FeedFresh rs freq ts mem pdes) :=
  inferInstanceAs (Decidable (∀ got ∈ priDetectorGet mem.pde freq pdes,
    ∀ pde ∈ got.2[got.1]?, Fresh rs ts pde))

instance decidableBandsFresh (p : Pulse) (ts : ℕ) : ∀ i bands, Decidable (BandsFresh p ts i bands)
  | _, [] => inferInstanceAs (Decidable True)
  | i, band::bands =>
    have : Decidable (BandsFresh p ts (i+1) bands) := decidableBandsFresh p ts (i+1) bands
    inferInstanceAs (Decidable (if OutOfRange band.rs p.len then _ else _ ∧
      ∀ res ∈ feed band.rs.toRadarDetectorSpecs p.freq ts (p.mem i) band.pdes, _ → _))

instance (usecs : ℕ) (dpd : Dpd) (p : Pulse) : Decidable (Safe usecs dpd p) :=
  inferInstanceAs (Decidable (_ → _ ∧ _))

/-! ## The queue -/

variable {rs} {pde : Pde} {ts : ℕ}

/-- The detector with the first pulses of its queue. -/
def trimmed (pde : Pde) (pulses : List ℕ) : Pde :=
  { pde with pulses := pulses, count := pulses.length }

/-- The count of a queue that has room. -/
structure Counted (pde : Pde) : Prop where
  count : pde.count = pde.pulses.length
  fits : pde.pulses.length < 2^32

theorem trimmed_counted {pulses : List ℕ} (h : Counted pde) (hpre : pulses <+: pde.pulses) :
    Counted (trimmed pde pulses) := ⟨rfl, hpre.length_le.trans_lt h.fits⟩

theorem trimmed_self (h : Counted pde) : trimmed pde pde.pulses = pde := by
  rw [trimmed, ← h.count]

theorem pulseQueueDequeue_eq (h : Counted pde) :
    pulseQueueDequeue pde = trimmed pde pde.pulses.dropLast := by
  unfold pulseQueueDequeue
  by_cases hnil : pde.pulses = []
  · have hdrop : pde.pulses.dropLast = pde.pulses := by rw [hnil, List.dropLast_nil]
    rw [if_pos hnil, hdrop, trimmed_self h]
  · have hpos : 0 < pde.pulses.length := List.length_pos_iff.mpr hnil
    have hfits := h.fits
    have hcount : u32 (pde.count+(2^32-1)) = pde.pulses.dropLast.length := by
      rw [h.count, List.length_dropLast, u32]
      omega
    rw [if_neg hnil, hcount]
    rfl

theorem dequeueOlder_eq (minValidTs n : ℕ) (h : Counted pde) (hn : pde.pulses.length ≤ n) :
    dequeueOlder minValidTs n pde = trimmed pde (pde.pulses.rdropWhile (· < minValidTs)) := by
  induction n generalizing pde with
  | zero =>
    have hnil : pde.pulses = [] := List.length_eq_zero_iff.mp (Nat.le_zero.mp hn)
    have hstay : pde.pulses.rdropWhile (· < minValidTs) = pde.pulses := by
      rw [hnil, List.rdropWhile_nil]
    rw [dequeueOlder, hstay, trimmed_self h]
  | succ n ih =>
    unfold dequeueOlder
    rcases List.eq_nil_or_concat' pde.pulses with hnil | ⟨newer, ts, hconcat⟩
    · have hstay : pde.pulses.rdropWhile (· < minValidTs) = pde.pulses := by
        rw [hnil, List.rdropWhile_nil]
      have hnone : pde.pulses.getLast? = none := by rw [hnil, List.getLast?_nil]
      rw [hstay, trimmed_self h, hnone]
    · have hlast : pde.pulses.getLast? = some ts := by rw [hconcat, List.getLast?_concat]
      rw [hlast]
      dsimp only
      by_cases hvalid : ts ≥ minValidTs
      · have hstay : pde.pulses.rdropWhile (· < minValidTs) = pde.pulses := by
          rw [hconcat, List.rdropWhile_concat_neg]
          simpa using hvalid
        rw [if_pos hvalid, hstay, trimmed_self h]
      · have hdrop : pde.pulses.dropLast = newer := by rw [hconcat, List.dropLast_concat]
        have hrest : pde.pulses.rdropWhile (· < minValidTs) =
            newer.rdropWhile (· < minValidTs) := by
          rw [hconcat, List.rdropWhile_concat_pos]
          simpa using hvalid
        have hlen : newer.length ≤ n := by
          rw [hconcat, List.length_append, List.length_singleton] at hn
          omega
        rw [if_neg hvalid, pulseQueueDequeue_eq h, hdrop, hrest,
          ih (trimmed_counted h ⟨[ts], hconcat.symm⟩) hlen]
        rfl

/-- The pulses that are not too old. -/
def kept (rs : RadarDetectorSpecs) (lastTs : ℕ) (pulses : List ℕ) : List ℕ :=
  if pulses.length < 2 then pulses
  else if lastTs ≤ windowSize rs then pulses
  else pulses.rdropWhile (· < lastTs-windowSize rs)

theorem kept_initial (rs : RadarDetectorSpecs) (lastTs : ℕ) (pulses : List ℕ) :
    kept rs lastTs pulses <+: pulses := by
  unfold kept
  split_ifs
  · exact List.prefix_refl pulses
  · exact List.prefix_refl pulses
  · exact List.rdropWhile_prefix _ pulses

theorem pulseQueueCheckWindow_eq (rs : RadarDetectorSpecs) (h : Counted pde) :
    pulseQueueCheckWindow rs pde = trimmed pde (kept rs pde.lastTs pde.pulses) := by
  unfold pulseQueueCheckWindow kept
  rw [h.count]
  split_ifs
  · exact (trimmed_self h).symm
  · exact (trimmed_self h).symm
  · exact dequeueOlder_eq _ _ h le_rfl

/-- The queue with a new pulse. -/
def enqueued (rs : RadarDetectorSpecs) (ts : ℕ) (pulses : List ℕ) : List ℕ :=
  if (kept rs ts (ts::pulses)).length ≥ maxCount rs then (kept rs ts (ts::pulses)).dropLast
  else kept rs ts (ts::pulses)

theorem enqueued_kept (rs : RadarDetectorSpecs) (ts : ℕ) (pulses : List ℕ) :
    enqueued rs ts pulses <+: kept rs ts (ts::pulses) := by
  unfold enqueued
  split_ifs
  · exact List.dropLast_prefix _
  · exact List.prefix_refl _

theorem enqueued_initial (rs : RadarDetectorSpecs) (ts : ℕ) (pulses : List ℕ) :
    enqueued rs ts pulses <+: ts::pulses :=
  (enqueued_kept rs ts pulses).trans (kept_initial rs ts _)

theorem maxCount_bounds (rs : RadarDetectorSpecs) : 0 < maxCount rs ∧ maxCount rs < 2^31 := by
  have htwo := rs.two_le_ppb
  have hsmall := rs.ppb_u8
  unfold maxCount LONG_RADAR_MAX_BURST RadarDetector.maxCount
  split_ifs <;> omega

theorem QueueOk.counted (h : QueueOk rs pde) : Counted pde := by
  have hmax := maxCount_bounds rs
  have hbelow := h.below
  rw [h.count] at hbelow
  exact ⟨h.count, by omega⟩

theorem pulseQueueEnqueue_eq (h : QueueOk rs pde) : pulseQueueEnqueue rs true ts pde =
    trimmed { pde with lastTs := ts } (enqueued rs ts pde.pulses) := by
  have hmax := maxCount_bounds rs
  have hbelow := h.below
  have hqueued : Counted (queued ts pde) := by
    rw [h.count] at hbelow
    refine ⟨?_, ?_⟩
    · show u32 (pde.count+1) = pde.pulses.length+1
      rw [h.count, u32]
      omega
    · show pde.pulses.length+1 < 2^32
      omega
  have hwindow := pulseQueueCheckWindow_eq rs hqueued
  unfold pulseQueueEnqueue enqueued
  rw [if_pos rfl, hwindow]
  dsimp only
  by_cases hfull : (kept rs ts (ts::pde.pulses)).length ≥ maxCount rs
  · rw [if_pos hfull]
    have hcounted := trimmed_counted hqueued (kept_initial rs ts (ts::pde.pulses))
    exact (if_pos hfull).trans (pulseQueueDequeue_eq hcounted)
  · rw [if_neg hfull]
    exact if_neg hfull

/-- What stays in the queue is not too old. -/
theorem kept_window {pulses : List ℕ} (hsorted : pulses.Pairwise (· > ·))
    (htwo : 2 ≤ (kept rs ts pulses).length) {p : ℕ} (hp : p ∈ kept rs ts pulses) :
    ts ≤ p+windowSize rs := by
  have hlen := (kept_initial rs ts pulses).length_le
  unfold kept at hp
  rw [if_neg (by omega)] at hp
  split_ifs at hp with hearly
  · omega
  · have hall : ∀ q ∈ pulses.rdropWhile (· < ts-windowSize rs), ts-windowSize rs ≤ q := by
      clear hp hlen htwo
      induction pulses using List.reverseRecOn with
      | nil => simp
      | append_singleton newer last ih =>
        rw [List.rdropWhile_concat]
        split_ifs with hold
        · exact ih (hsorted.sublist (List.sublist_append_left newer [last]))
        · have hlast : ts-windowSize rs ≤ last := by simpa using hold
          intro q hq
          rcases List.mem_append.mp hq with hnewer | hq
          · have hgt : q > last := (List.pairwise_append.mp hsorted).2.2 q hnewer last
              (List.mem_singleton_self last)
            omega
          · rwa [List.mem_singleton.mp hq]
    have hle := hall p hp
    omega

theorem QueueOk.trim (h : QueueOk rs pde) {pulses : List ℕ} (hpre : pulses <+: pde.pulses) :
    QueueOk rs (trimmed pde pulses) where
  count := rfl
  below := hpre.length_le.trans_lt (h.count ▸ h.below)
  sorted := h.sorted.sublist hpre.sublist
  newest := by
    intro ts hts
    obtain ⟨rest, hrest⟩ := hpre
    have hhead : pulses.head? = some ts := hts
    refine h.newest ts ?_
    rw [← hrest, List.head?_append, hhead, Option.some_or]
    rfl
  window := fun htwo ts hts => h.window (htwo.trans hpre.length_le) ts (hpre.subset hts)

theorem QueueOk.enqueue (h : QueueOk rs pde) (hnew : ∀ p ∈ pde.pulses, p < ts) (mem : Bool) :
    QueueOk rs (pulseQueueEnqueue rs mem ts pde) := by
  cases mem with
  | false => exact h
  | true =>
    rw [pulseQueueEnqueue_eq h]
    have hsorted : (ts::pde.pulses).Pairwise (· > ·) := List.pairwise_cons.mpr ⟨hnew, h.sorted⟩
    have hpre : enqueued rs ts pde.pulses <+: ts::pde.pulses := enqueued_initial rs ts pde.pulses
    have hkept := enqueued_kept rs ts pde.pulses
    refine ⟨rfl, ?_, hsorted.sublist hpre.sublist, ?_, ?_⟩
    · have hmax := maxCount_bounds rs
      have hbelow := h.below
      have hlen := (kept_initial rs ts (ts::pde.pulses)).length_le
      rw [List.length_cons] at hlen
      rw [h.count] at hbelow
      show (enqueued rs ts pde.pulses).length < maxCount rs
      unfold enqueued
      split_ifs with hfull
      · rw [List.length_dropLast]
        omega
      · exact Nat.lt_of_not_le hfull
    · intro t ht
      obtain ⟨rest, hrest⟩ := hpre
      have hfirst : (enqueued rs ts pde.pulses).head? = some t := ht
      have hhead : (ts::pde.pulses).head? = some t := by
        rw [← hrest, List.head?_append, hfirst, Option.some_or]
      exact (Option.some.inj hhead).symm
    · intro htwo p hp
      exact kept_window hsorted (htwo.trans hkept.length_le) (hkept.subset hp)

theorem enqueue_subset (h : QueueOk rs pde) (ts : ℕ) (mem : Bool) :
    (pulseQueueEnqueue rs mem ts pde).pulses ⊆ ts::pde.pulses ∧
      (pulseQueueEnqueue rs mem ts pde).sequences = pde.sequences := by
  cases mem with
  | false => exact ⟨List.subset_cons_self ts _, rfl⟩
  | true =>
    rw [pulseQueueEnqueue_eq h]
    exact ⟨(enqueued_initial rs ts pde.pulses).subset, rfl⟩

theorem enqueue_refines (h : QueueOk rs pde) (htype : rs.type ≠ .long) (mem : Bool) :
    (pulseQueueEnqueue rs mem ts pde).toPriDetector =
      RadarDetector.pulseQueueEnqueue rs mem ts pde.toPriDetector := by
  cases mem with
  | false => rfl
  | true =>
    have hwindow : windowSize rs = RadarDetector.windowSize rs := if_neg htype
    have hmax : maxCount rs = RadarDetector.maxCount rs := if_neg htype
    rw [pulseQueueEnqueue_eq h]
    unfold enqueued kept RadarDetector.pulseQueueEnqueue RadarDetector.pulseQueueCheckWindow
    rw [hwindow, hmax]
    rfl

/-- With a count that is right a detector of short patterns is that of one pattern alone. -/
theorem pdeShortAddPulse_refines (h : QueueOk rs pde) (htype : rs.type ≠ .long) (mem : Mem) :
    (pdeShortAddPulse rs mem ts pde).map Pde.toPriDetector id =
      RadarDetector.pdeShortAddPulse rs mem.seqs mem.pulse ts pde.toPriDetector := by
  unfold pdeShortAddPulse RadarDetector.pdeShortAddPulse
  rw [h.count]
  by_cases hfirst : pde.pulses.length = 0
  · rw [if_pos hfirst, if_pos hfirst, Prod.map, enqueue_refines h htype]
    rfl
  rw [if_neg hfirst, if_neg hfirst]
  by_cases hclose : ts-pde.lastTs < rs.maxPriTolerance
  · rw [if_pos hclose, if_pos hclose]
    rfl
  rw [if_neg hclose, if_neg hclose]
  dsimp only
  generalize createSequences rs ts (addToExistingSeqs rs ts pde.sequences).1 mem.seqs 0 pde.pulses
    (addToExistingSeqs rs ts pde.sequences).2 = made
  obtain ⟨ok, seqs⟩ := made
  cases ok with
  | false => rfl
  | true =>
    have hqueue : QueueOk rs (setSequences pde seqs) :=
      ⟨h.count, h.below, h.sorted, h.newest, h.window⟩
    have hsame : (setSequences pde seqs).toPriDetector =
        { pde.toPriDetector with sequences := seqs } := rfl
    dsimp only
    rw [← hsame]
    cases checkDetection rs (setSequences pde seqs).toPriDetector with
    | none => exact congrArg (·, none) (enqueue_refines hqueue htype mem.pulse)
    | some ps => rfl

/-! ## The sequences -/

theorem candidate_ok {i p : ℕ} {older : List ℕ} (hp : p < ts) (holder : ∀ q ∈ older, q < p)
    (hlow : rs.priMin ≤ u32 (ts-p)) (hhigh : u32 (ts-p) ≤ rs.priMax) (hnear : ts-p < 2^32)
    (hdeadline : p+dur rs (ts-p) < 2^64) :
    SequenceOk rs (finish rs (candidate rs ts i p older)) := by
  have hcut : u32 (ts-p) = ts-p := Nat.mod_eq_of_lt hnear
  obtain ⟨falses, hspec⟩ := candidate_spec rs ts i p older
  rw [hspec]
  rw [hcut] at hlow hhigh ⊢
  have hfirst : (found rs ts (ts-p) older).getLastD p ∈ p::found rs ts (ts-p) older :=
    List.getLastD_mem_cons
  generalize (found rs ts (ts-p) older).getLastD p = first at hfirst ⊢
  have hbounds : first ≤ p ∧ ts ≤ first+dur rs (ts-p) := by
    rcases List.mem_cons.mp hfirst with rfl | hin
    · have hle : ts-first ≤ dur rs (ts-first) := pri_le_dur
      exact ⟨le_rfl, by omega⟩
    · obtain ⟨hold, hwindow, -⟩ := found_spec hin
      exact ⟨(holder first hold).le, minValidTs_le hwindow⟩
  have hsum : (first+dur rs (ts-p)) % 2^64 = first+dur rs (ts-p) := Nat.mod_eq_of_lt (by omega)
  exact ⟨Nat.le_add_right 2 _, ⟨hlow, hhigh⟩, hbounds.1.trans_lt hp, hsum.symm ▸ hbounds.2, hsum⟩

theorem SequenceOk.extend {ps : PriSequence} (h : SequenceOk rs ps) (hdeadline : ts ≤ ps.deadlineTs)
    (hlast : ps.lastTs ≤ ts) : SequenceOk rs (RadarDetector.extend rs ts ps) := by
  unfold RadarDetector.extend
  split_ifs
  · exact ⟨h.count.trans (Nat.le_succ _), h.pri, h.first.trans_le hlast, hdeadline, h.deadline⟩
  · exact ⟨h.count, h.pri, h.first, h.last, h.deadline⟩

theorem extend_lastTs {ps : PriSequence} (hlast : ps.lastTs ≤ ts) :
    (RadarDetector.extend rs ts ps).lastTs ≤ ts := by
  unfold RadarDetector.extend
  split_ifs
  · exact le_rfl
  · exact hlast

/-- A detector whose pulses and sequences are not newer than the clock. The pulses of a long
pattern are not newer than its sequence. -/
structure Inv (rs : RadarDetectorSpecs) (now : ℕ) (pde : Pde) : Prop extends PdeOk rs pde where
  past : ∀ p ∈ pde.pulses, p ≤ now
  ended : ∀ ps ∈ pde.sequences, ps.lastTs ≤ now
  begun : rs.type = .long → pde.sequences = [] → pde.pulses = []
  covered : rs.type = .long → ∀ ps ∈ pde.sequences.head?, ∀ p ∈ pde.pulses, p ≤ ps.lastTs

variable {now : ℕ} {mem : Mem}

theorem Inv.mono (h : Inv rs now pde) (hnow : now ≤ ts) : Inv rs ts pde :=
  ⟨h.toPdeOk, fun p hp => (h.past p hp).trans hnow, fun ps hps => (h.ended ps hps).trans hnow,
    h.begun, h.covered⟩

theorem QueueOk.nil (hcount : pde.count = 0) (hpulses : pde.pulses = []) : QueueOk rs pde where
  count := by rw [hcount, hpulses, List.length_nil]
  below := by rw [hcount]; exact (maxCount_bounds rs).1
  sorted := by rw [hpulses]; exact List.Pairwise.nil
  newest := by rw [hpulses]; nofun
  window := by rw [hpulses]; nofun

theorem Inv.nil (hcount : pde.count = 0) (hpulses : pde.pulses = []) (hseqs : pde.sequences = []) :
    Inv rs now pde where
  queue := .nil hcount hpulses
  sequences := by rw [hseqs]; nofun
  past := by rw [hpulses]; nofun
  ended := by rw [hseqs]; nofun
  begun := fun _ _ => hpulses
  covered := by rw [hpulses]; nofun

theorem reset_inv (rs : RadarDetectorSpecs) (now ts : ℕ) (pde : Pde) :
    Inv rs now (priDetectorReset ts pde) := .nil rfl rfl rfl

theorem init_inv (rs : RadarDetectorSpecs) (now freq : ℕ) : Inv rs now (priDetectorInit freq) :=
  .nil rfl rfl rfl

/-- The sequences of a fresh detector after a pulse. -/
theorem updatedSeqs_ok (h : Inv rs now pde) (hnow : now ≤ ts) (htype : rs.type ≠ .long)
    (htol : rs.maxPriTolerance ≤ ts-pde.lastTs) (hlast : ∀ p ∈ pde.pulses, p < ts)
    (hfresh : Fresh rs ts pde) {n : ℕ} {ps : PriSequence}
    (hps : ps ∈ updatedSeqs rs ts n pde.toPriDetector) : SequenceOk rs ps ∧ ps.lastTs ≤ ts := by
  rcases createSequences_mem hps with hold | ⟨i, p, older, hsuffix, hscanned, hlow, hhigh, rfl⟩
  · obtain ⟨old, hmem, hdeadline, rfl⟩ := addToExistingSeqs_mem hold
    have hle : old.lastTs ≤ ts := (h.ended old hmem).trans hnow
    exact ⟨(h.sequences htype old hmem).extend hdeadline hle, extend_lastTs hle⟩
  · obtain ⟨hnear, hdeadline⟩ := hfresh htype htol p hscanned hlow
    have hsorted := h.queue.sorted.sublist hsuffix.sublist
    refine ⟨candidate_ok (hlast p (hsuffix.subset List.mem_cons_self))
      (fun q hq => List.rel_of_pairwise_cons hsorted hq) hlow hhigh hnear hdeadline, ?_⟩
    obtain ⟨falses, hspec⟩ := candidate_spec rs ts i p older
    rw [hspec]

theorem enqueue_inv (hqueue : QueueOk rs pde) (hnew : ∀ p ∈ pde.pulses, p < ts)
    (hseqs : rs.type ≠ .long → ∀ ps ∈ pde.sequences, SequenceOk rs ps)
    (hended : ∀ ps ∈ pde.sequences, ps.lastTs ≤ ts)
    (hlong : rs.type = .long → ∃ ps ∈ pde.sequences.head?, ps.lastTs = ts) (mem : Bool) :
    Inv rs ts (pulseQueueEnqueue rs mem ts pde) := by
  obtain ⟨hpulses, hsame⟩ := enqueue_subset hqueue ts mem
  have hpast : ∀ p ∈ (pulseQueueEnqueue rs mem ts pde).pulses, p ≤ ts := by
    intro p hp
    rcases List.mem_cons.mp (hpulses hp) with rfl | hold
    · exact le_rfl
    · exact (hnew p hold).le
  refine ⟨⟨hqueue.enqueue hnew mem, by rwa [hsame]⟩, hpast, by rwa [hsame], ?_, ?_⟩
  · intro htype hnil
    obtain ⟨ps, hps, -⟩ := hlong htype
    rw [← hsame, hnil] at hps
    exact absurd hps (Option.not_mem_none ps)
  · intro htype ps hps p hp
    obtain ⟨ps', hps', hlast⟩ := hlong htype
    rw [hsame] at hps
    obtain rfl := Option.mem_unique hps hps'
    exact hlast ▸ hpast p hp

theorem pdeShortAddPulse_inv (h : Inv rs now pde) (hnow : now ≤ ts) (htype : rs.type ≠ .long)
    (hfresh : Fresh rs ts pde) (hnone : (pdeShortAddPulse rs mem ts pde).2 = none) :
    Inv rs ts (pdeShortAddPulse rs mem ts pde).1 := by
  unfold pdeShortAddPulse at hnone ⊢
  by_cases hfirst : pde.count = 0
  · rw [if_pos hfirst]
    have hpulses : pde.pulses = [] := List.length_eq_zero_iff.mp (h.queue.count ▸ hfirst)
    exact enqueue_inv h.queue (by rw [hpulses]; nofun) h.sequences
      (fun ps hps => (h.ended ps hps).trans hnow) (fun hlong => absurd hlong htype) mem.pulse
  rw [if_neg hfirst] at hnone ⊢
  by_cases hclose : ts-pde.lastTs < rs.maxPriTolerance
  · rw [if_pos hclose]
    exact h.mono hnow
  rw [if_neg hclose] at hnone ⊢
  have htol := rs.tolerance_pos
  have hnew : ∀ p ∈ pde.pulses, p < ts := by
    intro p hp
    obtain ⟨newest, rest, hcons⟩ := List.exists_cons_of_ne_nil (List.ne_nil_of_mem hp)
    have hnewest : newest = pde.lastTs := h.queue.newest newest (by rw [hcons]; rfl)
    have hle : p ≤ newest := by
      have hsorted := h.queue.sorted
      rw [hcons] at hp hsorted
      rcases List.mem_cons.mp hp with rfl | hrest
      · exact le_rfl
      · exact (List.rel_of_pairwise_cons hsorted hrest).le
    omega
  have hseqs {ps : PriSequence} (hps : ps ∈ updatedSeqs rs ts mem.seqs pde.toPriDetector) :=
    updatedSeqs_ok h hnow htype (Nat.le_of_not_lt hclose) hnew hfresh hps
  unfold updatedSeqs at hseqs
  dsimp only at hnone hseqs ⊢
  generalize createSequences rs ts (addToExistingSeqs rs ts pde.sequences).1 mem.seqs 0 pde.pulses
    (addToExistingSeqs rs ts pde.sequences).2 = made at hnone hseqs ⊢
  obtain ⟨ok, seqs⟩ := made
  cases ok with
  | false => exact reset_inv rs ts ts pde
  | true =>
    dsimp only at hnone hseqs ⊢
    cases hcheck : checkDetection rs (setSequences pde seqs).toPriDetector with
    | some ps =>
      rw [hcheck] at hnone
      cases hnone
    | none =>
      have hqueue : QueueOk rs (setSequences pde seqs) :=
        ⟨h.queue.count, h.queue.below, h.queue.sorted, h.queue.newest, h.queue.window⟩
      exact enqueue_inv hqueue hnew (fun _ ps hps => (hseqs hps).1) (fun ps hps => (hseqs hps).2)
        (fun hlong => absurd hlong htype) mem.pulse

/-! ## Long patterns -/

/-- The bursts that leave are those at the end of the queue. -/
theorem expireBursts_spec (minValidTs n : ℕ) (ps : PriSequence) (h : Counted pde) :
    (expireBursts rs minValidTs n ps pde).1.lastTs = ps.lastTs ∧ ∃ pulses, pulses <+: pde.pulses ∧
      (expireBursts rs minValidTs n ps pde).2 = trimmed pde pulses := by
  induction n generalizing ps pde with
  | zero => exact ⟨rfl, pde.pulses, List.prefix_refl _, (trimmed_self h).symm⟩
  | succ n ih =>
    unfold expireBursts
    cases pde.pulses.getLast? with
    | none => exact ⟨rfl, pde.pulses, List.prefix_refl _, (trimmed_self h).symm⟩
    | some ts =>
      dsimp only
      split_ifs
      · exact ⟨rfl, pde.pulses, List.prefix_refl _, (trimmed_self h).symm⟩
      · rw [pulseQueueDequeue_eq h]
        have hpre : pde.pulses.dropLast <+: pde.pulses := List.dropLast_prefix _
        obtain ⟨hlast, pulses, hpulses, hrest⟩ :=
          ih { ps with count := ps.count-1 } (trimmed_counted h hpre)
        exact ⟨hlast, pulses, hpulses.trans hpre, hrest⟩

theorem newBurst_spec (rs : RadarDetectorSpecs) (ts : ℕ) (ps : PriSequence) (h : Counted pde) :
    (newBurst rs ts ps pde).1.lastTs = ps.lastTs ∧ ∃ pulses, pulses <+: pde.pulses ∧
      (newBurst rs ts ps pde).2 = trimmed pde pulses := by
  unfold newBurst
  split_ifs
  · exact expireBursts_spec _ _ ps h
  · exact ⟨rfl, pde.pulses, List.prefix_refl _, (trimmed_self h).symm⟩

/-- A long pattern whose last time stamp becomes that of the pulse. -/
theorem Inv.restamp (h : Inv rs now pde) (hnow : now ≤ ts) (htype : rs.type = .long)
    {ps ps' : PriSequence} {rest : List PriSequence} (hseqs : pde.sequences = ps::rest)
    (hlast : ps'.lastTs = ts) : Inv rs ts (setSequences pde (ps'::rest)) where
  queue := ⟨h.queue.count, h.queue.below, h.queue.sorted, h.queue.newest, h.queue.window⟩
  sequences := fun hshort => absurd htype hshort
  past := fun p hp => (h.past p hp).trans hnow
  ended := by
    intro q hq
    rcases List.mem_cons.mp hq with rfl | hq
    · exact hlast.le
    · exact (h.ended q (hseqs ▸ List.mem_cons_of_mem ps hq)).trans hnow
  begun := nofun
  covered := by
    intro _ q hq p hp
    obtain rfl := Option.some.inj hq
    exact hlast ▸ (h.past p hp).trans hnow

theorem pdeLongAddPulse_inv (h : Inv rs now pde) (hnow : now ≤ ts) (htype : rs.type = .long)
    (hnone : (pdeLongAddPulse rs mem ts pde).2 = none) :
    Inv rs ts (pdeLongAddPulse rs mem ts pde).1 := by
  have hqueue {seqs : List PriSequence} {pulses : List ℕ} (hpre : pulses <+: pde.pulses) :
      QueueOk rs (setSequences (trimmed pde pulses) seqs) :=
    have htrim := h.queue.trim hpre
    ⟨htrim.count, htrim.below, htrim.sorted, htrim.newest, htrim.window⟩
  cases hseqs : pde.sequences with
  | nil =>
    have hpulses : pde.pulses = [] := h.begun htype hseqs
    unfold pdeLongAddPulse
    rw [hseqs]
    dsimp only
    split_ifs
    · exact h.mono hnow
    · refine enqueue_inv ?_ ?_ (fun hshort => absurd htype hshort) ?_
        (fun _ => ⟨longSequence rs ts, rfl, rfl⟩) mem.pulse
      · exact trimmed_self h.queue.counted ▸ hqueue (List.prefix_refl _)
      · show ∀ p ∈ pde.pulses, p < ts
        rw [hpulses]
        nofun
      · intro ps hps
        exact (congrArg PriSequence.lastTs (List.mem_singleton.mp hps)).le
  | cons ps rest =>
    have hle : ps.lastTs ≤ now := h.ended ps (hseqs ▸ List.mem_cons_self)
    unfold pdeLongAddPulse at hnone ⊢
    rw [hseqs] at hnone ⊢
    dsimp only at hnone ⊢
    by_cases hclose : u32 (ts-ps.lastTs) < rs.priMax
    · rw [if_pos hclose]
      exact h.restamp hnow htype hseqs rfl
    rw [if_neg hclose] at hnone ⊢
    by_cases hsame : u32 (ts-ps.lastTs) ≥ rs.priMin ∧ u32 (ts-ps.lastTs) ≤ rs.priMax
    · rw [if_pos hsame]
      exact h.restamp hnow htype hseqs rfl
    rw [if_neg hsame] at hnone ⊢
    by_cases hsoon : ps.count > 2 ∧
        u32 (ps.dur+u32 (ts-ps.lastTs)) < LONG_RADAR_BURST_MIN_DURATION
    · rw [if_pos hsoon]
      exact h.restamp hnow htype hseqs rfl
    rw [if_neg hsoon] at hnone ⊢
    obtain ⟨hlast, pulses, hpre, hpde⟩ := newBurst_spec rs ts
      { ps with lastTs := ts, count := ps.count+1, countFalses := 1 } h.queue.counted
    generalize newBurst rs ts { ps with lastTs := ts, count := ps.count+1, countFalses := 1 } pde =
      burst at hnone hlast hpde ⊢
    obtain ⟨burst, pde'⟩ := burst
    dsimp only at hnone hlast hpde ⊢
    subst hpde
    split_ifs at hnone ⊢
    have hpos : 0 < rs.priMax := (rs.tolerance_pos.trans rs.tolerance_lt).trans_le rs.pri_le
    refine enqueue_inv (hqueue hpre) (fun p hp => ?_) (fun hshort => absurd htype hshort)
      (fun q hq => ?_)
      (fun _ => ⟨{ burst with dur := u32 (ts-ps.lastTs) }, rfl, hlast⟩) mem.pulse
    · have hcovered : p ≤ ps.lastTs := h.covered htype ps (by rw [hseqs]; rfl) p (hpre.subset hp)
      have hapart : ts-ps.lastTs ≠ 0 := by
        intro hzero
        rw [hzero] at hclose
        exact hclose hpos
      omega
    · rcases List.mem_cons.mp hq with rfl | hq
      · exact hlast.le
      · exact (h.ended q (hseqs ▸ List.mem_cons_of_mem ps hq)).trans hnow

theorem addPulse_inv (h : Inv rs now pde) (hnow : now ≤ ts) (hfresh : Fresh rs ts pde)
    (hnone : (addPulse rs mem ts pde).2 = none) : Inv rs ts (addPulse rs mem ts pde).1 := by
  unfold addPulse at hnone ⊢
  by_cases htype : rs.type = .long
  · rw [if_pos htype] at hnone ⊢
    exact pdeLongAddPulse_inv h hnow htype hnone
  · rw [if_neg htype] at hnone ⊢
    exact pdeShortAddPulse_inv h hnow htype hfresh hnone

/-! ## All detectors -/

/-- Every detector of a radar type. -/
def BandInv (now : ℕ) (band : Band) : Prop :=
  ∀ pde ∈ band.pdes, Inv band.rs.toRadarDetectorSpecs now pde

theorem feed_inv {freq : ℕ} {pdes : List Pde} {res : List Pde × Option PriSequence}
    (h : ∀ pde ∈ pdes, Inv rs now pde) (hnow : now ≤ ts) (hfresh : FeedFresh rs freq ts mem pdes)
    (hres : feed rs freq ts mem pdes = some res) (hnone : res.2 = none) :
    ∀ pde ∈ res.1, Inv rs ts pde := by
  obtain ⟨⟨i, got⟩, hgot, hfed⟩ := Option.bind_eq_some_iff.mp hres
  obtain ⟨pde, hpde, rfl⟩ := Option.map_eq_some_iff.mp hfed
  have hall : ∀ q ∈ got, Inv rs now q := by
    unfold priDetectorGet at hgot
    split at hgot
    · obtain rfl := (Prod.mk.inj (Option.some.inj hgot)).2
      exact h
    · split_ifs at hgot
      obtain rfl := (Prod.mk.inj (Option.some.inj hgot)).2
      intro q hq
      rcases List.mem_cons.mp hq with rfl | hq
      · exact init_inv rs now freq
      · exact h q hq
  have hold : Inv rs now pde := hall pde (List.mem_of_getElem? hpde)
  have hadded := addPulse_inv hold hnow (hfresh _ hgot pde hpde) hnone
  intro q hq
  rcases List.mem_or_eq_of_mem_set hq with hold | rfl
  · exact (hall q hold).mono hnow
  · exact hadded

theorem addToBands_inv {p : Pulse} {i : ℕ} {bands bands' : List Band}
    (h : ∀ band ∈ bands, BandInv now band) (hnow : now ≤ ts) (hfresh : BandsFresh p ts i bands)
    (hres : addToBands p ts i bands = some (bands', false)) : ∀ band ∈ bands', BandInv ts band := by
  induction bands generalizing i bands' with
  | nil =>
    obtain rfl := (Prod.mk.inj (Option.some.inj hres)).1
    nofun
  | cons band bands ih =>
    have hrest : ∀ b ∈ bands, BandInv now b := fun b hb => h b (List.mem_cons_of_mem band hb)
    have hband : BandInv now band := h band List.mem_cons_self
    unfold addToBands at hres
    unfold BandsFresh at hfresh
    by_cases hrange : OutOfRange band.rs p.len
    · rw [if_pos hrange] at hres hfresh
      obtain ⟨⟨rest, found⟩, hloop, heq⟩ := Option.map_eq_some_iff.mp hres
      obtain ⟨rfl, rfl⟩ := Prod.mk.inj heq
      intro b hb
      rcases List.mem_cons.mp hb with rfl | hb
      · exact fun pde hpde => (hband pde hpde).mono hnow
      · exact ih hrest hfresh hloop b hb
    · rw [if_neg hrange] at hres hfresh
      obtain ⟨⟨pdes, ps⟩, hfeed, hnext⟩ := Option.bind_eq_some_iff.mp hres
      cases ps with
      | some ps => exact absurd (Prod.mk.inj (Option.some.inj hnext)).2 nofun
      | none =>
        obtain ⟨⟨rest, found⟩, hloop, heq⟩ := Option.map_eq_some_iff.mp hnext
        obtain ⟨rfl, rfl⟩ := Prod.mk.inj heq
        intro b hb
        rcases List.mem_cons.mp hb with rfl | hb
        · exact feed_inv hband hnow hfresh.1 hfeed rfl
        · exact ih hrest (hfresh.2 _ hfeed rfl) hloop b hb

theorem overflow_inv {bands : List Band} (h : ∀ band ∈ bands, BandInv now band) (ts : ℕ) :
    ∀ band ∈ bands.map (·.overflow ts), BandInv now band := by
  intro b hb
  obtain ⟨band, hband, rfl⟩ := List.mem_map.mp hb
  unfold Band.overflow
  split_ifs
  · exact h band hband
  · intro pde hpde
    obtain ⟨old, -, rfl⟩ := List.mem_map.mp hpde
    exact reset_inv _ _ _ _

def DpdInv (dpd : Dpd) : Prop := ∀ band ∈ dpd.bands, BandInv dpd.lastPulseTs band

theorem step_inv {usecs : ℕ} {dpd dpd' : Dpd} {p : Pulse} (hsafe : Safe usecs dpd p)
    (hstep : step usecs dpd p = some dpd') (h : DpdInv dpd) : DpdInv dpd' := by
  obtain ⟨⟨res, found⟩, hres, rfl⟩ := Option.map_eq_some_iff.mp hstep
  unfold dfsPatternDetectorAddPulse at hres
  by_cases hunset : dpd.region = .unset
  · rw [if_pos hunset] at hres
    obtain rfl := (Prod.mk.inj (Option.some.inj hres)).1
    exact h
  · rw [if_neg hunset] at hres
    obtain ⟨hwrap, hfresh⟩ := hsafe hunset
    have hclock : (clocked usecs dpd p).lastPulseTs = dpd.lastPulseTs+advance usecs dpd p := by
      refine Eq.trans ?_ (Nat.mod_eq_of_lt hwrap)
      unfold clocked
      split_ifs <;> rfl
    have hnow : dpd.lastPulseTs ≤ (clocked usecs dpd p).lastPulseTs :=
      hclock ▸ Nat.le_add_right _ _
    have hbands : ∀ band ∈ (clocked usecs dpd p).bands, BandInv dpd.lastPulseTs band := by
      unfold clocked
      split_ifs
      · exact overflow_inv h _
      · exact h
    obtain ⟨⟨bands, detected⟩, hloop, heq⟩ := Option.map_eq_some_iff.mp hres
    dsimp only at heq
    cases detected with
    | true =>
      obtain rfl := (Prod.mk.inj heq).1
      intro band hband
      obtain ⟨old, -, rfl⟩ := List.mem_map.mp hband
      intro pde hpde
      obtain ⟨old', -, rfl⟩ := List.mem_map.mp hpde
      exact reset_inv _ _ _ _
    | false =>
      obtain rfl := (Prod.mk.inj heq).1
      exact addToBands_inv hbands hnow hfresh hloop

theorem init_all (region : Region) (types : List RadarType) (jiffies : ℕ) :
    DpdInv (dfsPatternDetectorInit region types jiffies) := by
  intro band hband
  obtain ⟨type, -, rfl⟩ := List.mem_map.mp hband
  nofun

/-- In every run of pulses that come to fresh detectors, before the clock wraps, the queues and
the sequences are as they should be. -/
theorem detectors_ok (usecs : ℕ) (region : Region) (types : List RadarType) (jiffies : ℕ)
    (pulses : List Pulse)
    (h : Meets (step usecs) (Safe usecs) (dfsPatternDetectorInit region types jiffies) pulses) :
    Throughout (step usecs) AllOk (dfsPatternDetectorInit region types jiffies) pulses :=
  throughout_of_meets (J := DpdInv) (fun _ _ _ hsafe hstep hdpd => step_inv hsafe hstep hdpd)
    (fun _ hdpd band hband pde hpde => (hdpd band hband pde hpde).toPdeOk)
    (init_all region types jiffies) h

/-- A pulse in memory that never fails. -/
def pulseOf (pri len : ℕ) : Pulse := ⟨5500, pri, len, 0, 0, fun _ => ⟨true, 100, true⟩⟩

theorem detectors_ok_four_pulses : Throughout (step 10000) AllOk
    (dfsPatternDetectorInit .fcc fccRadarRefTypesRiu 0)
    ([(1000, 4), (333, 4), (333, 4), (1500, 60)].map fun p => pulseOf p.1 p.2) :=
  detectors_ok 10000 .fcc fccRadarRefTypesRiu 0 _ (by decide)

/-! ## A pulse 2^32 microseconds after the last one -/

/-- A pulse of a width that no radar type has leaves the detectors as they are. -/
theorem addToBands_idle {p : Pulse} {bands : List Band}
    (h : ∀ band ∈ bands, OutOfRange band.rs p.len) (ts i : ℕ) :
    addToBands p ts i bands = some (bands, false) := by
  induction bands generalizing i with
  | nil => rfl
  | cons band bands ih =>
    rw [addToBands, if_pos (h band List.mem_cons_self),
      ih (fun b hb => h b (List.mem_cons_of_mem band hb))]
    rfl

theorem step_idle (usecs : ℕ) {dpd : Dpd} {p : Pulse} (hset : dpd.region ≠ .unset)
    (hpri : p.pri ≠ 0) (h : ∀ band ∈ dpd.bands, OutOfRange band.rs p.len)
    (hwrap : dpd.lastPulseTs+p.pri < 2^64) :
    step usecs dpd p = some { dpd with lastPulseTs := dpd.lastPulseTs+p.pri } := by
  have hadvance : advance usecs dpd p = p.pri := if_neg hpri
  have hclocked : clocked usecs dpd p = { dpd with lastPulseTs := dpd.lastPulseTs+p.pri } := by
    rw [clocked, if_neg hpri, timeStamp, hadvance, Nat.mod_eq_of_lt hwrap]
  rw [step, dfsPatternDetectorAddPulse, if_neg hset, hclocked]
  dsimp only
  rw [addToBands_idle h]
  rfl

theorem exec_idle (usecs : ℕ) (dpd : Dpd) {p : Pulse} (hset : dpd.region ≠ .unset)
    (hpri : p.pri ≠ 0) (h : ∀ band ∈ dpd.bands, OutOfRange band.rs p.len) (n : ℕ)
    (rest : List Pulse)
    (hwrap : dpd.lastPulseTs+n*p.pri < 2^64) :
    exec (step usecs) dpd (List.replicate n p++rest) =
      exec (step usecs) { dpd with lastPulseTs := dpd.lastPulseTs+n*p.pri } rest := by
  induction n generalizing dpd with
  | zero => rw [List.replicate_zero, List.nil_append, Nat.zero_mul, Nat.add_zero]
  | succ n ih =>
    have hsum : dpd.lastPulseTs+(n+1)*p.pri = dpd.lastPulseTs+p.pri+n*p.pri := by
      rw [Nat.succ_mul]
      omega
    rw [hsum] at hwrap ⊢
    have hstep := step_idle usecs hset hpri h (by omega)
    show (step usecs dpd p).bind (fun t => exec (step usecs) t (List.replicate n p++rest)) = _
    rw [hstep]
    exact ih { dpd with lastPulseTs := dpd.lastPulseTs+p.pri } hset h hwrap

/-- A pulse, others of no radar type for more than 2^32 microseconds, and a pulse that is taken
for one 333 microseconds later. -/
def cutGap : List Pulse :=
  pulseOf 1000 4::(List.replicate 65537 (pulseOf 65535 200)++[pulseOf 334 4])

/-- The detector after the first pulse. -/
def oncePulsed : Dpd :=
  ((step 10000 (dfsPatternDetectorInit .fcc fccRadarRefTypesRiu 0) (pulseOf 1000 4)).getD
    (dfsPatternDetectorInit .fcc fccRadarRefTypesRiu 0))

theorem cut_gap : ¬ Throughout (step 10000) AllOk
    (dfsPatternDetectorInit .fcc fccRadarRefTypesRiu 0) cutGap := by
  intro h
  have hfirst : step 10000 (dfsPatternDetectorInit .fcc fccRadarRefTypesRiu 0) (pulseOf 1000 4) =
      some oncePulsed := rfl
  have hpri : (pulseOf 65535 200).pri ≠ 0 := by decide
  have hidle := exec_idle 10000 oncePulsed (by decide) hpri (by decide) 65537 [pulseOf 334 4]
    (by decide)
  have hrun (rest : List Pulse) : exec (step 10000)
      (dfsPatternDetectorInit .fcc fccRadarRefTypesRiu 0) (pulseOf 1000 4::rest) =
        exec (step 10000) oncePulsed rest := by
    rw [exec, hfirst]
    rfl
  have hall := h cutGap (List.prefix_refl _) _ (((hrun _).trans hidle).trans rfl)
  have hpde := hall _ (List.mem_of_getElem? (i := 6) rfl) _ (List.mem_of_getElem? (i := 0) rfl)
  have hps := hpde.sequences (by decide) _ (List.mem_of_getElem? (i := 0) rfl)
  exact absurd hps.last (by decide)

end AIC.RadarInvariant
