import Aic8800.RadarSoundness
import Mathlib.Data.Int.ModEq
import Mathlib.Data.List.Count

/-!
# A burst with missing pulses is detected

The pulses of a burst lie at positions of one period. A sequence with a multiple of the
period takes the positions of one residue. From the first two adjacent positions on there
is a sequence with the period itself, which takes every pulse.
-/

set_option autoImplicit false

namespace AIC.RadarBurst
open AIC.RadarDetector AIC.RadarSoundness Lib.PulseTrain

/-- The pulses up to the first that is answered with a sequence. There is memory for a sequence
from each queued pulse. -/
def feed (rs : RadarDetectorSpecs) : List ℕ → PriDetector → PriDetector × Option PriSequence
  | [], pde => (pde, none)
  | ts::rest, pde => match pdeShortAddPulse rs pde.pulses.length true ts pde with
    | (pde, some ps) => (pde, some ps)
    | (pde, none) => feed rs rest pde

/-- A spec of a short type with a period of its range. -/
structure Burst (rs : RadarDetectorSpecs) (P : ℕ) : Prop where
  type : rs.type = .short
  numPri : rs.numPri = 1
  two_le : 2 ≤ rs.ppbThresh
  thresh_le : rs.ppbThresh ≤ rs.ppb
  min_le : rs.priMin ≤ P
  le_max : P ≤ rs.priMax

/-- The time stamp of a position. -/
def stamp (t₀ P k : ℕ) : ℕ := t₀+k*P

section Multiples
variable {rs : RadarDetectorSpecs} {P t₀ j k m d : ℕ}

theorem Burst.tolerance_lt (h : Burst rs P) : rs.maxPriTolerance < P :=
  rs.tolerance_lt.trans_le h.min_le

theorem Burst.pos (h : Burst rs P) : 0 < P := (Nat.zero_le _).trans_lt h.tolerance_lt

theorem stamp_sub (t₀ P j k : ℕ) : stamp t₀ P k-stamp t₀ P j = (k-j)*P := by
  unfold stamp
  rw [Nat.add_sub_add_left, Nat.sub_mul]

theorem span_le (hk : k < rs.ppb) : k*P ≤ P*(rs.ppb-1) := by
  rw [Nat.mul_comm]
  exact Nat.mul_le_mul_left P (Nat.le_sub_one_of_lt hk)

theorem Burst.cut (h : Burst rs P) (hk : k < rs.ppb) :
    u32 (stamp t₀ P k-stamp t₀ P j) = (k-j)*P := by
  have hdur := dur_lt rs h.le_max
  have hspan := span_le (P := P) ((Nat.sub_le k j).trans_lt hk)
  unfold dur at hdur
  rw [stamp_sub]
  exact Nat.mod_eq_of_lt (by omega)

/-- The tolerance is below the period, so that only multiples match. -/
theorem Burst.multiple_iff (h : Burst rs P) (hm : 0 < m) (hd : 0 < d) :
    0 < pdeGetMultiple (d*P) (m*P) rs.maxPriTolerance ↔ m ∣ d := by
  have htol := h.tolerance_lt
  constructor
  · intro hmatch
    obtain ⟨q, -, hlow, hhigh⟩ := pdeGetMultiple_near hmatch
    rw [← Nat.mul_assoc] at hlow hhigh
    refine ⟨q, ?_⟩
    rcases Nat.lt_trichotomy d (q*m) with hlt | heq | hgt
    · have hgap : (d+1)*P ≤ q*m*P := Nat.mul_le_mul_right P hlt
      rw [Nat.succ_mul] at hgap
      omega
    · rw [heq, Nat.mul_comm]
    · have hgap : (q*m+1)*P ≤ d*P := Nat.mul_le_mul_right P hgt
      rw [Nat.succ_mul] at hgap
      omega
  · rintro ⟨q, rfl⟩
    have hq : 0 < q := Nat.pos_of_mul_pos_left hd
    have hmP : 0 < m*P := Nat.mul_pos hm h.pos
    have hval : m*q*P = m*P*q := Nat.mul_right_comm m q P
    unfold pdeGetMultiple
    rw [if_neg hmP.ne', hval, Nat.mul_div_cancel_left q hmP, Nat.mul_mod_right]
    dsimp only
    rw [if_neg (Nat.not_lt_zero rs.maxPriTolerance)]
    by_cases hdelta : (if m*P*q < m*P then m*P-m*P*q else m*P*q-m*P) ≤ rs.maxPriTolerance
    · rw [if_pos hdelta]
      exact Nat.one_pos
    · rwa [if_neg hdelta]

end Multiples

/-! ## Sequences with a multiple of the period -/

section Sequences
variable {rs : RadarDetectorSpecs} {P t₀ k : ℕ} {fed : List ℕ} {ps : PriSequence}

/-- The fed positions that are congruent to `k`. -/
def congruent (m k : ℕ) (fed : List ℕ) : ℕ := fed.countP (· % m = k % m)

/-- A sequence with a multiple of the period. -/
structure Multiple (P t₀ : ℕ) (fed : List ℕ) (ps : PriSequence) : Prop where
  spaced : ∃ m l, 2 ≤ m ∧ ps.pri = m*P ∧ l ∈ fed ∧ ps.lastTs = stamp t₀ P l ∧
    ps.count ≤ congruent m l fed

/-- The sequence with the period, which took every pulse. -/
structure Locked (rs : RadarDetectorSpecs) (P t₀ : ℕ) (fed : List ℕ) (ps : PriSequence) : Prop where
  pri : ps.pri = P
  count : ps.count = fed.length
  falses : ps.countFalses = 0
  last : ∀ l ∈ fed.head?, ps.lastTs = stamp t₀ P l
  thresh : ps.ppbThresh = rs.ppbThresh
  deadline : ∀ f ∈ fed.getLast?, ps.deadlineTs = stamp t₀ P f+dur rs P

theorem congruent_cons_le (m l k : ℕ) (fed : List ℕ) :
    congruent m l fed ≤ congruent m l (k::fed) :=
  (List.sublist_cons_self k fed).countP_le

theorem congruent_cons (m k : ℕ) (fed : List ℕ) :
    congruent m k (k::fed) = congruent m k fed+1 :=
  List.countP_cons_of_pos (by simp)

/-- A position next to `k` is not congruent to it. -/
theorem congruent_lt {m : ℕ} (hm : 2 ≤ m) (hk : k ∈ fed) :
    congruent m (k+1) ((k+1)::fed) < fed.length+1 := by
  refine List.countP_lt_length_iff.mpr ⟨k, List.mem_cons_of_mem _ hk, decide_eq_false ?_⟩
  intro heq
  have hdvd : m ∣ k+1-k := (Nat.modEq_iff_dvd' (Nat.le_succ k)).mp heq
  rw [Nat.add_sub_cancel_left] at hdvd
  have hle := Nat.le_of_dvd Nat.one_pos hdvd
  omega

theorem Burst.factor_pos_iff (h : Burst rs P) {m l : ℕ} (hm : 0 < m) (hpri : ps.pri = m*P)
    (hlast : ps.lastTs = stamp t₀ P l) (hlk : l < k) (hk : k < rs.ppb) :
    0 < factor rs (stamp t₀ P k) ps ↔ k % m = l % m := by
  rw [factor, hpri, hlast, h.cut hk, h.multiple_iff hm (Nat.sub_pos_of_lt hlk),
    ← Nat.modEq_iff_dvd' hlk.le]
  exact eq_comm

theorem Multiple.extend (h : Multiple P t₀ fed ps) (hb : Burst rs P) (hk : k < rs.ppb)
    (hnew : ∀ l ∈ fed, l < k) :
    Multiple P t₀ (k::fed) (RadarDetector.extend rs (stamp t₀ P k) ps) := by
  obtain ⟨m, l, hm, hpri, hl, hlast, hcount⟩ := h.spaced
  have hiff := hb.factor_pos_iff (Nat.zero_lt_of_lt hm) hpri hlast (hnew l hl) hk
  unfold RadarDetector.extend
  by_cases hfactor : 0 < factor rs (stamp t₀ P k) ps
  · rw [if_pos hfactor]
    have hsame : congruent m k fed = congruent m l fed := by
      rw [congruent, hiff.mp hfactor, ← congruent]
    refine ⟨m, k, hm, hpri, List.mem_cons_self, rfl, ?_⟩
    rw [congruent_cons, hsame]
    exact Nat.succ_le_succ hcount
  · rw [if_neg hfactor]
    exact ⟨m, l, hm, hpri, List.mem_cons_of_mem k hl, hlast,
      hcount.trans (congruent_cons_le m l k fed)⟩

/-- What is matched to a multiple of the period is congruent. -/
theorem Burst.found_length_le (h : Burst rs P) (t₀ : ℕ) {m : ℕ} (hm : 0 < m) (hk : k < rs.ppb)
    {older : List ℕ} (holder : ∀ q ∈ older, q < k) :
    (found rs (stamp t₀ P k) (m*P) (older.map (stamp t₀ P))).length ≤ congruent m k older := by
  unfold found congruent
  rw [← List.countP_eq_length_filter]
  refine (List.takeWhile_sublist _).countP_le.trans ?_
  rw [List.countP_map]
  refine List.countP_mono_left fun q hq hmatch => ?_
  simp only [Function.comp_apply, decide_eq_true_eq] at hmatch ⊢
  rw [h.cut hk, h.multiple_iff hm (Nat.sub_pos_of_lt (holder q hq)),
    ← Nat.modEq_iff_dvd' (holder q hq).le] at hmatch
  exact hmatch

/-- A candidate from a position that is not next to `k`. -/
theorem Burst.candidate_multiple (h : Burst rs P) (hk : k < rs.ppb) {j : ℕ} {older : List ℕ}
    (hsuffix : j::older <:+ fed) (hsorted : (k::fed).Pairwise (· > ·)) (hapart : j+1 < k)
    (i : ℕ) : Multiple P t₀ (k::fed) (finish rs (candidate rs (stamp t₀ P k) i (stamp t₀ P j)
      (older.map (stamp t₀ P)))) := by
  have hnew : ∀ q ∈ fed, q < k := fun q hq => List.rel_of_pairwise_cons hsorted hq
  have holder : ∀ q ∈ older, q < k :=
    fun q hq => hnew q (hsuffix.subset (List.mem_cons_of_mem j hq))
  obtain ⟨falses, hspec⟩ := candidate_spec rs (stamp t₀ P k) i (stamp t₀ P j)
    (older.map (stamp t₀ P))
  rw [hspec, h.cut hk]
  have hpos : 0 < k-j := by omega
  have hmod : j % (k-j) = k % (k-j) := (Nat.modEq_iff_dvd' (by omega)).mpr dvd_rfl
  have hj : congruent (k-j) k (j::older) = congruent (k-j) k older+1 :=
    List.countP_cons_of_pos (by simpa using hmod)
  have hle : congruent (k-j) k (j::older) ≤ congruent (k-j) k fed := hsuffix.sublist.countP_le
  have hfound := h.found_length_le t₀ hpos hk holder
  refine ⟨k-j, k, by omega, rfl, List.mem_cons_self, rfl, ?_⟩
  rw [congruent_cons]
  show 2+(found rs (stamp t₀ P k) ((k-j)*P) (older.map (stamp t₀ P))).length ≤ _
  omega

end Sequences

/-! ## The loops -/

section Loops
variable {rs : RadarDetectorSpecs} {ts : ℕ} {ps : PriSequence}

theorem addToExistingSeqs_keeps {seqs : List PriSequence} (hps : ps ∈ seqs)
    (hdeadline : ts ≤ ps.deadlineTs) :
    RadarDetector.extend rs ts ps ∈ (addToExistingSeqs rs ts seqs).2 := by
  induction seqs with
  | nil => cases hps
  | cons old seqs ih =>
    unfold addToExistingSeqs
    dsimp only
    rcases List.mem_cons.mp hps with rfl | htail
    · rw [if_neg (Nat.not_lt.mpr hdeadline)]
      exact List.mem_cons_self
    · by_cases hlate : ts > old.deadlineTs
      · rw [if_pos hlate]
        exact ih htail
      · rw [if_neg hlate]
        exact List.mem_cons_of_mem _ (ih htail)

/-- The longest sequence that took the pulse is one of those that did. -/
theorem addToExistingSeqs_lt {seqs : List PriSequence} {n : ℕ} (hn : 0 < n)
    (h : ∀ ps ∈ seqs, 0 < factor rs ts ps → ps.count+1 < n) :
    (addToExistingSeqs rs ts seqs).1 < n := by
  induction seqs with
  | nil => exact hn
  | cons old seqs ih =>
    have hrest := ih fun ps hps => h ps (List.mem_cons_of_mem old hps)
    unfold addToExistingSeqs
    dsimp only
    split_ifs with hlate hfactor
    · exact hrest
    · have hold := h old List.mem_cons_self hfactor
      rw [RadarDetector.extend, if_pos hfactor]
      exact max_lt hold hrest
    · exact hrest

theorem createSequences_ok {minCount mem idx : ℕ} {pulses : List ℕ} (seqs : List PriSequence)
    (hmem : pulses.length ≤ mem) :
    (createSequences rs ts minCount mem idx pulses seqs).1 = true := by
  induction pulses generalizing mem idx seqs with
  | nil => rfl
  | cons p older ih =>
    rw [List.length_cons] at hmem
    unfold createSequences
    dsimp only
    split_ifs
    · exact ih seqs (by omega)
    · rfl
    · exact ih seqs (by omega)
    · cases mem with
      | zero => omega
      | succ mem => exact ih _ (by omega)

theorem createSequences_keeps {minCount mem idx : ℕ} {pulses : List ℕ} {seqs : List PriSequence}
    (hps : ps ∈ seqs) : ps ∈ (createSequences rs ts minCount mem idx pulses seqs).2 := by
  induction pulses generalizing mem idx seqs with
  | nil => exact hps
  | cons p older ih =>
    unfold createSequences
    dsimp only
    split_ifs
    · exact ih hps
    · exact hps
    · exact ih hps
    · cases mem with
      | zero => exact hps
      | succ mem => exact ih (List.mem_cons_of_mem _ hps)

/-- Where every pulse matches no false ones are counted. -/
theorem backScan_falses {lim : ℕ} {older : List ℕ} (ps : PriSequence)
    (h : ∀ q ∈ older, lim ≤ q ∧ 0 < pdeGetMultiple (u32 (ps.lastTs-q)) ps.pri rs.maxPriTolerance) :
    (backScan rs lim older 0 ps).countFalses = ps.countFalses := by
  induction older generalizing ps with
  | nil => rfl
  | cons q older ih =>
    obtain ⟨hwindow, hmatch⟩ := h q List.mem_cons_self
    rw [backScan, if_neg (Nat.not_lt.mpr hwindow), if_pos hmatch]
    exact ih _ fun q' hq' => h q' (List.mem_cons_of_mem q hq')

/-- A pulse that is not the first, nor too close to it. -/
theorem pdeShortAddPulse_eq {pde : PriDetector} (hfirst : pde.pulses.length ≠ 0)
    (htol : rs.maxPriTolerance ≤ ts-pde.lastTs) :
    pdeShortAddPulse rs pde.pulses.length true ts pde =
      match (updatedSeqs rs ts pde.pulses.length pde).find? (complete rs) with
      | none => (pulseQueueEnqueue rs true ts
          { pde with sequences := updatedSeqs rs ts pde.pulses.length pde }, none)
      | some ps => ({ pde with sequences := updatedSeqs rs ts pde.pulses.length pde }, some ps) := by
  unfold pdeShortAddPulse updatedSeqs
  rw [if_neg hfirst, if_neg (Nat.not_lt.mpr htol)]
  dsimp only
  have hok : (createSequences rs ts (addToExistingSeqs rs ts pde.sequences).1 pde.pulses.length 0
    pde.pulses (addToExistingSeqs rs ts pde.sequences).2).1 = true := createSequences_ok _ le_rfl
  generalize createSequences rs ts (addToExistingSeqs rs ts pde.sequences).1 pde.pulses.length 0
    pde.pulses (addToExistingSeqs rs ts pde.sequences).2 = made at hok ⊢
  obtain ⟨ok, seqs⟩ := made
  dsimp only at hok
  rw [hok]
  rfl

end Loops

/-! ## A burst -/

section Run
variable {rs : RadarDetectorSpecs} {P t₀ k : ℕ} {fed : List ℕ} {pde : PriDetector}

/-- No two positions are adjacent, and all sequences have a multiple of the period. -/
def Sparse (P t₀ : ℕ) (fed : List ℕ) (seqs : List PriSequence) : Prop :=
  (∀ l ∈ fed, l+1 ∉ fed) ∧ ∀ ps ∈ seqs, Multiple P t₀ fed ps

/-- There is a sequence with the period, but it is too short. -/
def Short (rs : RadarDetectorSpecs) (P t₀ : ℕ) (fed : List ℕ) (seqs : List PriSequence) : Prop :=
  fed ≠ [] ∧ fed.length < rs.ppbThresh ∧ ∃ ps ∈ seqs, Locked rs P t₀ fed ps

/-- The queue holds what was fed. -/
structure State (rs : RadarDetectorSpecs) (P t₀ : ℕ) (fed : List ℕ) (pde : PriDetector) : Prop where
  pulses : pde.pulses = fed.map (stamp t₀ P)
  last : ∀ l ∈ fed.head?, pde.lastTs = stamp t₀ P l
  sequences : Sparse P t₀ fed pde.sequences ∨ Short rs P t₀ fed pde.sequences

theorem length_le_of_sorted (h : (k::fed).Pairwise (· > ·)) : fed.length ≤ k := by
  induction fed generalizing k with
  | nil => exact Nat.zero_le k
  | cons j rest ih =>
    have hlt : j < k := List.rel_of_pairwise_cons h List.mem_cons_self
    have hrest := ih h.tail
    rw [List.length_cons]
    omega

/-- No pulse of a burst leaves the queue. -/
theorem Burst.enqueue (h : Burst rs P) (hk : k < rs.ppb) (hsorted : (k::fed).Pairwise (· > ·))
    (hpulses : pde.pulses = fed.map (stamp t₀ P)) :
    pulseQueueEnqueue rs true (stamp t₀ P k) pde =
      { pde with lastTs := stamp t₀ P k, pulses := (k::fed).map (stamp t₀ P) } := by
  have hwindow : P*(rs.ppb-1) ≤ windowSize rs := by
    have hmul : P*(rs.ppb-1) ≤ rs.priMax*rs.ppb := Nat.mul_le_mul h.le_max (Nat.sub_le _ _)
    have hfits : rs.priMax*rs.ppb ≤ 65535*255 :=
      Nat.mul_le_mul (Nat.le_of_lt_succ rs.pri_u16) (Nat.le_of_lt_succ rs.ppb_u8)
    rw [windowSize, h.numPri, Nat.mul_one, u32, Nat.mod_eq_of_lt (by omega)]
    exact hmul
  have hkept : pulseQueueCheckWindow rs (stamp t₀ P k) ((k::fed).map (stamp t₀ P)) =
      (k::fed).map (stamp t₀ P) := by
    unfold pulseQueueCheckWindow
    split_ifs
    · rfl
    · rfl
    · refine List.rdropWhile_eq_self_iff.mpr fun hne => ?_
      obtain ⟨j, -, hj⟩ := List.mem_map.mp (List.getLast_mem hne)
      have hspan := span_le (P := P) ((Nat.sub_le k j).trans_lt hk)
      have hsub := stamp_sub t₀ P j k
      rw [← hj]
      simp only [decide_eq_true_eq]
      omega
  have hlen := length_le_of_sorted hsorted
  unfold pulseQueueEnqueue
  rw [if_pos rfl, hpulses, ← List.map_cons, hkept]
  dsimp only
  rw [if_neg]
  rw [List.length_map, List.length_cons, maxCount]
  omega

theorem map_suffix {p : ℕ} {older : List ℕ} (h : p::older <:+ fed.map (stamp t₀ P)) :
    ∃ j rest, p = stamp t₀ P j ∧ older = rest.map (stamp t₀ P) ∧ j::rest <:+ fed := by
  obtain ⟨newer, hnewer⟩ := h
  obtain ⟨front, back, rfl, -, hback⟩ := List.map_eq_append_iff.mp hnewer.symm
  obtain ⟨j, rest, rfl, rfl, rfl⟩ := List.map_eq_cons_iff.mp hback
  exact ⟨j, rest, rfl, rfl, List.suffix_append front (j::rest)⟩

/-- A pulse next to none makes and leaves sequences with a multiple of the period only. -/
theorem Burst.sparse_step (h : Burst rs P) (hk : k < rs.ppb) (hsorted : (k::fed).Pairwise (· > ·))
    (hpulses : pde.pulses = fed.map (stamp t₀ P)) (hapart : ∀ l ∈ fed, l+1 ≠ k)
    (hseqs : ∀ ps ∈ pde.sequences, Multiple P t₀ fed ps) {n : ℕ} {ps : PriSequence}
    (hps : ps ∈ updatedSeqs rs (stamp t₀ P k) n pde) : Multiple P t₀ (k::fed) ps := by
  have hnew : ∀ l ∈ fed, l < k := fun l hl => List.rel_of_pairwise_cons hsorted hl
  rcases createSequences_mem hps with hold | ⟨i, p, older, hsuffix, -, -, -, rfl⟩
  · obtain ⟨old, hmem, -, rfl⟩ := addToExistingSeqs_mem hold
    exact (hseqs old hmem).extend h hk hnew
  · rw [hpulses] at hsuffix
    obtain ⟨j, rest, rfl, rfl, hback⟩ := map_suffix hsuffix
    have hj : j ∈ fed := hback.subset List.mem_cons_self
    have hlt := hnew j hj
    have hne := hapart j hj
    exact h.candidate_multiple hk hback hsorted (by omega) i

/-- The sequence with the period takes the next pulse. -/
theorem Burst.locked_step (h : Burst rs P) (hk : k < rs.ppb) (hsorted : (k::fed).Pairwise (· > ·))
    {ps : PriSequence} (hlocked : Locked rs P t₀ fed ps) (hfed : fed ≠ []) :
    stamp t₀ P k ≤ ps.deadlineTs ∧
      Locked rs P t₀ (k::fed) (RadarDetector.extend rs (stamp t₀ P k) ps) := by
  obtain ⟨l, rest, rfl⟩ := List.exists_cons_of_ne_nil hfed
  have hlk : l < k := List.rel_of_pairwise_cons hsorted List.mem_cons_self
  have hlast : ps.lastTs = stamp t₀ P l := hlocked.last l rfl
  have hpri : ps.pri = 1*P := by rw [hlocked.pri, Nat.one_mul]
  have hfactor : 0 < factor rs (stamp t₀ P k) ps :=
    (h.factor_pos_iff Nat.one_pos hpri hlast hlk hk).mpr (by rw [Nat.mod_one, Nat.mod_one])
  constructor
  · obtain ⟨f, hf⟩ := Option.isSome_iff_exists.mp (List.getLast?_isSome.mpr hfed)
    have hspan := span_le (P := P) ((Nat.sub_le k f).trans_lt hk)
    have hsub := stamp_sub t₀ P f k
    rw [hlocked.deadline f hf, dur]
    omega
  · rw [RadarDetector.extend, if_pos hfactor]
    refine ⟨hlocked.pri, ?_, hlocked.falses, fun _ hl => ?_, hlocked.thresh, hlocked.deadline⟩
    · exact congrArg Nat.succ hlocked.count
    · obtain rfl := Option.some.inj hl
      rfl

/-- Every earlier pulse of the burst is in the window, and matches the period. -/
theorem Burst.all_match (h : Burst rs P) (t₀ : ℕ) (hk : k < rs.ppb) (hnew : ∀ l ∈ fed, l < k) :
    ∀ q ∈ fed.map (stamp t₀ P), minValidTs rs (stamp t₀ P k) P ≤ q ∧
      0 < pdeGetMultiple (u32 (stamp t₀ P k-q)) P rs.maxPriTolerance := by
  intro q hq
  obtain ⟨j, hj, rfl⟩ := List.mem_map.mp hq
  have hspan := span_le (P := P) ((Nat.sub_le k j).trans_lt hk)
  have hsub := stamp_sub t₀ P j k
  have hmatch := (h.multiple_iff Nat.one_pos (Nat.sub_pos_of_lt (hnew j hj))).mpr (Nat.one_dvd _)
  rw [Nat.one_mul] at hmatch
  rw [h.cut hk]
  refine ⟨?_, hmatch⟩
  unfold minValidTs dur
  split_ifs <;> omega

theorem Burst.found_all (h : Burst rs P) (hk : k < rs.ppb) (hnew : ∀ l ∈ fed, l < k) :
    found rs (stamp t₀ P k) P (fed.map (stamp t₀ P)) = fed.map (stamp t₀ P) := by
  have hall := h.all_match t₀ hk hnew
  unfold found
  rw [List.takeWhile_eq_self_iff.mpr fun q hq => by simpa using (hall q hq).1]
  exact List.filter_eq_self.mpr fun q hq => by simpa using (hall q hq).2

theorem getLastD_stamp (l : ℕ) (fed : List ℕ) :
    (fed.map (stamp t₀ P)).getLastD (stamp t₀ P l) = stamp t₀ P (fed.getLastD l) := by
  induction fed generalizing l with
  | nil => rfl
  | cons j rest ih =>
    rw [List.map_cons, List.getLastD_cons, List.getLastD_cons]
    exact ih j

/-- The candidate of two adjacent positions took every pulse. -/
theorem Burst.candidate_locked (h : Burst rs P) {rest : List ℕ} (hk : k+1 < rs.ppb)
    (hsorted : ((k+1)::k::rest).Pairwise (· > ·))
    (hfits : ∀ f ∈ (k::rest).getLast?, stamp t₀ P f+dur rs P < 2^64) :
    Locked rs P t₀ ((k+1)::k::rest) (finish rs (candidate rs (stamp t₀ P (k+1)) 0 (stamp t₀ P k)
      (rest.map (stamp t₀ P)))) := by
  have hnew : ∀ l ∈ rest, l < k+1 := fun l hl =>
    List.rel_of_pairwise_cons hsorted (List.mem_cons_of_mem k hl)
  have hcut : u32 (stamp t₀ P (k+1)-stamp t₀ P k) = P := by
    rw [h.cut hk, Nat.add_sub_cancel_left, Nat.one_mul]
  have hfalses : (finish rs (candidate rs (stamp t₀ P (k+1)) 0 (stamp t₀ P k)
      (rest.map (stamp t₀ P)))).countFalses = 0 := by
    unfold candidate
    rw [hcut]
    exact backScan_falses _ (h.all_match t₀ hk hnew)
  obtain ⟨falses, hspec⟩ := candidate_spec rs (stamp t₀ P (k+1)) 0 (stamp t₀ P k)
    (rest.map (stamp t₀ P))
  rw [hspec] at hfalses ⊢
  rw [hcut, h.found_all hk hnew, getLastD_stamp]
  refine ⟨rfl, ?_, hfalses, fun l hl => ?_, ?_, fun f hf => ?_⟩
  · show 2+(rest.map (stamp t₀ P)).length = rest.length+1+1
    rw [List.length_map]
    omega
  · obtain rfl := Option.some.inj hl
    rfl
  · exact if_neg (by rw [h.type]; nofun)
  · rw [List.getLast?_cons_cons] at hf
    have hlast : rest.getLastD k = f := by
      rw [List.getLast?_cons, ← List.getLastD_eq_getLast?] at hf
      exact Option.some.inj hf
    show (stamp t₀ P (rest.getLastD k)+dur rs P) % 2^64 = _
    rw [hlast, Nat.mod_eq_of_lt (hfits f hf)]

/-- A sequence that took the pulse leaves out the position before. -/
theorem Burst.updated_lt (h : Burst rs P) (hk : k+1 < rs.ppb) (hmem : k ∈ fed)
    (hnew : ∀ l ∈ fed, l < k+1) {seqs : List PriSequence}
    (hseqs : ∀ ps ∈ seqs, Multiple P t₀ fed ps) :
    (addToExistingSeqs rs (stamp t₀ P (k+1)) seqs).1 < fed.length+1 := by
  refine addToExistingSeqs_lt (Nat.succ_pos _) fun ps hps hfactor => ?_
  obtain ⟨m, l, hm, hpri, hl, hlast, hcount⟩ := (hseqs ps hps).spaced
  have hmod := (h.factor_pos_iff (Nat.zero_lt_of_lt hm) hpri hlast (hnew l hl) hk).mp hfactor
  have hsame : congruent m (k+1) fed = congruent m l fed := by
    rw [congruent, hmod, ← congruent]
  have hlt := congruent_lt hm hmem
  rw [congruent_cons] at hlt
  omega

/-- The first pulse next to another makes the sequence with the period. -/
theorem Burst.lock (h : Burst rs P) {rest : List ℕ} (hk : k+1 < rs.ppb)
    (hsorted : ((k+1)::k::rest).Pairwise (· > ·))
    (hfits : ∀ f ∈ (k::rest).getLast?, stamp t₀ P f+dur rs P < 2^64)
    (hpulses : pde.pulses = (k::rest).map (stamp t₀ P))
    (hseqs : ∀ ps ∈ pde.sequences, Multiple P t₀ (k::rest) ps) :
    ∃ ps ∈ updatedSeqs rs (stamp t₀ P (k+1)) pde.pulses.length pde,
      Locked rs P t₀ ((k+1)::k::rest) ps := by
  have hlocked := h.candidate_locked hk hsorted hfits
  refine ⟨_, ?_, hlocked⟩
  have hlt := h.updated_lt hk List.mem_cons_self
    (fun l hl => List.rel_of_pairwise_cons hsorted hl) hseqs
  have hcut : u32 (stamp t₀ P (k+1)-stamp t₀ P k) = P := by
    rw [h.cut hk, Nat.add_sub_cancel_left, Nat.one_mul]
  have hcount : (candidate rs (stamp t₀ P (k+1)) 0 (stamp t₀ P k) (rest.map (stamp t₀ P))).count =
      (k::rest).length+1 := hlocked.count
  unfold updatedSeqs
  rw [hpulses, List.map_cons, List.length_cons]
  dsimp only
  rw [createSequences.eq_def]
  dsimp only
  rw [hcut, if_neg (Nat.not_lt.mpr h.min_le), if_neg (Nat.not_lt.mpr h.le_max), hcount,
    if_neg (Nat.not_le.mpr hlt)]
  exact createSequences_keeps List.mem_cons_self

/-- A sequence that took enough pulses would be returned. -/
theorem Burst.short (h : Burst rs P) {seqs : List PriSequence} {ps : PriSequence} (hps : ps ∈ seqs)
    (hlocked : Locked rs P t₀ (k::fed) ps) (hnone : seqs.find? (complete rs) = none) :
    (k::fed).length < rs.ppbThresh := by
  have hincomplete : complete rs ps = false := by simpa using List.find?_eq_none.mp hnone ps hps
  simp only [complete, Bool.and_eq_false_iff, decide_eq_false_iff_not] at hincomplete
  rw [hlocked.count, hlocked.falses, hlocked.thresh, h.numPri, List.length_cons] at hincomplete
  rw [List.length_cons]
  omega

theorem sparse_cons (hsorted : (k::fed).Pairwise (· > ·)) (hapart : ∀ l ∈ fed, l+1 ∉ fed)
    (hnear : ∀ l ∈ fed, l+1 ≠ k) : ∀ l ∈ k::fed, l+1 ∉ k::fed := by
  intro l hl hnext
  rcases List.mem_cons.mp hl with rfl | hl <;> rcases List.mem_cons.mp hnext with heq | hnext
  · omega
  · have hlt : l+1 < l := List.rel_of_pairwise_cons hsorted hnext
    omega
  · exact hnear l hl heq
  · exact hapart l hl hnext

/-- A first pulse. -/
theorem State.first (hstate : State rs P t₀ [] pde) (h : Burst rs P) (hk : k < rs.ppb) :
    State rs P t₀ [k] (pdeShortAddPulse rs pde.pulses.length true (stamp t₀ P k) pde).1 := by
  have hpulses : pde.pulses = [] := hstate.pulses
  unfold pdeShortAddPulse
  rw [hpulses, if_pos List.length_nil,
    h.enqueue hk (List.pairwise_singleton _ k) hstate.pulses]
  refine ⟨rfl, fun l hl => ?_, .inl ⟨by simp, fun ps hps => ?_⟩⟩
  · obtain rfl := Option.some.inj hl
    rfl
  · rcases hstate.sequences with ⟨-, hseqs⟩ | ⟨hne, -⟩
    · obtain ⟨m, l, -, -, hl, -⟩ := (hseqs ps hps).spaced
      cases hl
    · exact absurd rfl hne

/-- A later pulse that is answered with nothing. -/
theorem State.next (hstate : State rs P t₀ fed pde) (h : Burst rs P) (hfed : fed ≠ [])
    (hk : k < rs.ppb) (hsorted : (k::fed).Pairwise (· > ·))
    (hfits : ∀ f ∈ fed.getLast?, stamp t₀ P f+dur rs P < 2^64)
    (hnone : (pdeShortAddPulse rs pde.pulses.length true (stamp t₀ P k) pde).2 = none) :
    State rs P t₀ (k::fed) (pdeShortAddPulse rs pde.pulses.length true (stamp t₀ P k) pde).1 := by
  obtain ⟨j, rest, rfl⟩ := List.exists_cons_of_ne_nil hfed
  have hjk : j < k := List.rel_of_pairwise_cons hsorted List.mem_cons_self
  have hlast : pde.lastTs = stamp t₀ P j := hstate.last j rfl
  have htol : rs.maxPriTolerance ≤ stamp t₀ P k-pde.lastTs := by
    have hperiod : 1*P ≤ (k-j)*P := Nat.mul_le_mul_right P (Nat.sub_pos_of_lt hjk)
    have htol := h.tolerance_lt
    rw [hlast, stamp_sub]
    omega
  have hpulses : pde.pulses.length ≠ 0 := by
    rw [hstate.pulses]
    exact Nat.succ_ne_zero _
  rw [pdeShortAddPulse_eq hpulses htol] at hnone ⊢
  cases hfind : (updatedSeqs rs (stamp t₀ P k) pde.pulses.length pde).find? (complete rs) with
  | some ps =>
    rw [hfind] at hnone
    cases hnone
  | none =>
    dsimp only
    let found : PriDetector :=
      { pde with sequences := updatedSeqs rs (stamp t₀ P k) pde.pulses.length pde }
    have hfound : found.pulses = (j::rest).map (stamp t₀ P) := hstate.pulses
    rw [h.enqueue hk hsorted hfound]
    refine ⟨rfl, fun l hl => ?_, ?_⟩
    · obtain rfl := Option.some.inj hl
      rfl
    have hlock {ps : PriSequence} (hps : ps ∈ updatedSeqs rs (stamp t₀ P k) pde.pulses.length pde)
        (hlocked : Locked rs P t₀ (k::j::rest) ps) : Short rs P t₀ (k::j::rest)
          (updatedSeqs rs (stamp t₀ P k) pde.pulses.length pde) :=
      ⟨List.cons_ne_nil k (j::rest), h.short hps hlocked hfind, ps, hps, hlocked⟩
    rcases hstate.sequences with ⟨hapart, hseqs⟩ | ⟨-, -, ps, hps, hlocked⟩
    · by_cases hadjacent : j+1 = k
      · subst hadjacent
        obtain ⟨ps, hps, hlocked⟩ := h.lock hk hsorted hfits hstate.pulses hseqs
        exact .inr (hlock hps hlocked)
      · have hnear : ∀ l ∈ j::rest, l+1 ≠ k := by
          intro l hl heq
          rcases List.mem_cons.mp hl with rfl | hl
          · exact hadjacent heq
          · have hlt : l < j := List.rel_of_pairwise_cons hsorted.tail hl
            omega
        exact .inl ⟨sparse_cons hsorted hapart hnear,
          fun ps hps => h.sparse_step hk hsorted hstate.pulses hnear hseqs hps⟩
    · obtain ⟨hdeadline, hnext⟩ := h.locked_step hk hsorted hlocked hfed
      exact .inr <| hlock (createSequences_keeps (addToExistingSeqs_keeps hps hdeadline)) hnext

/-- From every state on, a burst with enough pulses and two adjacent positions is detected. -/
theorem feed_detects (h : Burst rs P) {pre : List ℕ} (hstate : State rs P t₀ fed pde)
    (hsorted : (pre.reverse++fed).Pairwise (· > ·)) (hpos : ∀ k ∈ pre, k < rs.ppb)
    (hfits : ∀ f ∈ (pre.reverse++fed).getLast?, stamp t₀ P f+dur rs P < 2^64)
    (henough : rs.ppbThresh ≤ fed.length+pre.length)
    (hadjacent : ∃ k ∈ pre.reverse++fed, k+1 ∈ pre.reverse++fed) :
    (feed rs (pre.map (stamp t₀ P)) pde).2.isSome := by
  induction pre generalizing fed pde with
  | nil =>
    obtain ⟨k, hk, hnext⟩ := hadjacent
    rcases hstate.sequences with ⟨hapart, -⟩ | ⟨-, hshort, -⟩
    · exact absurd hnext (hapart k hk)
    · exact absurd henough (Nat.not_le.mpr hshort)
  | cons k pre ih =>
    have hk : k < rs.ppb := hpos k List.mem_cons_self
    rw [List.reverse_cons, List.append_assoc, List.singleton_append] at hsorted hfits hadjacent
    have hfed : (k::fed).Pairwise (· > ·) := hsorted.sublist (List.sublist_append_right _ _)
    rw [List.map_cons, feed]
    cases hres : pdeShortAddPulse rs pde.pulses.length true (stamp t₀ P k) pde with
    | mk pde' found =>
      cases found with
      | some ps => rfl
      | none =>
        have hnext : State rs P t₀ (k::fed) pde' := by
          have hpde : pde' =
              (pdeShortAddPulse rs pde.pulses.length true (stamp t₀ P k) pde).1 := by rw [hres]
          rw [hpde]
          by_cases hnil : fed = []
          · subst hnil
            exact hstate.first h hk
          · refine hstate.next h hnil hk hfed (fun f hf => hfits f ?_) (by rw [hres])
            rw [List.getLast?_append, List.getLast?_cons_of_ne_nil hnil, Option.mem_def.mp hf]
            rfl
        refine ih hnext hsorted (fun l hl => hpos l (List.mem_cons_of_mem k hl)) hfits ?_ hadjacent
        rw [List.length_cons] at henough ⊢
        omega

end Run

/-- The pulses of a burst at the positions `K` are answered with a sequence no later than with the
last of the first ones, `pre`, if these are enough and two of them are adjacent. The deadline of
the burst has 64 bits. -/
theorem burst_detected (rs : RadarDetectorSpecs) (P t₀ ts : ℕ) (K pre : List ℕ) (h : Burst rs P)
    (hsorted : K.Pairwise (· < ·)) (hpos : ∀ k ∈ K, k < rs.ppb)
    (hfits : ∀ k ∈ K.head?, stamp t₀ P k+dur rs P < 2^64) (hpre : pre <+: K)
    (henough : rs.ppbThresh ≤ pre.length) (hadjacent : ∃ k ∈ pre, k+1 ∈ pre) :
    (feed rs (pre.map (stamp t₀ P)) (priDetectorReset ts)).2.isSome := by
  have hstate : State rs P t₀ [] (priDetectorReset ts) := ⟨rfl, nofun, .inl ⟨nofun, nofun⟩⟩
  refine feed_detects h hstate ?_ (fun k hk => hpos k (hpre.subset hk)) ?_
    (by simpa using henough) ?_
  · rw [List.append_nil, List.pairwise_reverse]
    exact hsorted.sublist hpre.sublist
  · rw [List.append_nil, List.getLast?_reverse]
    intro f hf
    obtain ⟨rest, rfl⟩ := hpre
    exact hfits f (by rw [List.head?_append, Option.mem_def.mp hf]; rfl)
  · simpa using hadjacent

theorem burst_detected_five_pulses :
    (feed fccType6 ([0, 1, 3, 5, 7].map (stamp 1000 333)) (priDetectorReset 0)).2.isSome :=
  burst_detected fccType6 333 1000 0 [0, 1, 3, 5, 7, 8] [0, 1, 3, 5, 7]
    ⟨rfl, rfl, by decide, by decide, by decide, by decide⟩ (by decide) (by decide) (by decide)
    (by decide) (by decide) (by decide)

/-- Five pulses before the clock of 64 bits wraps, with a deadline behind it. -/
theorem deadline_wrapped : ¬ ∀ (rs : RadarDetectorSpecs) (P t₀ ts : ℕ) (K pre : List ℕ),
    Burst rs P → K.Pairwise (· < ·) → (∀ k ∈ K, k < rs.ppb) → (∀ k ∈ K, stamp t₀ P k < 2^64) →
      pre <+: K → rs.ppbThresh ≤ pre.length → (∃ k ∈ pre, k+1 ∈ pre) →
        (feed rs (pre.map (stamp t₀ P)) (priDetectorReset ts)).2.isSome := by
  intro h
  have hfound := h fccType6 333 (2^64-2400) 0 [0, 1, 3, 5, 7] [0, 1, 3, 5, 7]
    ⟨rfl, rfl, by decide, by decide, by decide, by decide⟩ (by decide) (by decide) (by decide)
    (List.prefix_refl _) (by decide) (by decide)
  exact absurd hfound (by decide +kernel)

end AIC.RadarBurst
