import Aic8800.Lib.PulseTrain
import Aic8800.RadarDetector

/-!
# What a detected pattern stands for

A sequence is a train of pulses of the run. The scan that makes one looks at the
newest pulse only, so that two pulses of one period can both count, and it cuts the
time between to 32 bits.
-/

set_option autoImplicit false

namespace AIC.RadarSoundness
open AIC.RadarDetector Lib.GuardedRun Lib.PulseTrain

variable (rs : RadarDetectorSpecs)

/-- The pattern is there: so many pulses of the run, each in a period of its own. -/
structure Genuine (fed : List ℕ) (ps : PriSequence) : Prop where
  pri : rs.priMin ≤ ps.pri ∧ ps.pri ≤ rs.priMax
  enough : ppbThreshOf rs ps.pri ≤ ps.count
  pulses : ∃ marks : List (ℕ × ℕ), marks.length = ps.count ∧
    (marks.map Prod.fst).Sublist fed ∧ (marks.map Prod.fst).head? = fed.head? ∧
    (∀ a ∈ marks, ∀ b ∈ marks, a.1-b.1 ≤ ps.pri*(rs.ppb-1)+2*rs.maxPriTolerance) ∧
      Slotted ps.pri (2*rs.maxPriTolerance) marks

/-- In a state whose last pulse was answered with a sequence the pattern is there. -/
def Sound (st : State) : Prop :=
  st.fed.Pairwise (· > ·) ∧ ∀ ps, st.returned = some ps → Genuine rs st.fed ps

/-- The queued pulses that the loop over candidates comes to. -/
def scanned (ts : ℕ) (pulses : List ℕ) : List ℕ := pulses.takeWhile fun p => u32 (ts-p) ≤ rs.priMax

/-- The pulses in the window from `p` back that are matched to the period. -/
def matched (ts pri p : ℕ) (pulses : List ℕ) : List ℕ :=
  pulses.filter fun q => q ≤ p ∧ minValidTs rs ts pri ≤ q ∧
    0 < pdeGetMultiple (ts-q) pri rs.maxPriTolerance

/-- The time between is not cut, or the spec wants more than the two pulses, and no two pulses
that are matched are closer than a period less the tolerances. -/
def ClearOf (ts : ℕ) (pulses : List ℕ) (p : ℕ) : Prop :=
  (ts-p < 2^32 ∨ 2 < ppbThreshOf rs (u32 (ts-p))) ∧
    (ts-p < 2^32 → ∀ a ∈ matched rs ts (ts-p) p pulses, ∀ b ∈ matched rs ts (ts-p) p pulses,
      b < a → ts-p ≤ a-b+2*rs.maxPriTolerance)

/-- A pulse that makes candidates is clear of each queued pulse in the range of periods. -/
def Clear (st : State) : Op → Prop
  | .pulse ts _ _ => rs.maxPriTolerance ≤ ts-st.pde.lastTs →
      ∀ p ∈ scanned rs ts st.pde.pulses, rs.priMin ≤ u32 (ts-p) → ClearOf rs ts st.pde.pulses p
  | .reset _ => True

instance (ts : ℕ) (pulses : List ℕ) (p : ℕ) : Decidable (ClearOf rs ts pulses p) :=
  inferInstanceAs (Decidable (_ ∧ _))

instance (st : State) : ∀ op, Decidable (Clear rs st op)
  | .pulse ts _ _ => inferInstanceAs (Decidable (_ → ∀ p ∈ scanned rs ts st.pde.pulses, _ → _))
  | .reset _ => inferInstanceAs (Decidable True)

/-! ## The pieces -/

variable {rs} {ts pri p : ℕ} {fed : List ℕ} {ps : PriSequence}

theorem pdeGetMultiple_near {val : ℕ} (h : 0 < pdeGetMultiple val pri rs.maxPriTolerance) :
    NearMultiple pri rs.maxPriTolerance val := by
  have hdiv := Nat.div_add_mod' val pri
  have hpos : pri ≠ 0 := by
    rintro rfl
    exact absurd h (Nat.lt_irrefl 0)
  have hmod := Nat.mod_lt val (Nat.pos_of_ne_zero hpos)
  unfold pdeGetMultiple at h
  rw [if_neg hpos] at h
  dsimp only at h
  by_cases hdelta : (if val < pri then pri-val else val-pri) ≤ rs.maxPriTolerance
  · split_ifs at hdelta <;> exact ⟨1, Nat.one_pos, by omega, by omega⟩
  · rw [if_neg hdelta] at h
    split_ifs at h with hrem hnext
    · have hsucc : (val/pri+1)*pri = val/pri*pri+pri := Nat.succ_mul (val/pri) pri
      exact ⟨val/pri+1, Nat.succ_pos _, by omega, by omega⟩
    · exact absurd h (Nat.lt_irrefl 0)
    · exact ⟨val/pri, h, by omega, by omega⟩

theorem dur_lt (rs : RadarDetectorSpecs) (hpri : pri ≤ rs.priMax) : dur rs pri < 2^25 := by
  have hmul : pri*(rs.ppb-1) ≤ 65535*254 :=
    Nat.mul_le_mul (hpri.trans (Nat.le_of_lt_succ rs.pri_u16)) (by have := rs.ppb_u8; omega)
  have htol := rs.tolerance_u8
  unfold dur
  omega

theorem pri_le_dur : pri ≤ dur rs pri := by
  have hmul : pri*1 ≤ pri*(rs.ppb-1) := Nat.mul_le_mul_left pri (by have := rs.two_le_ppb; omega)
  unfold dur
  omega

theorem minValidTs_le {q : ℕ} (h : minValidTs rs ts pri ≤ q) : ts ≤ q+dur rs pri := by
  unfold minValidTs at h
  split_ifs at h <;> omega

theorem backScan_spec (rs : RadarDetectorSpecs) (lim : ℕ) (older : List ℕ) (tmp : ℕ) (ps : PriSequence) :
    ∃ falses, backScan rs lim older tmp ps =
      let hits := (older.takeWhile (lim ≤ ·)).filter
        fun q => 0 < pdeGetMultiple (u32 (ps.lastTs-q)) ps.pri rs.maxPriTolerance
      { ps with
        count := ps.count+hits.length
        firstTs := hits.getLastD ps.firstTs
        countFalses := falses } := by
  induction older generalizing tmp ps with
  | nil => exact ⟨ps.countFalses, rfl⟩
  | cons q older ih =>
    unfold backScan
    by_cases hold : q < lim
    · refine ⟨ps.countFalses, ?_⟩
      rw [if_pos hold, List.takeWhile_cons_of_neg (by simpa using hold)]
      rfl
    · rw [if_neg hold, List.takeWhile_cons_of_pos (by simpa using hold)]
      by_cases hhit : 0 < pdeGetMultiple (u32 (ps.lastTs-q)) ps.pri rs.maxPriTolerance
      · rw [if_pos hhit, List.filter_cons_of_pos (by simpa using hhit)]
        obtain ⟨falses, hrest⟩ := ih 0
          { ps with count := ps.count+1, firstTs := q, countFalses := ps.countFalses+tmp }
        refine ⟨falses, hrest.trans ?_⟩
        simp only [List.length_cons, List.getLastD_cons]
        congr 1
        omega
      · rw [if_neg hhit, List.filter_cons_of_neg (by simpa using hhit)]
        exact ih (tmp+1) ps

/-- What the scan for a candidate finds. -/
def found (rs : RadarDetectorSpecs) (ts pri : ℕ) (older : List ℕ) : List ℕ :=
  (older.takeWhile (minValidTs rs ts pri ≤ ·)).filter
    fun q => 0 < pdeGetMultiple (u32 (ts-q)) pri rs.maxPriTolerance

theorem candidate_spec (rs : RadarDetectorSpecs) (ts idx p : ℕ) (older : List ℕ) :
    ∃ falses, finish rs (candidate rs ts idx p older) =
      { pri := u32 (ts-p)
        dur := dur rs (u32 (ts-p))
        count := 2+(found rs ts (u32 (ts-p)) older).length
        countFalses := falses
        firstTs := (found rs ts (u32 (ts-p)) older).getLastD p
        lastTs := ts
        deadlineTs := ((found rs ts (u32 (ts-p)) older).getLastD p+dur rs (u32 (ts-p))) % 2^64
        ppbThresh := ppbThreshOf rs (u32 (ts-p)) } := by
  obtain ⟨falses, hscan⟩ := backScan_spec rs (minValidTs rs ts (u32 (ts-p))) older 0
    ⟨u32 (ts-p), dur rs (u32 (ts-p)), 2, idx, p, ts, 0, 0⟩
  refine ⟨falses, ?_⟩
  unfold candidate
  dsimp only
  rw [hscan]
  rfl

/-! ## The sequences -/

/-- A sequence that stands for a train of pulses. -/
structure Tracked (rs : RadarDetectorSpecs) (fed : List ℕ) (ps : PriSequence) : Prop where
  pri : rs.priMin ≤ ps.pri ∧ ps.pri ≤ rs.priMax
  dur : ps.dur = dur rs ps.pri
  deadline : ps.deadlineTs = (ps.firstTs+ps.dur) % 2^64
  thresh : ps.ppbThresh = ppbThreshOf rs ps.pri
  within : ps.lastTs ≤ ps.firstTs+ps.dur
  train : ∃ train : List ℕ, train.length = ps.count ∧ train.Sublist fed ∧
    train.head? = some ps.lastTs ∧ train.getLast? = some ps.firstTs ∧
      Train ps.pri (2*rs.maxPriTolerance) train

/-- A sequence of two pulses with the time between cut. It is not complete, and the next pulse
comes too late for it. -/
structure Doomed (fed : List ℕ) (ps : PriSequence) : Prop where
  short : ps.count < ps.ppbThresh
  late : ∃ t ∈ fed, ps.deadlineTs < t

theorem Tracked.mono (h : Tracked rs fed ps) (ts : ℕ) : Tracked rs (ts::fed) ps := by
  obtain ⟨train, hlen, hsub, hrest⟩ := h.train
  exact { h with train := ⟨train, hlen, hsub.cons ts, hrest⟩ }

theorem Doomed.mono (h : Doomed fed ps) (ts : ℕ) : Doomed (ts::fed) ps := by
  obtain ⟨t, ht, hlate⟩ := h.late
  exact ⟨h.short, t, List.mem_cons_of_mem ts ht, hlate⟩

theorem found_spec {older : List ℕ} {q : ℕ} (h : q ∈ found rs ts pri older) :
    q ∈ older ∧ minValidTs rs ts pri ≤ q ∧
      0 < pdeGetMultiple (u32 (ts-q)) pri rs.maxPriTolerance := by
  obtain ⟨hwindow, hhit⟩ := List.mem_filter.mp h
  exact ⟨(List.takeWhile_sublist _).subset hwindow, by simpa using List.mem_takeWhile_imp hwindow,
    by simpa using hhit⟩

theorem found_sublist (older : List ℕ) : (found rs ts pri older).Sublist older :=
  List.filter_sublist.trans (List.takeWhile_sublist _)

theorem pdeGetMultiple_self (hpri : 0 < pri) : 0 < pdeGetMultiple pri pri rs.maxPriTolerance := by
  unfold pdeGetMultiple
  rw [if_neg hpri.ne']
  simp

theorem window_of_pri (hp : ts-p = pri) : minValidTs rs ts pri ≤ p := by
  have hle : pri ≤ dur rs pri := pri_le_dur
  unfold minValidTs
  split_ifs <;> omega

/-- Where nothing is cut, a candidate and what the scan finds behind it are matched. -/
theorem mem_matched {pulses older : List ℕ} (hpulses : pulses.Pairwise (· > ·))
    (hsuffix : p::older <:+ pulses) (hpri : ts-p = pri) (hrange : rs.priMin ≤ pri ∧ pri ≤ rs.priMax)
    {q : ℕ} (hq : q ∈ p::found rs ts pri older) : q ∈ matched rs ts pri p pulses := by
  have htol := rs.tolerance_lt
  rcases List.mem_cons.mp hq with rfl | hq
  · refine List.mem_filter.mpr ⟨hsuffix.subset List.mem_cons_self, ?_⟩
    rw [hpri]
    simp only [decide_eq_true_eq]
    exact ⟨le_rfl, window_of_pri hpri, pdeGetMultiple_self (by omega)⟩
  · obtain ⟨holder, hwindow, hhit⟩ := found_spec hq
    have hlt : q < p := List.rel_of_pairwise_cons (hpulses.sublist hsuffix.sublist) holder
    have hcut : u32 (ts-q) = ts-q := by
      have hle := minValidTs_le hwindow
      have hdur := dur_lt rs hrange.2
      exact Nat.mod_eq_of_lt (by omega)
    rw [hcut] at hhit
    refine List.mem_filter.mpr ⟨hsuffix.subset (List.mem_cons_of_mem p holder), ?_⟩
    simp only [decide_eq_true_eq]
    exact ⟨hlt.le, hwindow, hhit⟩

theorem candidate_tracked {pulses older : List ℕ} (hfed : fed.Pairwise (· > ·))
    (hnew : ∀ t ∈ fed, t < ts) (hsub : pulses.Sublist fed) (hsuffix : p::older <:+ pulses)
    (hrange : rs.priMin ≤ u32 (ts-p) ∧ u32 (ts-p) ≤ rs.priMax) (hclear : ClearOf rs ts pulses p)
    (idx : ℕ) (hnear : ts-p < 2^32) :
    Tracked rs (ts::fed) (finish rs (candidate rs ts idx p older)) := by
  have hcut : u32 (ts-p) = ts-p := Nat.mod_eq_of_lt hnear
  obtain ⟨falses, hspec⟩ := candidate_spec rs ts idx p older
  rw [hspec]
  rw [hcut] at hrange ⊢
  have hpulses : pulses.Pairwise (· > ·) := hfed.sublist hsub
  have hmatched {q : ℕ} (hq : q ∈ p::found rs ts (ts-p) older) :
      q ∈ matched rs ts (ts-p) p pulses := mem_matched hpulses hsuffix rfl hrange hq
  have hhits : (p::found rs ts (ts-p) older).Sublist fed :=
    ((found_sublist older).cons_cons p).trans (hsuffix.sublist.trans hsub)
  have hp : p < ts := hnew p (hhits.subset List.mem_cons_self)
  have hback : Train (ts-p) (2*rs.maxPriTolerance) (p::found rs ts (ts-p) older) := by
    refine Train.of_matched (t := ts) (hfed.sublist hhits)
      (fun a ha => (hnew a (hhits.subset ha)).le) (fun a ha => ?_)
      fun a ha b hb => hclear.2 hnear a (hmatched ha) b (hmatched hb)
    have hhit := (List.mem_filter.mp (hmatched ha)).2
    simp only [decide_eq_true_eq] at hhit
    exact pdeGetMultiple_near hhit.2.2
  have hlast : (p::found rs ts (ts-p) older).getLast? =
      some ((found rs ts (ts-p) older).getLastD p) := by simp [List.getLast?_cons]
  have hwindow := (List.mem_filter.mp (hmatched (List.mem_of_getLast? hlast))).2
  simp only [decide_eq_true_eq] at hwindow
  exact {
    pri := hrange
    dur := rfl
    deadline := rfl
    thresh := rfl
    within := minValidTs_le hwindow.2.1
    train := ⟨ts::p::found rs ts (ts-p) older, by simp [Nat.add_comm 2], hhits.cons_cons ts, rfl,
      by rw [List.getLast?_cons_cons, hlast], hback.extend rfl hp (.self _ _)⟩ }

theorem candidate_doomed {older : List ℕ} (holder : ∀ q ∈ older, q < p)
    (hpri : u32 (ts-p) ≤ rs.priMax) (hfar : 2^32 ≤ ts-p)
    (hthresh : 2 < ppbThreshOf rs (u32 (ts-p))) (idx : ℕ) :
    Doomed (ts::fed) (finish rs (candidate rs ts idx p older)) := by
  have hdur := dur_lt rs hpri
  have hnone : found rs ts (u32 (ts-p)) older = [] := by
    refine List.eq_nil_iff_forall_not_mem.mpr fun q hq => ?_
    obtain ⟨hold, hwindow, -⟩ := found_spec hq
    have hlt := holder q hold
    have hle := minValidTs_le hwindow
    omega
  obtain ⟨falses, hspec⟩ := candidate_spec rs ts idx p older
  rw [hspec, hnone]
  refine ⟨hthresh, ts, List.mem_cons_self, ?_⟩
  have hmod := Nat.mod_le (p+dur rs (u32 (ts-p))) (2^64)
  show (p+dur rs (u32 (ts-p))) % 2^64 < ts
  omega

/-- Where a sequence of the list comes from. -/
theorem createSequences_mem {minCount mem idx : ℕ} {pulses : List ℕ} {seqs : List PriSequence}
    (h : ps ∈ (createSequences rs ts minCount mem idx pulses seqs).2) :
    ps ∈ seqs ∨ ∃ i p older, p::older <:+ pulses ∧ p ∈ scanned rs ts pulses ∧
      rs.priMin ≤ u32 (ts-p) ∧ u32 (ts-p) ≤ rs.priMax ∧ ps = finish rs (candidate rs ts i p older) := by
  induction pulses generalizing mem idx seqs with
  | nil => exact .inl h
  | cons p older ih =>
    have hrange := rs.pri_le
    have hlater (hpri : u32 (ts-p) ≤ rs.priMax) (hin : ps ∈ seqs ∨ ∃ i p' older',
        p'::older' <:+ older ∧ p' ∈ scanned rs ts older ∧ rs.priMin ≤ u32 (ts-p') ∧
          u32 (ts-p') ≤ rs.priMax ∧ ps = finish rs (candidate rs ts i p' older')) :
        ps ∈ seqs ∨ ∃ i p' older', p'::older' <:+ p::older ∧ p' ∈ scanned rs ts (p::older) ∧
          rs.priMin ≤ u32 (ts-p') ∧ u32 (ts-p') ≤ rs.priMax ∧
            ps = finish rs (candidate rs ts i p' older') := by
      rcases hin with hold | ⟨i, p', older', hsuffix, hscanned, hrest⟩
      · exact .inl hold
      · refine .inr ⟨i, p', older', hsuffix.trans (List.suffix_cons p older), ?_, hrest⟩
        rw [scanned, List.takeWhile_cons_of_pos (by simpa using hpri)]
        exact List.mem_cons_of_mem p hscanned
    unfold createSequences at h
    dsimp only at h
    by_cases hsmall : u32 (ts-p) < rs.priMin
    · rw [if_pos hsmall] at h
      exact hlater (hsmall.le.trans hrange) (ih h)
    · rw [if_neg hsmall] at h
      by_cases hlarge : u32 (ts-p) > rs.priMax
      · rw [if_pos hlarge] at h
        exact .inl h
      · rw [if_neg hlarge] at h
        have hle : u32 (ts-p) ≤ rs.priMax := Nat.le_of_not_lt hlarge
        by_cases hmin : (candidate rs ts idx p older).count ≤ minCount
        · rw [if_pos hmin] at h
          exact hlater hle (ih h)
        · rw [if_neg hmin] at h
          cases mem with
          | zero => exact .inl h
          | succ mem =>
            rcases ih h with hold | hnew
            · rcases List.mem_cons.mp hold with heq | hold
              · refine .inr ⟨idx, p, older, List.suffix_rfl, ?_, Nat.le_of_not_lt hsmall, hle, heq⟩
                rw [scanned, List.takeWhile_cons_of_pos (by simpa using hle)]
                exact List.mem_cons_self
              · exact .inl hold
            · exact hlater hle (.inr hnew)

theorem addToExistingSeqs_mem {seqs : List PriSequence} (h : ps ∈ (addToExistingSeqs rs ts seqs).2) :
    ∃ old ∈ seqs, ts ≤ old.deadlineTs ∧ ps = RadarDetector.extend rs ts old := by
  induction seqs with
  | nil => exact absurd h List.not_mem_nil
  | cons old seqs ih =>
    have htail (h : ps ∈ (addToExistingSeqs rs ts seqs).2) :
        ∃ s ∈ old::seqs, ts ≤ s.deadlineTs ∧ ps = RadarDetector.extend rs ts s := by
      obtain ⟨s, hs, hrest⟩ := ih h
      exact ⟨s, List.mem_cons_of_mem old hs, hrest⟩
    unfold addToExistingSeqs at h
    dsimp only at h
    by_cases hlate : ts > old.deadlineTs
    · rw [if_pos hlate] at h
      exact htail h
    · rw [if_neg hlate] at h
      rcases List.mem_cons.mp h with rfl | h
      · exact ⟨old, List.mem_cons_self, Nat.le_of_not_lt hlate, rfl⟩
      · exact htail h

theorem Tracked.extend (h : Tracked rs fed ps) (hnew : ∀ t ∈ fed, t < ts)
    (hdeadline : ts ≤ ps.deadlineTs) : Tracked rs (ts::fed) (RadarDetector.extend rs ts ps) := by
  have hwithin : ts ≤ ps.firstTs+ps.dur := by
    rw [h.deadline] at hdeadline
    exact hdeadline.trans (Nat.mod_le _ _)
  by_cases hfactor : 0 < factor rs ts ps
  · obtain ⟨train, hlen, hsub, hhead, hlast, htrain⟩ := h.train
    have hmem := List.mem_of_head? hhead
    have hlt : ps.lastTs < ts := hnew _ (hsub.subset hmem)
    have hfirst : ps.firstTs ≤ ps.lastTs := (htrain.between hhead hlast hmem).1
    have hdur := dur_lt rs h.pri.2
    have hcut : u32 (ts-ps.lastTs) = ts-ps.lastTs :=
      Nat.mod_eq_of_lt (by rw [h.dur] at hwithin; omega)
    rw [factor, hcut] at hfactor
    have hnear : NearMultiple ps.pri (2*rs.maxPriTolerance) (ts-ps.lastTs) :=
      (pdeGetMultiple_near hfactor).mono (by omega)
    rw [RadarDetector.extend, factor, hcut, if_pos hfactor]
    obtain ⟨newest, rest⟩ := List.head?_eq_some_iff.mp hhead
    exact { h with
      within := hwithin
      train := ⟨ts::train, by rw [List.length_cons, hlen], hsub.cons_cons ts, rfl,
        by rw [rest, List.getLast?_cons_cons, ← rest, hlast], htrain.extend hhead hlt hnear⟩ }
  · rw [RadarDetector.extend, if_neg hfactor]
    obtain ⟨train, hlen, hsub, hrest⟩ := h.train
    exact { h with train := ⟨train, hlen, hsub.cons ts, hrest⟩ }

theorem Tracked.genuine (h : Tracked rs fed ps) (hnewest : fed.head? = some ps.lastTs)
    (hcomplete : complete rs ps = true) : Genuine rs fed ps := by
  obtain ⟨train, hlen, hsub, hhead, hlast, htrain⟩ := h.train
  obtain ⟨marks, rfl, hslotted⟩ := htrain.slots
  have hbetween {a : ℕ × ℕ} (ha : a ∈ marks) : ps.firstTs ≤ a.1 ∧ a.1 ≤ ps.lastTs :=
    htrain.between hhead hlast (List.mem_map_of_mem ha)
  have hwithin := h.within
  rw [h.dur] at hwithin
  unfold RadarDetector.dur at hwithin
  simp only [complete, Bool.and_eq_true, decide_eq_true_eq] at hcomplete
  refine ⟨h.pri, h.thresh ▸ hcomplete.1, marks, by rw [← hlen, List.length_map], hsub,
    hhead.trans hnewest.symm, fun a ha b hb => ?_, hslotted⟩
  have hlow := (hbetween hb).1
  have hhigh := (hbetween ha).2
  omega

/-! ## The run -/

/-- The sequences after a pulse, before one of them is returned. -/
def updatedSeqs (rs : RadarDetectorSpecs) (ts seqMem : ℕ) (pde : PriDetector) :
    List PriSequence :=
  let added := addToExistingSeqs rs ts pde.sequences
  (createSequences rs ts added.1 seqMem 0 pde.pulses added.2).2

structure Inv (rs : RadarDetectorSpecs) (st : State) : Prop where
  sorted : st.fed.Pairwise (· > ·)
  queued : st.pde.pulses.Sublist st.fed
  sequences : ∀ ps ∈ st.pde.sequences, complete rs ps = false ∧
    (Tracked rs st.fed ps ∨ Doomed st.fed ps)
  returned : ∀ ps, st.returned = some ps → Genuine rs st.fed ps

theorem pulseQueueCheckWindow_sublist (rs : RadarDetectorSpecs) (lastTs : ℕ) (pulses : List ℕ) :
    (pulseQueueCheckWindow rs lastTs pulses).Sublist pulses := by
  unfold pulseQueueCheckWindow
  split_ifs
  · exact List.Sublist.refl pulses
  · exact List.Sublist.refl pulses
  · exact (List.rdropWhile_prefix _ pulses).sublist

theorem pulseQueueEnqueue_spec (mem : Bool) (ts : ℕ) (pde : PriDetector) :
    (pulseQueueEnqueue rs mem ts pde).sequences = pde.sequences ∧
      (pulseQueueEnqueue rs mem ts pde).pulses.Sublist (ts::pde.pulses) := by
  unfold pulseQueueEnqueue
  cases mem with
  | false => exact ⟨rfl, List.sublist_cons_self ts pde.pulses⟩
  | true =>
    have hwindow := pulseQueueCheckWindow_sublist rs ts (ts::pde.pulses)
    refine ⟨rfl, ?_⟩
    rw [if_pos rfl]
    dsimp only
    split_ifs
    · exact (List.dropLast_sublist _).trans hwindow
    · exact hwindow

theorem pdeShortAddPulse_cases (rs : RadarDetectorSpecs) (seqMem : ℕ) (pulseMem : Bool) (ts : ℕ)
    (pde : PriDetector) :
    let res := pdeShortAddPulse rs seqMem pulseMem ts pde
    (res.2 = none ∧ res.1.sequences = pde.sequences ∧ res.1.pulses.Sublist (ts::pde.pulses)) ∨
    (res.2 = none ∧ res.1 = priDetectorReset ts) ∨
    (rs.maxPriTolerance ≤ ts-pde.lastTs ∧
      res.2 = (updatedSeqs rs ts seqMem pde).find? (complete rs) ∧
      (res.2 = none → res.1.sequences = updatedSeqs rs ts seqMem pde ∧
        res.1.pulses.Sublist (ts::pde.pulses))) := by
  dsimp only
  unfold pdeShortAddPulse
  by_cases hfirst : pde.pulses.length = 0
  · rw [if_pos hfirst]
    exact .inl ⟨rfl, pulseQueueEnqueue_spec pulseMem ts pde⟩
  · rw [if_neg hfirst]
    by_cases hclose : ts-pde.lastTs < rs.maxPriTolerance
    · rw [if_pos hclose]
      exact .inl ⟨rfl, rfl, List.sublist_cons_self ts pde.pulses⟩
    · rw [if_neg hclose]
      refine .inr ?_
      unfold updatedSeqs
      dsimp only
      rcases createSequences rs ts (addToExistingSeqs rs ts pde.sequences).1 seqMem 0 pde.pulses
        (addToExistingSeqs rs ts pde.sequences).2 with ⟨ok, seqs⟩
      cases ok with
      | false => exact .inl ⟨rfl, rfl⟩
      | true =>
        refine .inr ⟨Nat.le_of_not_lt hclose, ?_⟩
        dsimp only [checkDetection]
        cases seqs.find? (complete rs) with
        | none => exact ⟨rfl, fun _ => pulseQueueEnqueue_spec pulseMem ts { pde with sequences := seqs }⟩
        | some ps => exact ⟨rfl, fun h => nomatch h⟩

theorem complete_extend (hfactor : ¬ 0 < factor rs ts ps) (h : complete rs ps = false) :
    complete rs (RadarDetector.extend rs ts ps) = false := by
  rw [RadarDetector.extend, if_neg hfactor]
  simp only [complete, Bool.and_eq_false_iff, decide_eq_false_iff_not] at h ⊢
  omega

/-- After a clear pulse each sequence stands for a train, and the train of a complete one ends
with the pulse. -/
theorem updatedSeqs_spec {st : State} {seqMem : ℕ} {pulseMem : Bool} (hinv : Inv rs st)
    (hnew : ∀ t ∈ st.fed, t < ts) (htol : rs.maxPriTolerance ≤ ts-st.pde.lastTs)
    (hclear : Clear rs st (.pulse ts seqMem pulseMem))
    (hps : ps ∈ updatedSeqs rs ts seqMem st.pde) :
    Tracked rs (ts::st.fed) ps ∧ (complete rs ps = true → ps.lastTs = ts) ∨
      Doomed (ts::st.fed) ps := by
  rcases createSequences_mem hps with hold | ⟨idx, p, older, hsuffix, hscanned, hlow, hhigh, rfl⟩
  · obtain ⟨old, hmem, hdeadline, rfl⟩ := addToExistingSeqs_mem hold
    obtain ⟨hincomplete, htracked | hdoomed⟩ := hinv.sequences old hmem
    · refine .inl ⟨htracked.extend hnew hdeadline, fun hcomplete => ?_⟩
      by_cases hfactor : 0 < factor rs ts old
      · rw [RadarDetector.extend, if_pos hfactor]
      · exact absurd hcomplete
          (Bool.eq_false_iff.mp (complete_extend hfactor hincomplete))
    · obtain ⟨t, ht, hlate⟩ := hdoomed.late
      have hlt := hnew t ht
      omega
  · obtain hclearp := hclear htol p hscanned hlow
    rcases Nat.lt_or_ge (ts-p) (2^32) with hnear | hfar
    · refine .inl ⟨candidate_tracked hinv.sorted hnew hinv.queued hsuffix ⟨hlow, hhigh⟩ hclearp idx
        hnear, fun _ => ?_⟩
      obtain ⟨falses, hspec⟩ := candidate_spec rs ts idx p older
      rw [hspec]
    · have hthresh := hclearp.1.resolve_left (Nat.not_lt.mpr hfar)
      have hsorted := (hinv.sorted.sublist hinv.queued).sublist hsuffix.sublist
      exact .inr (candidate_doomed (fun q hq => List.rel_of_pairwise_cons hsorted hq) hhigh hfar
        hthresh idx)

theorem Doomed.incomplete (h : Doomed fed ps) : complete rs ps = false := by
  have hshort := h.short
  simp only [complete, Bool.and_eq_false_iff, decide_eq_false_iff_not]
  omega

theorem start_inv (rs : RadarDetectorSpecs) (ts : ℕ) : Inv rs (start ts) :=
  ⟨List.Pairwise.nil, List.Sublist.slnil, nofun, nofun⟩

theorem pulse_inv {st st' : State} {seqMem : ℕ} {pulseMem : Bool} (hinv : Inv rs st)
    (hclear : Clear rs st (.pulse ts seqMem pulseMem))
    (h : step rs st (.pulse ts seqMem pulseMem) = some st') : Inv rs st' := by
  obtain ⟨⟨-, hnew⟩, hst⟩ := Option.ite_none_right_eq_some.mp h
  obtain rfl := Option.some.inj hst
  have hsorted : (ts::st.fed).Pairwise (· > ·) := List.pairwise_cons.mpr ⟨hnew, hinv.sorted⟩
  have hqueue {pulses : List ℕ} (hp : pulses.Sublist (ts::st.pde.pulses)) :
      pulses.Sublist (ts::st.fed) := hp.trans (hinv.queued.cons_cons ts)
  have hcases := pdeShortAddPulse_cases rs seqMem pulseMem ts st.pde
  generalize pdeShortAddPulse rs seqMem pulseMem ts st.pde = res at hcases ⊢
  obtain ⟨pde, returned⟩ := res
  rcases hcases with ⟨rfl, hseqs, hpulses⟩ | ⟨rfl, rfl⟩ | ⟨htol, rfl, hrest⟩
  · refine ⟨hsorted, hqueue hpulses, fun ps hps => ?_, nofun⟩
    obtain ⟨hincomplete, hkind⟩ := hinv.sequences ps (hseqs ▸ hps)
    exact ⟨hincomplete, hkind.imp (·.mono ts) (·.mono ts)⟩
  · exact ⟨hsorted, List.nil_sublist _, nofun, nofun⟩
  · have hspec {ps : PriSequence} (hps : ps ∈ updatedSeqs rs ts seqMem st.pde) :=
      updatedSeqs_spec hinv hnew htol hclear hps
    cases hfind : (updatedSeqs rs ts seqMem st.pde).find? (complete rs) with
    | none =>
      obtain ⟨hseqs, hpulses⟩ := hrest hfind
      refine ⟨hsorted, hqueue hpulses, fun ps hps => ?_, nofun⟩
      replace hps : ps ∈ updatedSeqs rs ts seqMem st.pde := hseqs ▸ hps
      have hincomplete : complete rs ps = false := by
        simpa using List.find?_eq_none.mp hfind ps hps
      exact ⟨hincomplete, (hspec hps).imp And.left id⟩
    | some ps =>
      refine ⟨hsorted, List.nil_sublist _, nofun, fun ps' hps' => ?_⟩
      obtain rfl := Option.some.inj hps'
      have hcomplete := List.find?_some hfind
      rcases hspec (List.mem_of_find?_eq_some hfind) with ⟨htracked, hlast⟩ | hdoomed
      · exact htracked.genuine (congrArg some (hlast hcomplete).symm) hcomplete
      · exact absurd hcomplete (Bool.eq_false_iff.mp hdoomed.incomplete)

theorem step_inv (st : State) (op : Op) (st' : State) (hclear : Clear rs st op)
    (h : step rs st op = some st') (hinv : Inv rs st) : Inv rs st' := by
  cases op with
  | pulse ts seqMem pulseMem => exact pulse_inv hinv hclear h
  | reset ts =>
    obtain rfl := Option.some.inj h
    exact ⟨hinv.sorted, List.nil_sublist _, nofun, nofun⟩

/-- In a run of clear pulses every sequence that is returned is a pattern. -/
theorem detection_sound (rs : RadarDetectorSpecs) (ts : ℕ) (ops : List Op)
    (hclear : Meets (step rs) (Clear rs) (start ts) ops) :
    Throughout (step rs) (Sound rs) (start ts) ops :=
  throughout_of_meets step_inv (fun _ hinv => ⟨hinv.sorted, hinv.returned⟩) (start_inv rs ts) hclear

/-- FCC_PATTERN(6, 0, 8, 333, 333, 1, 9, RADAR_WAVEFORM_SHORT). -/
def fccType6 : RadarDetectorSpecs where
  priMin := 317
  priMax := 349
  numPri := 1
  ppb := 9
  ppbThresh := 5
  maxPriTolerance := 16
  type := .short
  tolerance_pos := by decide
  tolerance_lt := by decide
  pri_le := by decide
  two_le_ppb := by decide
  pri_u16 := by decide
  numPri_u8 := by decide
  ppb_u8 := by decide
  ppbThresh_u8 := by decide
  tolerance_u8 := by decide

def pulses (ts : List ℕ) : List Op := ts.map (.pulse · 100 true)

theorem detection_sound_five_pulses :
    (exec (step fccType6) (start 0) (pulses [1001, 1334, 1667, 2000, 2333])).map
      (fun st => st.returned.map PriSequence.count) = some (some 5) ∧
    Throughout (step fccType6) (Sound fccType6) (start 0)
      (pulses [1001, 1334, 1667, 2000, 2333]) :=
  ⟨by decide +kernel, detection_sound fccType6 0 _ (by decide +kernel)⟩

/-- A spec whose threshold two pulses reach. -/
def twoPulses : RadarDetectorSpecs :=
  { fccType6 with
    ppb := 2
    ppbThresh := 1
    two_le_ppb := by decide
    ppb_u8 := by decide
    ppbThresh_u8 := by decide }

/-- Two pulses of one period count as two, and so do pulses more than 2^32 us apart. -/
theorem doubled_pulse_and_cut_gap :
    ¬ Throughout (step fccType6) (Sound fccType6) (start 0)
      (pulses [1001, 1326, 1342, 1667, 2000]) ∧
    ¬ Throughout (step twoPulses) (Sound twoPulses) (start 0) (pulses [1000, 4294968629]) := by
  constructor
  · intro h
    have hrun : exec (step fccType6) (start 0) (pulses [1001, 1326, 1342, 1667, 2000]) =
      some ⟨priDetectorReset 2000, [2000, 1667, 1342, 1326, 1001],
        some ⟨325, 2632, 5, 0, 1001, 2000, 3633, 5⟩⟩ := by decide +kernel
    obtain ⟨marks, hlen, hsub, -, -, hslotted⟩ :=
      ((h _ (List.prefix_refl _) _ hrun).2 _ rfl).pulses
    have hall := hsub.eq_of_length (by rw [List.length_map, hlen]; rfl)
    obtain ⟨m1, rest, rfl, -, hall⟩ := List.map_eq_cons_iff.mp hall
    obtain ⟨m2, rest, rfl, -, hall⟩ := List.map_eq_cons_iff.mp hall
    obtain ⟨⟨t3, s3⟩, rest, rfl, ht3, hall⟩ := List.map_eq_cons_iff.mp hall
    obtain ⟨⟨t4, s4⟩, rest, rfl, ht4, -⟩ := List.map_eq_cons_iff.mp hall
    have hslots : s4 < s3 := List.rel_of_pairwise_cons hslotted.distinct.tail.tail
      List.mem_cons_self
    have hapart := (List.isChain_cons_cons.mp hslotted.apart.tail.tail).1
    dsimp only at hapart ht3 ht4
    have htol : fccType6.maxPriTolerance = 16 := rfl
    omega
  · intro h
    have hrun : exec (step twoPulses) (start 0) (pulses [1000, 4294968629]) =
      some ⟨priDetectorReset 4294968629, [4294968629, 1000],
        some ⟨333, 365, 2, 0, 1000, 4294968629, 1365, 1⟩⟩ := by decide +kernel
    obtain ⟨marks, hlen, hsub, -, hwithin, -⟩ :=
      ((h _ (List.prefix_refl _) _ hrun).2 _ rfl).pulses
    have hall := hsub.eq_of_length (by rw [List.length_map, hlen]; rfl)
    obtain ⟨⟨t1, s1⟩, rest, rfl, ht1, hall⟩ := List.map_eq_cons_iff.mp hall
    obtain ⟨⟨t2, s2⟩, rest, rfl, ht2, -⟩ := List.map_eq_cons_iff.mp hall
    have hnear := hwithin _ List.mem_cons_self _ (List.mem_cons_of_mem _ List.mem_cons_self)
    dsimp only at hnear ht1 ht2
    have hdur : 333*(twoPulses.ppb-1)+2*twoPulses.maxPriTolerance = 365 := rfl
    omega

end AIC.RadarSoundness
