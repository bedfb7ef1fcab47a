import Aic8800.RxStatisticEntries

/-!
# The sums of the rate table

While the three users of the table keep out of each other's way, `cpt` is the sum of the entries and
`rate_cnt` the number of those that are not zero.
-/

set_option autoImplicit false

namespace AIC.RxStatistic
open Lib.GuardedRun Lib.Histogram

/-- None of the three is between its first and its last statement. -/
def Apart (s : State) : Prop := s.rx = .idle ∧ s.reset = .idle ∧ s.work = .idle

def State.counts (s : State) : List ℤ := s.table.getD []

structure Right (s : State) : Prop where
  inside : s.oops = false
  sums : Apart s → s.cpt = s.counts.sum ∧ s.rateCnt = used s.counts
  shown : ∀ p ∈ s.entries, Shows p.2 p.1

/-- A call that comes to the table has it for itself, the count has room for one more frame, and a
frame whose index is in the table is encodable. -/
def Fits (s : State) : Event → Prop
  | .rx v => s.size ≠ 0 → Apart s ∧ s.cpt < 2^31-1 ∧ (rateIdx v < s.size → Encodable v)
  | .register _ ok => ok = true → Apart s
  | .reset | .unregister => Apart s
  | .stepRx | .stepReset | .stepWork => True

/-! ## Between the statements -/

/-- The table is as large as its size says. -/
structure Sized (counts : List ℤ) (size : ℕ) : Prop where
  length : counts.length = size
  nonneg : ∀ n ∈ counts, 0 ≤ n

structure Settled (counts : List ℤ) (size : ℕ) (cpt rateCnt : ℤ) : Prop
    extends Sized counts size where
  sum : cpt = counts.sum
  uses : rateCnt = used counts
  room : cpt < 2^31

def RxHolds (s : State) : Rx → Prop
  | .idle => Settled s.counts s.size s.cpt s.rateCnt
  | .begun v idx => Settled s.counts s.size s.cpt s.rateCnt ∧ s.cpt < 2^31-1 ∧ idx = rateIdx v ∧
      (idx < s.size → Encodable v)
  | .checked v idx => Settled s.counts s.size s.cpt s.rateCnt ∧ s.cpt < 2^31-1 ∧ Shows idx v ∧
      idx < s.size
  | .tested v idx => Sized s.counts s.size ∧ s.cpt = s.counts.sum ∧ s.cpt < 2^31-1 ∧
      Shows idx v ∧ idx < s.size ∧
        s.rateCnt = used s.counts+if s.counts[idx]? = some 0 then 1 else 0
  | .counted => Sized s.counts s.size ∧ s.cpt+1 = s.counts.sum ∧ 0 ≤ s.cpt ∧ s.cpt < 2^31-1 ∧
      s.rateCnt = used s.counts

def ResetHolds (s : State) : Reset → Prop
  | .idle => True
  | .cleared => s.counts = blank s.size
  | .cptCleared => s.counts = blank s.size ∧ s.cpt = 0

def WorkHolds (s : State) : Work → Prop
  | .idle => True
  | .made size => s.counts = blank size
  | .sized => s.counts = blank s.size
  | .cptSet => s.counts = blank s.size ∧ s.cpt = 0
  | .freed => s.counts = []
  | .unsized => s.counts = blank s.size
  | .cptCleared => s.counts = blank s.size ∧ s.cpt = 0

/-- One of the three is at work at most. -/
inductive Phase (s : State) : Prop where
  | rx (reset : s.reset = .idle) (work : s.work = .idle) (holds : RxHolds s s.rx)
  | reset (rx : s.rx = .idle) (work : s.work = .idle) (busy : s.reset ≠ .idle)
      (holds : ResetHolds s s.reset)
  | work (rx : s.rx = .idle) (reset : s.reset = .idle) (busy : s.work ≠ .idle)
      (holds : WorkHolds s s.work)

structure Inv (s : State) : Prop where
  inside : s.oops = false
  shown : ∀ p ∈ s.entries, Shows p.2 p.1
  phase : Phase s

theorem incr_eq {n : ℤ} (h : 0 ≤ n) (h' : n < 2^31-1) : incr n = n+1 := by
  unfold incr
  rw [Int.bmod_eq_of_le_mul_two] <;> omega

theorem used_nonneg (counts : List ℤ) : 0 ≤ used counts := Int.natCast_nonneg _

/-- A table of zeros, counted as such. -/
theorem settled_blank (size : ℕ) : Settled (blank size) size 0 0 where
  length := blank_length size
  nonneg _ hn := (List.eq_of_mem_replicate hn).ge
  sum := (blank_sum size).symm
  uses := (blank_used size).symm
  room := by decide

section Steps
variable {s t : State}

theorem Phase.settled (h : Phase s) (hapart : Apart s) :
    Settled s.counts s.size s.cpt s.rateCnt := by
  obtain ⟨hrx, hreset, hwork⟩ := hapart
  cases h with
  | rx _ _ holds => rwa [hrx] at holds
  | reset _ _ busy _ => exact absurd hreset busy
  | work _ _ busy _ => exact absurd hwork busy

theorem Inv.right (h : Inv s) : Right s where
  inside := h.inside
  sums hapart := ⟨(h.phase.settled hapart).sum, (h.phase.settled hapart).uses⟩
  shown := h.shown

/-! ### The frames -/

theorem beginRx_inv (h : Inv s) {v : RxVector1} (hfits : Fits s (.rx v)) :
    Inv (s.beginRx v) := by
  unfold State.beginRx
  split_ifs with hsize
  · exact h
  · obtain ⟨hapart, hroom, hencodable⟩ := hfits hsize
    exact ⟨h.inside, h.shown, .rx hapart.2.1 hapart.2.2
      ⟨h.phase.settled hapart, hroom, rfl, hencodable⟩⟩

/-- A place in the table is a place in what is allocated. -/
theorem Sized.table (h : Sized s.counts s.size) {idx : ℕ} (hidx : idx < s.size) :
    ∃ table, s.table = some table ∧ s.counts = table ∧ idx < table.length := by
  have hlength : idx < s.counts.length := by rw [h.length]; exact hidx
  cases htable : s.table with
  | none =>
    rw [State.counts, htable] at hlength
    exact absurd hlength (Nat.not_lt_zero idx)
  | some table =>
    have hcounts : s.counts = table := by rw [State.counts, htable]; rfl
    exact ⟨table, rfl, hcounts, hcounts ▸ hlength⟩

theorem stepRx_inv (h : Inv s) (hstep : s.stepRx = some t) : Inv t := by
  unfold State.stepRx at hstep
  cases h.phase with
  | reset rx _ _ _ =>
    rw [rx] at hstep
    cases hstep
  | work rx _ _ _ =>
    rw [rx] at hstep
    cases hstep
  | rx reset work holds =>
    cases hrx : s.rx with
    | idle =>
      rw [hrx] at hstep
      cases hstep
    | begun v idx =>
      rw [hrx] at hstep holds
      obtain ⟨hsettled, hroom, rfl, hencodable⟩ := holds
      obtain rfl := Option.some.inj hstep
      refine ⟨h.inside, h.shown, .rx reset work ?_⟩
      dsimp only
      split_ifs with hidx
      · exact ⟨hsettled, hroom, (shows_iff v).mpr (hencodable hidx), hidx⟩
      · exact hsettled
    | checked v idx =>
      rw [hrx] at hstep holds
      obtain ⟨hsettled, hroom, hshows, hidx⟩ := holds
      obtain ⟨table, htable, hcounts, hlength⟩ := hsettled.toSized.table hidx
      rw [hcounts] at hsettled
      have hused : used table ≤ table.sum := used_le_sum hsettled.nonneg
      have hrate : s.rateCnt = used table := hsettled.uses
      have hsum : s.cpt = table.sum := hsettled.sum
      dsimp only at hstep
      rw [htable] at hstep
      dsimp only at hstep
      rw [dif_pos hlength] at hstep
      obtain rfl := Option.some.inj hstep
      refine ⟨h.inside, h.shown, .rx reset work ⟨hsettled.toSized, hsum, hroom, hshows, hidx, ?_⟩⟩
      show (if table[idx] = 0 then incr s.rateCnt else s.rateCnt) =
        used table+if table[idx]? = some 0 then 1 else 0
      simp only [List.getElem?_eq_getElem hlength, Option.some_inj]
      split_ifs with hzero
      · have hnonneg : 0 ≤ used table := used_nonneg table
        rw [incr_eq (by omega) (by omega), hrate]
      · rw [hrate, add_zero]
    | tested v idx =>
      rw [hrx] at hstep holds
      obtain ⟨hsized, hsum, hroom, hshows, hidx, hrate⟩ := holds
      obtain ⟨table, htable, hcounts, hlength⟩ := hsized.table hidx
      rw [hcounts] at hsized hsum hrate
      have hentry : table[idx] ≤ table.sum := entry_le_sum hsized.nonneg hlength
      have hnonneg : 0 ≤ table[idx] := hsized.nonneg _ (List.getElem_mem hlength)
      have hincr : incr table[idx] = table[idx]+1 := incr_eq hnonneg (by omega)
      dsimp only at hstep
      rw [htable] at hstep
      dsimp only at hstep
      rw [dif_pos hlength, hincr] at hstep
      obtain rfl := Option.some.inj hstep
      refine ⟨h.inside, ?_, .rx reset work
        ⟨⟨?_, set_nonneg hsized.nonneg hlength⟩, ?_, ?_, hroom, ?_⟩⟩
      · intro p hp
        rcases List.mem_append.mp hp with hold | hnew
        · exact h.shown p hold
        · rw [List.mem_singleton.mp hnew]
          exact hshows
      · exact List.length_set.trans hsized.length
      · show s.cpt+1 = (table.set idx (table[idx]+1)).sum
        rw [sum_set_succ hlength, hsum]
      · show 0 ≤ s.cpt
        omega
      · show s.rateCnt = used (table.set idx (table[idx]+1))
        rw [used_set_succ hsized.nonneg hlength, hrate, List.getElem?_eq_getElem hlength]
        simp
    | counted =>
      rw [hrx] at hstep holds
      obtain ⟨hsized, hsum, hnonneg, hroom, hrate⟩ := holds
      obtain rfl := Option.some.inj hstep
      refine ⟨h.inside, h.shown, .rx reset work ⟨hsized, ?_, hrate, ?_⟩⟩
      · show incr s.cpt = s.counts.sum
        rw [incr_eq hnonneg hroom, hsum]
      · show incr s.cpt < 2^31
        rw [incr_eq hnonneg hroom]
        omega

/-! ### The reset -/

theorem beginReset_inv (h : Inv s) (hapart : Apart s) : Inv s.beginReset := by
  have hsettled := h.phase.settled hapart
  unfold State.beginReset
  split_ifs with hsize
  · have hempty : s.counts = [] := List.length_eq_zero_iff.mp (hsettled.length.trans hsize)
    refine ⟨h.inside, h.shown, .reset hapart.1 hapart.2.2 (by simp) ?_⟩
    show s.counts = blank s.size
    rw [hempty, hsize]
    rfl
  · obtain ⟨table, htable, hcounts, -⟩ := hsettled.toSized.table (Nat.pos_of_ne_zero hsize)
    have hlength : table.length = s.size := hcounts ▸ hsettled.length
    rw [htable]
    dsimp only
    rw [if_pos hlength.ge]
    refine ⟨h.inside, h.shown, .reset hapart.1 hapart.2.2 (by simp) ?_⟩
    show blank s.size++table.drop s.size = blank s.size
    rw [List.drop_eq_nil_of_le hlength.le, List.append_nil]

theorem stepReset_inv (h : Inv s) (hstep : s.stepReset = some t) : Inv t := by
  unfold State.stepReset at hstep
  cases h.phase with
  | rx reset _ _ =>
    rw [reset] at hstep
    cases hstep
  | work _ reset _ _ =>
    rw [reset] at hstep
    cases hstep
  | reset rx work busy holds =>
    cases hreset : s.reset with
    | idle => exact absurd hreset busy
    | cleared =>
      rw [hreset] at hstep holds
      obtain rfl := Option.some.inj hstep
      exact ⟨h.inside, h.shown, .reset rx work (by simp) ⟨holds, rfl⟩⟩
    | cptCleared =>
      rw [hreset] at hstep holds
      obtain rfl := Option.some.inj hstep
      refine ⟨h.inside, h.shown, .rx rfl work ?_⟩
      show RxHolds _ s.rx
      rw [rx]
      show Settled s.counts s.size s.cpt 0
      rw [holds.1, holds.2]
      exact settled_blank s.size

/-! ### The registrations -/

theorem beginRegister_inv (h : Inv s) {p : ModParams} {ok : Bool}
    (hapart : ok = true → Apart s) : Inv (s.beginRegister p ok) := by
  unfold State.beginRegister
  split_ifs with hok
  · exact ⟨h.inside, h.shown, .work (hapart hok).1 (hapart hok).2.1 (by simp) rfl⟩
  · exact h

theorem beginUnregister_inv (h : Inv s) (hapart : Apart s) : Inv s.beginUnregister :=
  ⟨h.inside, h.shown, .work hapart.1 hapart.2.1 (by simp [State.beginUnregister]) rfl⟩

theorem stepWork_inv (h : Inv s) (hstep : s.stepWork = some t) : Inv t := by
  unfold State.stepWork at hstep
  cases h.phase with
  | rx _ work _ =>
    rw [work] at hstep
    cases hstep
  | reset _ work _ _ =>
    rw [work] at hstep
    cases hstep
  | work rx reset busy holds =>
    cases hwork : s.work with
    | idle => exact absurd hwork busy
    | made size =>
      rw [hwork] at hstep holds
      obtain rfl := Option.some.inj hstep
      exact ⟨h.inside, h.shown, .work rx reset (by simp) holds⟩
    | sized =>
      rw [hwork] at hstep holds
      obtain rfl := Option.some.inj hstep
      exact ⟨h.inside, h.shown, .work rx reset (by simp) ⟨holds, rfl⟩⟩
    | freed =>
      rw [hwork] at hstep holds
      obtain rfl := Option.some.inj hstep
      exact ⟨h.inside, h.shown, .work rx reset (by simp) holds⟩
    | unsized =>
      rw [hwork] at hstep holds
      obtain rfl := Option.some.inj hstep
      exact ⟨h.inside, h.shown, .work rx reset (by simp) ⟨holds, rfl⟩⟩
    | cptSet | cptCleared =>
      rw [hwork] at hstep holds
      obtain rfl := Option.some.inj hstep
      refine ⟨h.inside, h.shown, .rx reset rfl ?_⟩
      show RxHolds _ s.rx
      rw [rx]
      show Settled s.counts s.size s.cpt 0
      rw [holds.1, holds.2]
      exact settled_blank s.size

end Steps

/-! ## Runs -/

theorem step_inv {s t : State} {e : Event} (hfits : Fits s e) (hstep : step s e = some t)
    (h : Inv s) : Inv t := by
  unfold step at hstep
  rw [if_neg (by rw [h.inside]; decide)] at hstep
  cases e with
  | rx v =>
    obtain ⟨-, hstep⟩ := Option.ite_none_right_eq_some.mp hstep
    obtain rfl := Option.some.inj hstep
    exact beginRx_inv h hfits
  | stepRx => exact stepRx_inv h hstep
  | reset =>
    obtain ⟨-, hstep⟩ := Option.ite_none_right_eq_some.mp hstep
    obtain rfl := Option.some.inj hstep
    exact beginReset_inv h hfits
  | stepReset => exact stepReset_inv h hstep
  | register p ok =>
    obtain ⟨-, hstep⟩ := Option.ite_none_right_eq_some.mp hstep
    obtain rfl := Option.some.inj hstep
    exact beginRegister_inv h hfits
  | unregister =>
    obtain ⟨-, hstep⟩ := Option.ite_none_right_eq_some.mp hstep
    obtain rfl := Option.some.inj hstep
    exact beginUnregister_inv h hfits
  | stepWork => exact stepWork_inv h hstep

theorem init_inv : Inv init :=
  ⟨rfl, fun _ hp => absurd hp List.not_mem_nil, .rx rfl rfl (settled_blank 0)⟩

/-- Every state of a run of fitting calls has its sums right. -/
theorem run_sums_right (es : List Event) (h : Meets step Fits init es) :
    Throughout step Right init es :=
  throughout_of_meets (fun _ _ _ hfits hstep hs => step_inv hfits hstep hs)
    (fun _ hs => hs.right) init_inv h

/-- An OFDM frame of 6 Mbit/s. -/
def sixMbit : RxVector1 where
  formatMod := ⟨FORMATMOD_NON_HT, by decide⟩
  chBw := 0
  preType := 0
  legRate := ⟨11, by decide⟩
  ht := ⟨0, 0⟩
  vht := ⟨⟨0, Nat.zero_lt_succ 15⟩, 0, 0⟩
  he := ⟨⟨0, Nat.zero_lt_succ 15⟩, 0, ⟨0, Nat.zero_lt_succ 3⟩, 0⟩

def register : List Event :=
  [.register ⟨false, false, false⟩ true, .stepWork, .stepWork, .stepWork]

theorem oneFrame_right : Throughout step Right init
    (register++[.rx sixMbit, .stepRx, .stepRx, .stepRx, .stepRx]) := by
  refine run_sums_right _ ⟨fun _ => ⟨rfl, rfl, rfl⟩, ?_⟩
  rintro t ⟨⟩
  refine ⟨trivial, ?_⟩
  rintro t ⟨⟩
  refine ⟨trivial, ?_⟩
  rintro t ⟨⟩
  refine ⟨trivial, ?_⟩
  rintro t ⟨⟩
  refine ⟨fun _ => ⟨⟨rfl, rfl, rfl⟩, by decide, fun _ => (shows_iff sixMbit).mp (by decide)⟩, ?_⟩
  rintro t ⟨⟩
  refine ⟨trivial, ?_⟩
  rintro t ⟨⟩
  refine ⟨trivial, ?_⟩
  rintro t ⟨⟩
  refine ⟨trivial, ?_⟩
  rintro t ⟨⟩
  exact ⟨trivial, fun _ _ => trivial⟩

/-- The table is freed between the check of the index and the entry. -/
theorem freed_under_frame : ¬ Throughout step Right init
    (register++[.rx sixMbit, .stepRx, .unregister, .stepRx]) := by
  intro h
  have hright := h _ (List.prefix_refl _) _ rfl
  exact absurd hright.inside (by decide)

end AIC.RxStatistic
