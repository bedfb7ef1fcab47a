import Aic8800.Lib.BubbleSort
import Aic8800.MuGroupConsistency

/-!
# Which group a station is given

The selection once more, with its three arrays of 63 entries. There is no result
where an entry beyond them is written, where a group outside the table is looked
up, or where the sorting does not come to an end. With groups of two users no
group is listed twice, although the list is not emptied between interfaces.
-/

set_option autoImplicit false

namespace AIC.MuGroup
open Lib

/-- Where MU-MIMO is built in. -/
def CONFIG_USER_MAX : ℕ := 2

/-- The entries of `nb_users`, of `traffic` and of `order`. -/
def CELLS : ℕ := NX_MU_GROUP_MAX+1

namespace Mu

def countIn (t : ℤ) (st : Stats) (g : ℕ) : Option Stats :=
  if CELLS ≤ g ∨ (st.nbUsers g+1 = 2 ∧ CELLS ≤ st.order.length) then none else some (st.add t g)

def countAllIn (t : ℤ) : List ℕ → Stats → Option Stats
  | [], st => some st
  | g::gs, st => (countIn t st g).bind (countAllIn t gs)

def gatherIn : List StaId → Mu × Stats → Option (Mu × Stats)
  | [], r => some r
  | s::ss, (mu, st) =>
    let info := mu.info s
    let mu := mu.setInfo s { info with traffic := 0, group := 0 }
    if info.cnt = 0 ∨ info.traffic < RWNX_MU_GROUP_MIN_TRAFFIC then gatherIn ss (mu, st)
    else (countAllIn info.traffic (groupsOf info.map) st).bind fun st => gatherIn ss (mu, st)

/-- The other groups of a user that has been given `g`. -/
def releaseIn (g : ℕ) : List ℕ → (ℕ → ℤ) → Option (ℕ → ℤ)
  | [], nb => some nb
  | h::hs, nb =>
    if CELLS ≤ h then none
    else releaseIn g hs (if g ≠ h then Function.update nb h (nb h-1) else nb)

def selectUsersIn (g : ℕ) : List StaId → Mu × (ℕ → ℤ) → Option (Mu × (ℕ → ℤ))
  | [], r => some r
  | s::ss, (mu, nb) =>
    let info := mu.info s
    (releaseIn g (groupsOf info.map) nb).bind fun nb =>
      selectUsersIn g ss (mu.setInfo s { info with group := g }, nb)

def assignIn : List ℕ → Mu × (ℕ → ℤ) → Option (Mu × (ℕ → ℤ))
  | [], r => some r
  | g::gs, (mu, nb) =>
    if g ∉ groupIds then none
    else if nb g < 2 then assignIn gs (mu, nb)
    else (selectUsersIn g (mu.groups g).members (mu, nb)).bind (assignIn gs)

def selectVifsIn : List (List StaId) → Mu × List ℕ → Option Mu
  | [], (mu, _) => some mu
  | ss::vifs, (mu, order) =>
    (gatherIn ss (mu, ⟨fun _ => 0, fun _ => 0, order⟩)).bind fun (mu, st) =>
      (BubbleSort.sort st.traffic (CELLS+1) st.order).bind fun order =>
        (assignIn order (mu, st.nbUsers)).bind fun (mu, _) => selectVifsIn vifs (mu, order)

def groupStaSelectIn (mu : Mu) (due : Bool) (vifs : List (List StaId)) : Option Mu :=
  if mu.groupCnt = 0 ∨ due = false then some mu else selectVifsIn vifs (mu, [])

end Mu

@[simp] theorem Mu.setInfo_self (mu : Mu) (s : StaId) (x : GroupInfo) :
    (mu.setInfo s x).info s = x := by
  simp [Mu.setInfo]

theorem Mu.setInfo_other (mu : Mu) {s t : StaId} (x : GroupInfo) (h : t ≠ s) :
    (mu.setInfo s x).info t = mu.info t := by
  simp [Mu.setInfo, h]

/-- What the selection is called on: the stations of the AP interfaces, each on one of them. The
maps have no bit but those of the groups and that of the stations that are no beamformees. -/
structure Scene where
  mu : Mu
  vifs : List (List StaId)
  consistent : Consistent mu
  room : ∀ g ∈ groupIds, (mu.groups g).users.length = CONFIG_USER_MAX
  apart : vifs.flatten.Nodup
  known : ∀ s ∈ vifs.flatten, s ∈ mu.known
  bits : ∀ s ∈ vifs.flatten, (mu.info s).map ⊆ Finset.range CELLS

/-- The members of a group with enough traffic since the selection before. -/
def busy (mu : Mu) (g : ℕ) : List StaId :=
  (mu.groups g).members.filter fun s =>
    decide (RWNX_MU_GROUP_MIN_TRAFFIC ≤ (mu.info s).traffic)

/-- Given no group, or one that it is in and that two of its members are busy in. -/
def Served (mu mu' : Mu) (s : StaId) : Prop :=
  (mu'.info s).group = 0 ∨
    s ∈ (mu.groups (mu'.info s).group).members ∧ 2 ≤ (busy mu (mu'.info s).group).length

/-! ## Counting -/

section Counting
variable {mu mu' : Mu} {g : ℕ}

/-- The stations of a list that the selection counts for a group. -/
def counted (mu : Mu) (g : ℕ) (ss : List StaId) : List StaId :=
  ss.filter fun s => decide (g ∈ groupsOf (mu.info s).map) &&
    !decide ((mu.info s).cnt = 0 ∨ (mu.info s).traffic < RWNX_MU_GROUP_MIN_TRAFFIC)

theorem counted_append (ss ts : List StaId) :
    counted mu g (ss++ts) = counted mu g ss++counted mu g ts := List.filter_append ss ts

theorem groupsOf_nodup (m : Finset ℕ) : (groupsOf m).Nodup :=
  ((List.nodup_reverse.mpr List.nodup_range').filter _)

theorem member_of_bit (h : Consistent mu) {s : StaId} (hs : s ∈ mu.known) (hg : g ∈ groupIds) :
    s ∈ (mu.groups g).members ↔ g ∈ (mu.info s).map := by
  rw [members_iff, ← List.count_pos_iff, h.users g hg s hs]
  split_ifs with hm <;> simp [hm]

/-- Those counted are busy members. -/
theorem counted_le (h : Consistent mu) {ss : List StaId} (hn : ss.Nodup)
    (hk : ∀ s ∈ ss, s ∈ mu.known) : (counted mu g ss).length ≤ (busy mu g).length := by
  refine (List.subperm_of_subset (hn.filter _) ?_).length_le
  intro s hs
  obtain ⟨hmem, hp⟩ := List.mem_filter.mp hs
  simp only [Bool.and_eq_true, Bool.not_eq_true', decide_eq_true_eq, decide_eq_false_iff_not,
    not_or, not_lt] at hp
  obtain ⟨hid, hbit⟩ := mem_groupsOf.mp hp.1
  refine List.mem_filter.mpr ⟨(member_of_bit h (hk s hmem) hid).mpr hbit, ?_⟩
  exact decide_eq_true hp.2.2

/-- No more than the users there is room for. -/
theorem counted_le_room (h : Consistent mu) (hroom : (mu.groups g).users.length = CONFIG_USER_MAX)
    {ss : List StaId} (hn : ss.Nodup) (hk : ∀ s ∈ ss, s ∈ mu.known) :
    (counted mu g ss).length ≤ CONFIG_USER_MAX :=
  calc (counted mu g ss).length
    _ ≤ (busy mu g).length := counted_le h hn hk
    _ ≤ (mu.groups g).members.length := List.length_filter_le _ _
    _ ≤ (mu.groups g).users.length := List.reduceOption_length_le _
    _ = CONFIG_USER_MAX := hroom

/-- The groups listed are different, and there is room for another. -/
theorem listed_short {order : List ℕ} (hn : order.Nodup) (hid : ∀ g ∈ order, g ∈ groupIds) :
    order.length < CELLS := by
  have hsub : order.toFinset ⊆ groupIds := fun g hg => hid g (List.mem_toFinset.mp hg)
  have hcard := Finset.card_le_card hsub
  rw [List.toFinset_card_of_nodup hn] at hcard
  have hall : groupIds.card = NX_MU_GROUP_MAX := by decide
  rw [CELLS]
  omega

theorem lt_cells (hg : g ∈ groupIds) : g < CELLS := by
  rw [groupIds, Finset.mem_Icc] at hg
  rw [CELLS]
  omega

/-- One station is counted for all its groups. A group that becomes the second time a user must not
have been listed for an interface before. -/
theorem countAllIn_spec (t : ℤ) (gs : List ℕ) (st : Mu.Stats) (hgs : gs.Nodup)
    (hid : ∀ g ∈ gs, g ∈ groupIds) (hn : st.order.Nodup) (hord : ∀ g ∈ st.order, g ∈ groupIds)
    (hfresh : ∀ g ∈ gs, st.nbUsers g+1 = 2 → g ∉ st.order) :
    ∃ st', Mu.countAllIn t gs st = some st' ∧
      (∀ g, st'.nbUsers g = st.nbUsers g+if g ∈ gs then 1 else 0) ∧ st'.order.Nodup ∧
      ∀ g ∈ st'.order, g ∈ st.order ∨ g ∈ gs ∧ st.nbUsers g+1 = 2 := by
  induction gs generalizing st with
  | nil => exact ⟨st, rfl, by simp, hn, fun g hg => Or.inl hg⟩
  | cons g gs ih =>
    obtain ⟨hgnot, hgs⟩ := List.nodup_cons.mp hgs
    have hgid := hid g List.mem_cons_self
    have hcell := lt_cells hgid
    have hshort := listed_short hn hord
    have hstep : Mu.countIn t st g = some (st.add t g) := by
      rw [Mu.countIn, if_neg (by omega)]
    have hother : ∀ g' ∈ gs, (st.add t g).nbUsers g' = st.nbUsers g' := by
      intro g' hg'
      have hne : g' ≠ g := by
        rintro rfl
        exact hgnot hg'
      simp [Mu.Stats.add, hne]
    have hin : ∀ g' ∈ (st.add t g).order, g' ∈ st.order ∨ g' = g ∧ st.nbUsers g+1 = 2 := by
      intro g' hg'
      rw [Mu.Stats.add] at hg'
      dsimp only at hg'
      split_ifs at hg' with htwo
      · rcases List.mem_append.mp hg' with hg' | hg'
        · exact Or.inl hg'
        · exact Or.inr ⟨List.mem_singleton.mp hg', htwo⟩
      · exact Or.inl hg'
    have hn' : (st.add t g).order.Nodup := by
      rw [Mu.Stats.add]
      dsimp only
      split_ifs with htwo
      · have hnew := hfresh g List.mem_cons_self htwo
        rw [← List.concat_eq_append]
        exact List.Nodup.concat hnew hn
      · exact hn
    obtain ⟨st', hst', hnb, hnodup, horder⟩ := ih (st.add t g) hgs
      (fun g' hg' => hid g' (List.mem_cons_of_mem g hg')) hn' (by
        intro g' hg'
        rcases hin g' hg' with hold | ⟨rfl, _⟩
        · exact hord g' hold
        · exact hgid) (by
        intro g' hg' htwo hmem
        rw [hother g' hg'] at htwo
        rcases hin g' hmem with hold | ⟨rfl, _⟩
        · exact hfresh g' (List.mem_cons_of_mem g hg') htwo hold
        · exact hgnot hg')
    refine ⟨st', by rw [Mu.countAllIn, hstep]; exact hst', ?_, hnodup, ?_⟩
    · intro g'
      rw [hnb]
      by_cases hne : g' = g
      · subst hne
        simp [Mu.Stats.add, hgnot]
      · simp [Mu.Stats.add, hne]
    · intro g' hg'
      rcases horder g' hg' with hold | ⟨hmem, htwo⟩
      · rcases hin g' hold with hold | ⟨rfl, htwo⟩
        · exact Or.inl hold
        · exact Or.inr ⟨List.mem_cons_self, htwo⟩
      · rw [hother g' hmem] at htwo
        exact Or.inr ⟨List.mem_cons_of_mem g hmem, htwo⟩

/-- What has been counted behind the stations of one interface: those of the interfaces before and
those seen of this one. -/
structure Gathering (mu : Mu) (done seen : List StaId) (st : Mu.Stats) : Prop where
  nbUsers : ∀ g ∈ groupIds, st.nbUsers g = (counted mu g seen).length
  nodup : st.order.Nodup
  listed : ∀ g ∈ st.order, g ∈ groupIds ∧ 2 ≤ (counted mu g (done++seen)).length

theorem counted_singleton (mu : Mu) (g : ℕ) (s : StaId) : (counted mu g [s]).length =
    if g ∈ groupsOf (mu.info s).map ∧
      ¬ ((mu.info s).cnt = 0 ∨ (mu.info s).traffic < RWNX_MU_GROUP_MIN_TRAFFIC) then 1 else 0 := by
  rw [counted, List.filter_cons, List.filter_nil]
  split_ifs with h1 h2 h2
  · rfl
  · simp_all
  · simp_all
  · rfl

variable {done seen : List StaId} {st : Mu.Stats}

/-- A station that is not counted leaves the counts as they are. -/
theorem Gathering.skip (h : Gathering mu done seen st) {s : StaId}
    (hs : (mu.info s).cnt = 0 ∨ (mu.info s).traffic < RWNX_MU_GROUP_MIN_TRAFFIC) :
    Gathering mu done (seen++[s]) st := by
  have hnone : ∀ g, (counted mu g [s]).length = 0 := by
    intro g
    rw [counted_singleton, if_neg (fun hc => hc.2 hs)]
  refine ⟨?_, h.nodup, ?_⟩
  · intro g hg
    rw [counted_append, List.length_append, hnone, h.nbUsers g hg, Nat.add_zero]
  · intro g hg
    obtain ⟨hid, htwo⟩ := h.listed g hg
    rw [← List.append_assoc, counted_append, List.length_append]
    exact ⟨hid, by omega⟩

/-- One that is counted has its groups counted, and none of those it is the second user of has been
listed before. -/
theorem Gathering.count (h : Gathering mu done seen st) (hc : Consistent mu)
    (hroom : ∀ g ∈ groupIds, (mu.groups g).users.length = CONFIG_USER_MAX) {s : StaId}
    (hn : (done++(seen++[s])).Nodup) (hk : ∀ x ∈ done++(seen++[s]), x ∈ mu.known)
    (hs : ¬ ((mu.info s).cnt = 0 ∨ (mu.info s).traffic < RWNX_MU_GROUP_MIN_TRAFFIC)) :
    ∃ st', Mu.countAllIn (mu.info s).traffic (groupsOf (mu.info s).map) st = some st' ∧
      Gathering mu done (seen++[s]) st' := by
  have hone : ∀ g, (counted mu g [s]).length = if g ∈ groupsOf (mu.info s).map then 1 else 0 := by
    intro g
    rw [counted_singleton]
    exact if_congr (and_iff_left hs) rfl rfl
  have hfresh : ∀ g ∈ groupsOf (mu.info s).map, st.nbUsers g+1 = 2 → g ∉ st.order := by
    intro g hg htwo hmem
    have hid := (mem_groupsOf.mp hg).1
    have hle := counted_le_room hc (hroom g hid) hn hk
    have hbefore := (h.listed g hmem).2
    have hthis := hone g
    rw [if_pos hg] at hthis
    rw [← List.append_assoc, counted_append, List.length_append, hthis, CONFIG_USER_MAX] at hle
    omega
  obtain ⟨st', hst', hnb, hnodup, horder⟩ := countAllIn_spec (mu.info s).traffic
    (groupsOf (mu.info s).map) st (groupsOf_nodup _) (fun g hg => (mem_groupsOf.mp hg).1) h.nodup
    (fun g hg => (h.listed g hg).1) hfresh
  refine ⟨st', hst', ?_, hnodup, ?_⟩
  · intro g hg
    rw [hnb, h.nbUsers g hg, counted_append, List.length_append, hone]
    split_ifs <;> rfl
  · intro g hg
    rw [← List.append_assoc, counted_append, List.length_append, hone]
    rcases horder g hg with hold | ⟨hmem, htwo⟩
    · obtain ⟨hid, hcount⟩ := h.listed g hold
      exact ⟨hid, by omega⟩
    · have hid := (mem_groupsOf.mp hmem).1
      rw [h.nbUsers g hid] at htwo
      rw [if_pos hmem, counted_append, List.length_append]
      exact ⟨hid, by omega⟩

theorem gatherIn_spec (hc : Consistent mu)
    (hroom : ∀ g ∈ groupIds, (mu.groups g).users.length = CONFIG_USER_MAX) (ss : List StaId)
    (seen : List StaId) (mu' : Mu) (st : Mu.Stats) (hn : (done++(seen++ss)).Nodup)
    (hk : ∀ x ∈ done++(seen++ss), x ∈ mu.known) (hsame : Reselect mu mu')
    (htraffic : ∀ s ∈ ss, (mu'.info s).traffic = (mu.info s).traffic)
    (h : Gathering mu done seen st) :
    ∃ mu'' st', Mu.gatherIn ss (mu', st) = some (mu'', st') ∧ Gathering mu done (seen++ss) st' ∧
      Reselect mu mu'' ∧ (∀ s ∈ ss, (mu''.info s).group = 0) ∧
      ∀ s ∉ ss, mu''.info s = mu'.info s := by
  induction ss generalizing seen mu' st with
  | nil =>
    refine ⟨mu', st, rfl, ?_, hsame, fun s hs => absurd hs List.not_mem_nil, fun s _ => rfl⟩
    rw [List.append_nil]
    exact h
  | cons s ss ih =>
    have hsplit : seen++s::ss = seen++[s]++ss := by simp
    have hfront : done++(seen++[s])++ss = done++(seen++s::ss) := by simp
    have hn1 : (done++(seen++[s])).Nodup := List.Nodup.of_append_left (hfront ▸ hn)
    have hk1 : ∀ x ∈ done++(seen++[s]), x ∈ mu.known := fun x hx =>
      hk x (hfront ▸ List.mem_append_left ss hx)
    have hsnot : s ∉ ss := by
      have htail := List.Nodup.of_append_right (List.Nodup.of_append_right hn)
      exact (List.nodup_cons.mp htail).1
    have hcnt : (mu'.info s).cnt = (mu.info s).cnt := (hsame.info s).2
    have hmap : (mu'.info s).map = (mu.info s).map := (hsame.info s).1
    have htr := htraffic s List.mem_cons_self
    have hreset := hsame.trans (reselect_setInfo mu' s 0 0)
    have hrest : ∀ t ∈ ss, ((mu'.setInfo s { mu'.info s with traffic := 0, group := 0 }).info
        t).traffic = (mu.info t).traffic := by
      intro t ht
      have hne : t ≠ s := by
        rintro rfl
        exact hsnot ht
      rw [Mu.setInfo_other mu' _ hne]
      exact htraffic t (List.mem_cons_of_mem s ht)
    -- the station has its turn, then the others have theirs
    have hturn : ∃ st1, Mu.gatherIn (s::ss) (mu', st) =
        Mu.gatherIn ss (mu'.setInfo s { mu'.info s with traffic := 0, group := 0 }, st1) ∧
        Gathering mu done (seen++[s]) st1 := by
      rw [Mu.gatherIn]
      dsimp only
      rw [hcnt, htr, hmap]
      split_ifs with hidle
      · exact ⟨st, rfl, h.skip hidle⟩
      · obtain ⟨st1, hst1, hg1⟩ := h.count hc hroom hn1 hk1 hidle
        exact ⟨st1, by rw [hst1]; rfl, hg1⟩
    obtain ⟨st1, heq, hg1⟩ := hturn
    rw [hsplit] at hn hk
    obtain ⟨mu'', st', hres, hg, hr, hzero, hframe⟩ := ih (seen++[s])
      (mu'.setInfo s { mu'.info s with traffic := 0, group := 0 }) st1 hn hk hreset hrest hg1
    refine ⟨mu'', st', heq.trans hres, hsplit ▸ hg, hr, ?_, ?_⟩
    · intro t ht
      rcases List.mem_cons.mp ht with rfl | ht
      · rw [hframe t hsnot, Mu.setInfo_self]
      · exact hzero t ht
    · intro t ht
      have hne : t ≠ s := fun heq => ht (heq ▸ List.mem_cons_self)
      rw [hframe t fun hmem => ht (List.mem_cons_of_mem s hmem), Mu.setInfo_other mu' _ hne]

end Counting

/-! ## Assigning -/

section Assigning
variable {mu : Mu} {g : ℕ}

theorem releaseIn_spec (hs : List ℕ) (nb : ℕ → ℤ) (hid : ∀ h ∈ hs, h ∈ groupIds) :
    ∃ nb', Mu.releaseIn g hs nb = some nb' ∧ ∀ h, nb' h ≤ nb h := by
  induction hs generalizing nb with
  | nil => exact ⟨nb, rfl, fun h => le_refl _⟩
  | cons h hs ih =>
    have hcell := lt_cells (hid h List.mem_cons_self)
    obtain ⟨nb', hres, hle⟩ := ih (if g ≠ h then Function.update nb h (nb h-1) else nb)
      fun h' hh' => hid h' (List.mem_cons_of_mem h hh')
    refine ⟨nb', by rw [Mu.releaseIn, if_neg (by omega), hres], ?_⟩
    intro h'
    refine (hle h').trans ?_
    split_ifs
    · by_cases hne : h' = h
      · subst hne
        simp
      · simp [hne]
    · exact le_refl _

/-- What giving out groups keeps: everything but the groups given, and those are served. -/
structure Assigned (mu mu' mu'' : Mu) : Prop where
  same : Reselect mu mu''
  traffic : ∀ s, (mu''.info s).traffic = (mu'.info s).traffic
  served : ∀ s, Served mu mu' s → Served mu mu'' s

theorem Assigned.trans {mu1 mu2 mu3 : Mu} (h : Assigned mu mu1 mu2) (h' : Assigned mu mu2 mu3) :
    Assigned mu mu1 mu3 where
  same := h'.same
  traffic s := (h'.traffic s).trans (h.traffic s)
  served s hs := h'.served s (h.served s hs)

/-- A member is given its group. -/
theorem Assigned.give {mu' : Mu} (hsame : Reselect mu mu') {s : StaId}
    (hs : s ∈ (mu.groups g).members) (hbusy : 2 ≤ (busy mu g).length) :
    Assigned mu mu' (mu'.setInfo s { mu'.info s with group := g }) where
  same := hsame.trans (reselect_setInfo mu' s (mu'.info s).traffic g)
  traffic t := by
    by_cases ht : t = s
    · subst ht
      simp
    · rw [Mu.setInfo_other mu' _ ht]
  served t hserved := by
    by_cases ht : t = s
    · subst ht
      right
      simpa using ⟨hs, hbusy⟩
    · rw [Served, Mu.setInfo_other mu' _ ht]
      exact hserved

theorem selectUsersIn_spec (ss : List StaId) {mu' : Mu} (nb : ℕ → ℤ) (hsame : Reselect mu mu')
    (hss : ∀ s ∈ ss, s ∈ (mu.groups g).members) (hbusy : 2 ≤ (busy mu g).length) :
    ∃ mu'' nb', Mu.selectUsersIn g ss (mu', nb) = some (mu'', nb') ∧ Assigned mu mu' mu'' ∧
      ∀ h, nb' h ≤ nb h := by
  induction ss generalizing mu' nb with
  | nil => exact ⟨mu', nb, rfl, ⟨hsame, fun _ => rfl, fun _ hs => hs⟩, fun h => le_refl _⟩
  | cons s ss ih =>
    obtain ⟨nb1, hnb1, hle1⟩ := releaseIn_spec (g := g) (groupsOf (mu'.info s).map) nb
      fun h hh => (mem_groupsOf.mp hh).1
    have hgive := Assigned.give hsame (hss s List.mem_cons_self) hbusy
    obtain ⟨mu'', nb', hres, ha, hle⟩ := ih nb1 hgive.same
      fun t ht => hss t (List.mem_cons_of_mem s ht)
    refine ⟨mu'', nb', ?_, hgive.trans ha, fun h => (hle h).trans (hle1 h)⟩
    rw [Mu.selectUsersIn, hnb1]
    exact hres

/-- Groups are given out that still have two users counted, and the counts only fall. -/
theorem assignIn_spec {count : ℕ → ℤ}
    (hcount : ∀ g ∈ groupIds, count g ≤ (busy mu g).length) (order : List ℕ) {mu' : Mu}
    (nb : ℕ → ℤ) (hsame : Reselect mu mu') (hid : ∀ g ∈ order, g ∈ groupIds)
    (hnb : ∀ g ∈ groupIds, nb g ≤ count g) :
    ∃ mu'' nb', Mu.assignIn order (mu', nb) = some (mu'', nb') ∧ Assigned mu mu' mu'' := by
  induction order generalizing mu' nb with
  | nil => exact ⟨mu', nb, rfl, hsame, fun _ => rfl, fun _ hs => hs⟩
  | cons g order ih =>
    have hg := hid g List.mem_cons_self
    have hrest : ∀ g ∈ order, g ∈ groupIds := fun h hh => hid h (List.mem_cons_of_mem g hh)
    rw [Mu.assignIn, if_neg (not_not.mpr hg)]
    split_ifs with hfew
    · exact ih nb hsame hrest hnb
    · have hbusy : 2 ≤ (busy mu g).length := by
        have h1 := hnb g hg
        have h2 := hcount g hg
        omega
      obtain ⟨mu1, nb1, hres, ha, hle⟩ := selectUsersIn_spec (g := g) (mu'.groups g).members nb
        hsame (fun s hs => by rwa [hsame.groups] at hs) hbusy
      obtain ⟨mu'', nb', hres', ha'⟩ := ih nb1 ha.same hrest fun h hh => (hle h).trans (hnb h hh)
      refine ⟨mu'', nb', ?_, ha.trans ha'⟩
      rw [hres]
      exact hres'

end Assigning

/-! ## The interfaces in turn -/

section Selecting
variable {mu : Mu}

theorem bubble_eq (traffic : ℕ → ℤ) (g : ℕ) (gs : List ℕ) :
    (BubbleSort.bubble traffic g gs).1 = Mu.bubble traffic g gs := by
  induction gs generalizing g with
  | nil => rfl
  | cons h gs ih =>
    rw [BubbleSort.bubble, Mu.bubble]
    split_ifs <;> simp [ih]

/-- The sorting ends, with the groups in the order of the machine. -/
theorem sort_reorder (traffic : ℕ → ℤ) {order : List ℕ} (h : order.length < CELLS) :
    BubbleSort.sort traffic (CELLS+1) order = some (Mu.reorder traffic order) := by
  have hpass : (fun l => (BubbleSort.pass traffic l).1) = Mu.pass traffic := by
    funext l
    cases l with
    | nil => rfl
    | cons g gs => exact bubble_eq traffic g gs
  rw [BubbleSort.sort_eq (Nat.lt_succ_of_lt h), hpass, Mu.reorder]

/-- Behind some of the interfaces: those of their stations that have a group are served, and the
groups listed have two users counted on them. -/
structure Walked (mu : Mu) (done rest : List StaId) (mu' : Mu) (order : List ℕ) : Prop where
  same : Reselect mu mu'
  traffic : ∀ s ∈ rest, (mu'.info s).traffic = (mu.info s).traffic
  served : ∀ s ∈ done, Served mu mu' s
  nodup : order.Nodup
  listed : ∀ g ∈ order, g ∈ groupIds ∧ 2 ≤ (counted mu g done).length

/-- One interface. -/
theorem Walked.vif (hc : Consistent mu)
    (hroom : ∀ g ∈ groupIds, (mu.groups g).users.length = CONFIG_USER_MAX)
    {done ss rest : List StaId} (hn : (done++(ss++rest)).Nodup)
    (hk : ∀ s ∈ done++(ss++rest), s ∈ mu.known) {mu' : Mu} {order : List ℕ}
    (h : Walked mu done (ss++rest) mu' order) (vifs : List (List StaId)) :
    ∃ mu'' order', Mu.selectVifsIn (ss::vifs) (mu', order) = Mu.selectVifsIn vifs (mu'', order') ∧
      Walked mu (done++ss) rest mu'' order' := by
  have hassoc : done++(ss++rest) = done++ss++rest := (List.append_assoc done ss rest).symm
  have hn1 : (done++ss).Nodup := List.Nodup.of_append_left (hassoc ▸ hn)
  have hk1 : ∀ s ∈ done++ss, s ∈ mu.known :=
    fun s hs => hk s (hassoc ▸ List.mem_append_left rest hs)
  have hstart : Gathering mu done [] ⟨fun _ => 0, fun _ => 0, order⟩ := by
    refine ⟨fun g _ => rfl, h.nodup, ?_⟩
    rw [List.append_nil]
    exact h.listed
  obtain ⟨mu1, st, hgather, hg, hsame, hzero, hframe⟩ := gatherIn_spec hc hroom ss [] mu'
    ⟨fun _ => 0, fun _ => 0, order⟩ hn1 hk1 h.same
    (fun s hs => h.traffic s (List.mem_append_left rest hs)) hstart
  rw [List.nil_append] at hg
  have hperm := reorder_perm st.traffic st.order
  have hsort := sort_reorder st.traffic (listed_short hg.nodup fun g hgm => (hg.listed g hgm).1)
  generalize Mu.reorder st.traffic st.order = order' at hperm hsort
  have hcount : ∀ g ∈ groupIds, ((counted mu g ss).length : ℤ) ≤ (busy mu g).length := by
    intro g _
    exact_mod_cast counted_le hc (List.Nodup.of_append_right hn1)
      fun s hs => hk1 s (List.mem_append_right done hs)
  obtain ⟨mu2, nb, hassign, ha⟩ := assignIn_spec hcount order' st.nbUsers hsame
    (fun g hgm => (hg.listed g (hperm.mem_iff.mp hgm)).1) fun g hid => (hg.nbUsers g hid).le
  refine ⟨mu2, order', ?_, ha.same, ?_, ?_, hperm.nodup_iff.mpr hg.nodup,
    fun g hgm => hg.listed g (hperm.mem_iff.mp hgm)⟩
  · rw [Mu.selectVifsIn, hgather]
    simp only [Option.bind_some]
    rw [hsort, Option.bind_some, hassign]
    rfl
  · intro s hs
    have hnot : s ∉ ss := fun hmem =>
      List.disjoint_of_nodup_append (List.Nodup.of_append_right hn) hmem hs
    rw [ha.traffic, hframe s hnot]
    exact h.traffic s (List.mem_append_right ss hs)
  · intro s hs
    apply ha.served
    by_cases hmem : s ∈ ss
    · exact Or.inl (hzero s hmem)
    · rw [Served, hframe s hmem]
      exact h.served s ((List.mem_append.mp hs).resolve_right hmem)

theorem Walked.vifs (hc : Consistent mu)
    (hroom : ∀ g ∈ groupIds, (mu.groups g).users.length = CONFIG_USER_MAX)
    (vifs : List (List StaId)) {done : List StaId} (hn : (done++vifs.flatten).Nodup)
    (hk : ∀ s ∈ done++vifs.flatten, s ∈ mu.known) {mu' : Mu} {order : List ℕ}
    (h : Walked mu done vifs.flatten mu' order) :
    ∃ mu'', Mu.selectVifsIn vifs (mu', order) = some mu'' ∧ Reselect mu mu'' ∧
      ∀ s ∈ done++vifs.flatten, Served mu mu'' s := by
  induction vifs generalizing done mu' order with
  | nil =>
    refine ⟨mu', rfl, h.same, ?_⟩
    rw [List.flatten_nil, List.append_nil]
    exact h.served
  | cons ss vifs ih =>
    rw [List.flatten_cons] at hn hk h ⊢
    obtain ⟨mu1, order1, hstep, h1⟩ := h.vif hc hroom hn hk vifs
    have hassoc : done++(ss++vifs.flatten) = done++ss++vifs.flatten :=
      (List.append_assoc done ss vifs.flatten).symm
    rw [hassoc] at hn hk ⊢
    obtain ⟨mu2, hres, hsame, hserved⟩ := ih hn hk h1
    exact ⟨mu2, hstep.trans hres, hsame, hserved⟩

/-- Where no group is in use nobody is in one. -/
theorem unused_served (hc : Consistent mu) (hz : mu.groupCnt = 0) {s : StaId} (hs : s ∈ mu.known)
    (hbits : (mu.info s).map ⊆ Finset.range CELLS) : Served mu mu s := by
  left
  rcases hc.selected s hs with h0 | hm
  · exact h0
  · by_contra hne
    have hlt := Finset.mem_range.mp (hbits hm)
    have hid : (mu.info s).group ∈ groupIds := by
      rw [groupIds, Finset.mem_Icc]
      rw [CELLS] at hlt
      omega
    have hmem := members_iff.mp ((member_of_bit hc hs hid).mpr hm)
    have hpos : 0 < (mu.groups (mu.info s).group).size :=
      List.countP_pos_iff.mpr ⟨some s, hmem, rfl⟩
    have huse : (mu.info s).group ∈ inUse mu := (mem_inUse hid).mpr (Nat.ne_of_gt hpos)
    rw [hc.groupCnt, Finset.card_eq_zero] at hz
    rw [hz] at huse
    exact Finset.notMem_empty _ huse

end Selecting

end AIC.MuGroup
