import Aic8800.Lib.GuardedRun
import Aic8800.MuGroup
import Mathlib.Data.List.ReduceOption

/-!
# Groups and maps agree

Each group counts its users, each station the bits of its map, and the two say
the same of who is in which group. It holds as long as no station leaves a group
of two, where the source clears every trace of the other but its pointer in the
group, and as long as whoever has a group selected is served by an AP interface.
-/

set_option autoImplicit false

namespace AIC.MuGroup
open Lib.GuardedRun

/-- The number of users that are not NULL. -/
def Group.size (g : Group) : ℕ := g.users.countP Option.isSome

def groupIds : Finset ℕ := Finset.Icc 1 NX_MU_GROUP_MAX

def inUse (mu : Mu) : Finset ℕ := groupIds.filter fun g => (mu.groups g).size ≠ 0

structure Consistent (mu : Mu) : Prop where
  userCnt : ∀ g ∈ groupIds, (mu.groups g).userCnt = (mu.groups g).size ∧ (mu.groups g).userCnt ≠ 1
  groupCnt : mu.groupCnt = (inUse mu).card
  users : ∀ g ∈ groupIds, ∀ s ∈ mu.known,
    (mu.groups g).users.count (some s) = if g ∈ (mu.info s).map then 1 else 0
  cnt : ∀ s ∈ mu.known, (mu.info s).cnt = ((mu.info s).map ∩ groupIds).card
  selected : ∀ s ∈ mu.known, (mu.info s).group = 0 ∨ (mu.info s).group ∈ (mu.info s).map
  alive : ∀ g ∈ groupIds, ∀ s, some s ∈ (mu.groups g).users → s ∈ mu.known

/-! ## Lists of users -/

section Users
variable (users : List (Option StaId)) (ss : List StaId) (s t : StaId)

/-- A free place that is taken counts as its new user. -/
theorem countP_fill {p : Option StaId → Bool} (hp : p none = false) :
    (Mu.fill users ss).countP p =
      users.countP p+(Mu.placed users ss).countP fun s => p (some s) := by
  induction users generalizing ss with
  | nil => simp [Mu.fill, Mu.placed]
  | cons u users ih =>
    cases ss with
    | nil => cases u <;> simp [Mu.fill, Mu.placed]
    | cons x xs =>
      cases u with
      | none =>
        have h := ih xs
        simp only [Mu.placed] at h
        simp [Mu.fill, Mu.placed, List.countP_cons, h, hp]
        omega
      | some y =>
        have h := ih (x::xs)
        simp only [Mu.placed] at h
        simp [Mu.fill, Mu.placed, List.countP_cons, h]
        omega

theorem count_fill : (Mu.fill users ss).count (some s) =
    users.count (some s)+(Mu.placed users ss).count s := by
  have h := countP_fill users ss (p := (· == some s)) rfl
  simpa [List.count] using h

theorem size_fill : (Mu.fill users ss).countP Option.isSome =
    users.countP Option.isSome+(Mu.placed users ss).length := by
  rw [countP_fill users ss rfl]
  simp

theorem length_fill : (Mu.fill users ss).length = users.length := by
  induction users generalizing ss with
  | nil => rfl
  | cons u users ih => cases ss <;> cases u <;> simp [Mu.fill, ih]

theorem count_none_isSome : users.count none+users.countP Option.isSome = users.length := by
  induction users with
  | nil => rfl
  | cons u users ih => cases u <;> simp <;> omega

/-- There is room for all of them. -/
theorem placed_all (h : users.countP Option.isSome+ss.length ≤ users.length) :
    Mu.placed users ss = ss := by
  have hfree := count_none_isSome users
  rw [Mu.placed, List.take_of_length_le (by omega)]

theorem count_replace (h : some s ∈ users) : (users.replace (some s) none).count (some t) =
    users.count (some t)-if t = s then 1 else 0 := by
  induction users with
  | nil => cases h
  | cons u users ih =>
    by_cases hu : u = some s
    · subst hu
      by_cases ht : t = s
      · simp [ht]
      · have hs : s ≠ t := Ne.symm ht
        simp [ht, hs]
    · have hmem : some s ∈ users := by simpa [Ne.symm hu] using h
      have hne : (some s == u) = false := by simpa using Ne.symm hu
      rw [List.replace_cons, hne]
      simp only [List.count_cons, ih hmem]
      by_cases ht : t = s
      · have hpos := List.count_pos_iff.mpr hmem
        have hut : ¬ u = some t := by rwa [ht]
        simp [ht, hu]
      · simp [ht]

theorem size_replace (h : some s ∈ users) :
    (users.replace (some s) none).countP Option.isSome+1 = users.countP Option.isSome := by
  induction users with
  | nil => cases h
  | cons u users ih =>
    by_cases hu : u = some s
    · subst hu
      simp
    · have hmem : some s ∈ users := by simpa [Ne.symm hu] using h
      have hne : (some s == u) = false := by simpa using Ne.symm hu
      rw [List.replace_cons, hne]
      simp only [List.countP_cons]
      have := ih hmem
      omega

end Users

/-! ## Stations of a group -/

section Formula
variable (g : ℕ)

/-- One turn of the loops over the users. -/
def edit (f : GroupInfo → GroupInfo) (mu : Mu) (s : StaId) : Mu :=
  { mu.setInfo s (f (mu.info s)) with updateSta := moveHead mu.updateSta s }

theorem joinUsers_eq (ss : List StaId) (mu : Mu) : Mu.joinUsers g ss mu =
    ss.foldl (edit fun info => { info with cnt := info.cnt+1, map := insert g info.map }) mu := by
  induction ss generalizing mu with
  | nil => rfl
  | cons s ss ih => exact ih _

theorem dropUsers_eq (ss : List StaId) (mu : Mu) : Mu.dropUsers g ss mu =
    ss.foldl (edit fun info => { info with cnt := info.cnt-1, map := info.map.erase g }) mu := by
  induction ss generalizing mu with
  | nil => rfl
  | cons s ss ih => exact ih _

theorem edit_info (f : GroupInfo → GroupInfo) {ss : List StaId} (hn : ss.Nodup) (mu : Mu)
    (t : StaId) : (ss.foldl (edit f) mu).info t =
      if t ∈ ss then f (mu.info t) else mu.info t := by
  induction ss generalizing mu with
  | nil => simp
  | cons s ss ih =>
    obtain ⟨hs, hn⟩ := List.nodup_cons.mp hn
    rw [List.foldl_cons, ih hn]
    by_cases ht : t = s
    · subst ht
      simp [hs, edit, Mu.setInfo]
    · by_cases hmem : t ∈ ss <;> simp [hmem, ht, edit, Mu.setInfo]

theorem joinUsers_info {ss : List StaId} (hn : ss.Nodup) (mu : Mu) (t : StaId) :
    (Mu.joinUsers g ss mu).info t = if t ∈ ss then { mu.info t with
      cnt := (mu.info t).cnt+1, map := insert g (mu.info t).map } else mu.info t := by
  rw [joinUsers_eq]
  exact edit_info _ hn mu t

theorem dropUsers_info {ss : List StaId} (hn : ss.Nodup) (mu : Mu) (t : StaId) :
    (Mu.dropUsers g ss mu).info t = if t ∈ ss then { mu.info t with
      cnt := (mu.info t).cnt-1, map := (mu.info t).map.erase g } else mu.info t := by
  rw [dropUsers_eq]
  exact edit_info _ hn mu t

/-- What is left alone where users are added or removed. -/
structure SameLists (mu mu' : Mu) : Prop where
  activeGroups : mu'.activeGroups = mu.activeGroups
  activeSta : mu'.activeSta = mu.activeSta
  known : mu'.known = mu.known
  corrupt : mu'.corrupt = mu.corrupt
  group : ∀ s, (mu'.info s).group = (mu.info s).group

theorem edit_same {f : GroupInfo → GroupInfo} (hf : ∀ x, (f x).group = x.group)
    (ss : List StaId) (mu : Mu) : SameLists mu (ss.foldl (edit f) mu) ∧
      (ss.foldl (edit f) mu).groups = mu.groups := by
  induction ss generalizing mu with
  | nil => exact ⟨⟨rfl, rfl, rfl, rfl, fun _ => rfl⟩, rfl⟩
  | cons s ss ih =>
    obtain ⟨hsame, hgroups⟩ := ih (edit f mu s)
    refine ⟨⟨hsame.activeGroups, hsame.activeSta, hsame.known, hsame.corrupt, ?_⟩, hgroups⟩
    intro t
    rw [List.foldl_cons, hsame.group]
    by_cases ht : t = s
    · subst ht
      simp [edit, Mu.setInfo, hf]
    · simp [edit, Mu.setInfo, ht]

theorem joinUsers_same (ss : List StaId) (mu : Mu) : SameLists mu (Mu.joinUsers g ss mu) ∧
    (Mu.joinUsers g ss mu).groups = mu.groups := by
  rw [joinUsers_eq]
  apply edit_same
  exact fun _ => rfl

theorem dropUsers_same (ss : List StaId) (mu : Mu) : SameLists mu (Mu.dropUsers g ss mu) ∧
    (Mu.dropUsers g ss mu).groups = mu.groups := by
  rw [dropUsers_eq]
  apply edit_same
  exact fun _ => rfl

end Formula

/-! ## Groups and maps -/

/-- Everything but the selection, as it is also while groups are being created. -/
structure Grouped (cfg : Config) (mu : Mu) : Prop where
  room : ∀ g, (mu.groups g).users.length = cfg.userMax
  userCnt : ∀ g, (mu.groups g).userCnt = (mu.groups g).size
  notOne : ∀ g, (mu.groups g).size ≠ 1
  outside : ∀ g, g ∉ groupIds → (mu.groups g).size = 0
  groupCnt : mu.groupCnt = (inUse mu).card
  users : ∀ g s, (mu.groups g).users.count (some s) =
    if g ≠ 0 ∧ g ∈ (mu.info s).map then 1 else 0
  cnt : ∀ s, (mu.info s).cnt = ((mu.info s).map.erase 0).card
  alive : ∀ g s, some s ∈ (mu.groups g).users → s ∈ mu.known
  listed : ∀ g ∈ mu.activeGroups, g ∈ groupIds
  activeNodup : mu.activeSta.Nodup
  active : ∀ s ∈ mu.activeSta, s ∈ mu.known ∧ RWNX_SU_GROUP ∉ (mu.info s).map
  sound : mu.corrupt = false

section Grouped
variable {cfg : Config} {mu : Mu}

theorem members_iff {g : Group} {s : StaId} : s ∈ g.members ↔ some s ∈ g.users :=
  List.reduceOption_mem_iff

theorem members_count (g : Group) (s : StaId) : g.members.count s = g.users.count (some s) := by
  rw [Group.members, List.reduceOption, List.count_filterMap]
  rfl

theorem inUse_le (mu : Mu) : (inUse mu).card ≤ NX_MU_GROUP_MAX :=
  (Finset.card_filter_le _ _).trans (by simp [groupIds])

/-- A station is a user of the groups in its map. -/
theorem Grouped.mem_iff (h : Grouped cfg mu) {g : ℕ} {s : StaId} :
    some s ∈ (mu.groups g).users ↔ g ≠ 0 ∧ g ∈ (mu.info s).map := by
  rw [← List.count_pos_iff, h.users]
  split_ifs with hm <;> simp [hm]

theorem Grouped.size_pos (h : Grouped cfg mu) {g : ℕ} {s : StaId} (hg : g ≠ 0)
    (hm : g ∈ (mu.info s).map) : (mu.groups g).size ≠ 0 ∧ g ∈ groupIds := by
  have hmem := h.mem_iff.mpr ⟨hg, hm⟩
  have hpos : 0 < (mu.groups g).size := List.countP_pos_iff.mpr ⟨some s, hmem, rfl⟩
  refine ⟨by omega, ?_⟩
  by_contra hout
  have := h.outside g hout
  omega

theorem Grouped.members_nodup (h : Grouped cfg mu) (g : ℕ) : (mu.groups g).members.Nodup := by
  rw [List.nodup_iff_count_le_one]
  intro s
  rw [members_count, h.users]
  split_ifs <;> omega

theorem inUse_update {mu' : Mu} {g : ℕ} {x : Group} (hg : g ∈ groupIds)
    (hgroups : mu'.groups = Function.update mu.groups g x) :
    inUse mu' = if x.size = 0 then (inUse mu).erase g else insert g (inUse mu) := by
  ext g'
  by_cases hx : x.size = 0 <;> by_cases hne : g' = g <;>
    simp [inUse, hgroups, hx, hne, hg, Function.update_of_ne]

theorem mem_inUse {g : ℕ} (hg : g ∈ groupIds) : g ∈ inUse mu ↔ (mu.groups g).size ≠ 0 := by
  simp [inUse, hg]

theorem ne_zero_of_mem {g : ℕ} (hg : g ∈ groupIds) : g ≠ 0 := by
  rw [groupIds, Finset.mem_Icc] at hg
  omega

/-- One group changes, and the bit of that group in the maps of some stations. -/
theorem Grouped.regroup (h : Grouped cfg mu) {mu' : Mu} {g : ℕ} {x : Group} (hg : g ∈ groupIds)
    (hsame : SameLists mu mu') (hgroups : mu'.groups = Function.update mu.groups g x)
    (hroom : x.users.length = cfg.userMax) (hcount : x.userCnt = x.size) (hone : x.size ≠ 1)
    (hgc : mu'.groupCnt = (inUse mu').card)
    (husers : ∀ s, x.users.count (some s) = if g ∈ (mu'.info s).map then 1 else 0)
    (hother : ∀ s g', g' ≠ g → (g' ∈ (mu'.info s).map ↔ g' ∈ (mu.info s).map))
    (hcnt : ∀ s, (mu'.info s).cnt = ((mu'.info s).map.erase 0).card)
    (halive : ∀ s, some s ∈ x.users → s ∈ mu.known) : Grouped cfg mu' := by
  have hself : mu'.groups g = x := by rw [hgroups, Function.update_self]
  have hrest : ∀ g', g' ≠ g → mu'.groups g' = mu.groups g' := by
    intro g' hne
    rw [hgroups, Function.update_of_ne hne]
  have hg0 := ne_zero_of_mem hg
  refine ⟨?_, ?_, ?_, ?_, hgc, ?_, hcnt, ?_, ?_, ?_, ?_, hsame.corrupt.trans h.sound⟩
  · intro g'
    by_cases hne : g' = g
    · rw [hne, hself, hroom]
    · rw [hrest g' hne, h.room]
  · intro g'
    by_cases hne : g' = g
    · rw [hne, hself, hcount]
    · rw [hrest g' hne, h.userCnt]
  · intro g'
    by_cases hne : g' = g
    · rwa [hne, hself]
    · rw [hrest g' hne]
      exact h.notOne g'
  · intro g' hout
    have hne : g' ≠ g := by
      rintro rfl
      exact hout hg
    rw [hrest g' hne, h.outside g' hout]
  · intro g' s
    by_cases hne : g' = g
    · rw [hne, hself, husers]
      simp [hg0]
    · rw [hrest g' hne, h.users]
      simp only [hother s g' hne]
  · intro g' s hs
    rw [hsame.known]
    by_cases hne : g' = g
    · rw [hne, hself] at hs
      exact halive s hs
    · rw [hrest g' hne] at hs
      exact h.alive g' s hs
  · intro g' hg'
    rw [hsame.activeGroups] at hg'
    exact h.listed g' hg'
  · rw [hsame.activeSta]
    exact h.activeNodup
  · intro s hs
    rw [hsame.activeSta] at hs
    rw [hsame.known, RWNX_SU_GROUP, hother s 0 (Ne.symm hg0)]
    exact h.active s hs

theorem removeUsers_same (mu : Mu) (g : ℕ) : SameLists mu (mu.removeUsers g) := by
  have h := (dropUsers_same g (mu.groups g).members mu).1
  exact ⟨h.activeGroups, h.activeSta, h.known, h.corrupt, h.group⟩

theorem removeUsers_groups (mu : Mu) (g : ℕ) : (mu.removeUsers g).groups =
    Function.update mu.groups g ⟨0, (mu.groups g).users.map fun _ => none⟩ := by
  have h := (dropUsers_same g (mu.groups g).members mu).2
  unfold Mu.removeUsers Mu.setGroup
  dsimp only
  rw [h]

theorem Grouped.removeUsers_map (h : Grouped cfg mu) {g : ℕ} (hg : g ∈ groupIds) (s : StaId) :
    ((mu.removeUsers g).info s).map = (mu.info s).map.erase g ∧
      ((mu.removeUsers g).info s).cnt = (((mu.info s).map.erase g).erase 0).card := by
  have hg0 := ne_zero_of_mem hg
  have hinfo : (mu.removeUsers g).info s = if s ∈ (mu.groups g).members then { mu.info s with
      cnt := (mu.info s).cnt-1, map := (mu.info s).map.erase g } else mu.info s :=
    dropUsers_info g (h.members_nodup g) mu s
  have hmem : s ∈ (mu.groups g).members ↔ g ∈ (mu.info s).map := by
    rw [members_iff, h.mem_iff]
    simp [hg0]
  have hcnt := h.cnt s
  by_cases hs : g ∈ (mu.info s).map
  · rw [hinfo, if_pos (hmem.mpr hs)]
    refine ⟨rfl, ?_⟩
    have hbit : g ∈ (mu.info s).map.erase 0 := Finset.mem_erase.mpr ⟨hg0, hs⟩
    have hcard := Finset.card_erase_of_mem hbit
    have hpos := Finset.card_pos.mpr ⟨g, hbit⟩
    rw [Finset.erase_right_comm] at hcard
    dsimp only
    omega
  · rw [hinfo, if_neg (hmem.not.mpr hs), Finset.erase_eq_of_notMem hs]
    exact ⟨rfl, hcnt⟩

theorem Grouped.removeUsers (h : Grouped cfg mu) {g : ℕ} (hg : g ∈ groupIds) :
    Grouped cfg (mu.removeUsers g) := by
  have hmap := fun s => (h.removeUsers_map hg s).1
  have hempty : (⟨0, (mu.groups g).users.map fun _ => none⟩ : Group).size = 0 := by
    simp [Group.size]
  have hinUse := inUse_update hg (removeUsers_groups mu g)
  rw [if_pos hempty] at hinUse
  refine h.regroup hg (removeUsers_same mu g) (removeUsers_groups mu g) ?_ ?_ ?_ ?_ ?_ ?_ ?_ ?_
  · simpa using h.room g
  · rw [hempty]
    rfl
  · omega
  · rw [hinUse]
    have hcnt := h.groupCnt
    have hle := inUse_le mu
    have hold : (mu.removeUsers g).groupCnt =
        if (mu.groups g).userCnt ≠ 0 then dec8 mu.groupCnt else mu.groupCnt := rfl
    rw [hold, h.userCnt]
    by_cases hz : (mu.groups g).size = 0
    · rw [hz, Finset.erase_eq_of_notMem (by rw [mem_inUse hg]; omega)]
      simpa using hcnt
    · have hmem := (mem_inUse hg).mpr hz
      have hcard := Finset.card_erase_of_mem hmem
      have hpos := Finset.card_pos.mpr ⟨g, hmem⟩
      rw [if_pos (by omega), dec8, hcnt, hcard]
      rw [NX_MU_GROUP_MAX] at hle
      omega
  · intro s
    rw [hmap]
    simp [List.count_replicate]
  · intro s g' hne
    rw [hmap]
    simp [hne]
  · intro s
    rw [hmap]
    exact (h.removeUsers_map hg s).2
  · intro s hs
    simp at hs

theorem addUsers_same (mu : Mu) (g : ℕ) (ss : List StaId) : SameLists mu (mu.addUsers g ss) := by
  have h := (joinUsers_same g (Mu.placed (mu.groups g).users ss) mu).1
  exact ⟨h.activeGroups, h.activeSta, h.known, h.corrupt, h.group⟩

theorem addUsers_groups (mu : Mu) (g : ℕ) (ss : List StaId) : (mu.addUsers g ss).groups =
    Function.update mu.groups g ⟨(mu.groups g).userCnt+(Mu.placed (mu.groups g).users ss).length,
      Mu.fill (mu.groups g).users ss⟩ := by
  have h := (joinUsers_same g (Mu.placed (mu.groups g).users ss) mu).2
  unfold Mu.addUsers Mu.setGroup
  dsimp only
  rw [h]

/-- Users that are not in the group yet, and for which there is room. -/
theorem Grouped.addUsers (h : Grouped cfg mu) {g : ℕ} (hg : g ∈ groupIds) {ss : List StaId}
    (hn : ss.Nodup) (hnew : ∀ s ∈ ss, g ∉ (mu.info s).map ∧ s ∈ mu.known)
    (hroom : (mu.groups g).size+ss.length ≤ cfg.userMax)
    (htwo : 2 ≤ (mu.groups g).size+ss.length) :
    Grouped cfg (mu.addUsers g ss) ∧ (mu.addUsers g ss).groupCnt ≠ 0 := by
  have hg0 := ne_zero_of_mem hg
  have hall : Mu.placed (mu.groups g).users ss = ss :=
    placed_all _ _ (by rw [h.room]; exact hroom)
  have hsize : (⟨(mu.groups g).userCnt+(Mu.placed (mu.groups g).users ss).length,
      Mu.fill (mu.groups g).users ss⟩ : Group).size = (mu.groups g).size+ss.length := by
    rw [Group.size, size_fill, hall]
    rfl
  have hinfo : ∀ s, (mu.addUsers g ss).info s = if s ∈ ss then { mu.info s with
      cnt := (mu.info s).cnt+1, map := insert g (mu.info s).map } else mu.info s := by
    intro s
    have hjoin : (mu.addUsers g ss).info =
        (Mu.joinUsers g (Mu.placed (mu.groups g).users ss) mu).info := rfl
    rw [hjoin, hall]
    exact joinUsers_info g hn mu s
  have hmap : ∀ s, ((mu.addUsers g ss).info s).map =
      if s ∈ ss then insert g (mu.info s).map else (mu.info s).map := by
    intro s
    rw [hinfo]
    split_ifs <;> rfl
  have hinUse := inUse_update hg (addUsers_groups mu g ss)
  rw [hsize, if_neg (by omega)] at hinUse
  have hcard : (mu.addUsers g ss).groupCnt = (inUse (mu.addUsers g ss)).card := by
    have hold : (mu.addUsers g ss).groupCnt =
        if (mu.groups g).userCnt = 0 then inc8 mu.groupCnt else mu.groupCnt := rfl
    have hle := inUse_le (mu.addUsers g ss)
    rw [hinUse] at hle ⊢
    rw [hold, h.userCnt, h.groupCnt]
    by_cases hz : (mu.groups g).size = 0
    · have hnot : g ∉ inUse mu := by
        rw [mem_inUse hg]
        omega
      rw [Finset.card_insert_of_notMem hnot] at hle ⊢
      rw [NX_MU_GROUP_MAX] at hle
      rw [if_pos (by omega), inc8]
      omega
    · rw [if_neg (by omega), Finset.insert_eq_of_mem ((mem_inUse hg).mpr hz)]
  refine ⟨?_, ?_⟩
  · refine h.regroup hg (addUsers_same mu g ss) (addUsers_groups mu g ss) ?_ ?_ ?_ hcard ?_ ?_ ?_ ?_
    · rw [length_fill, h.room]
    · rw [hsize, hall, h.userCnt]
      push_cast
      rfl
    · omega
    · intro s
      rw [count_fill, hall, h.users, hmap]
      by_cases hs : s ∈ ss
      · simp [hs, (hnew s hs).1, List.count_eq_one_of_mem hn hs]
      · simp [hs, hg0, List.count_eq_zero_of_not_mem hs]
    · intro s g' hne
      rw [hmap]
      split_ifs <;> simp [hne]
    · intro s
      rw [hinfo]
      by_cases hs : s ∈ ss
      · have hnot : g ∉ (mu.info s).map.erase 0 := fun hm =>
          (hnew s hs).1 (Finset.mem_of_mem_erase hm)
        rw [if_pos hs, Finset.erase_insert_of_ne (Ne.symm hg0).symm,
          Finset.card_insert_of_notMem hnot]
        push_cast
        rw [h.cnt]
      · rw [if_neg hs, h.cnt]
    · intro s hs
      have hpos := List.count_pos_iff.mpr hs
      rw [count_fill, hall] at hpos
      by_cases hold : some s ∈ (mu.groups g).users
      · exact h.alive g s hold
      · rw [List.count_eq_zero_of_not_mem hold, Nat.zero_add] at hpos
        exact (hnew s (List.count_pos_iff.mp hpos)).2
  · rw [hcard, hinUse]
    exact Finset.card_ne_zero_of_mem (Finset.mem_insert_self g _)

/-! ## Lists, statistics and new stations -/

/-- Groups and the bits of the groups in the maps stay, the rest may change. -/
theorem Grouped.retouch (h : Grouped cfg mu) {mu' : Mu} (hgroups : mu'.groups = mu.groups)
    (hgc : mu'.groupCnt = mu.groupCnt)
    (hinfo : ∀ s, (mu'.info s).map.erase 0 = (mu.info s).map.erase 0 ∧
      (mu'.info s).cnt = (mu.info s).cnt)
    (hknown : mu.known ⊆ mu'.known) (hlisted : ∀ g ∈ mu'.activeGroups, g ∈ groupIds)
    (hnodup : mu'.activeSta.Nodup)
    (hactive : ∀ s ∈ mu'.activeSta, s ∈ mu'.known ∧ RWNX_SU_GROUP ∉ (mu'.info s).map)
    (hsound : mu'.corrupt = false) : Grouped cfg mu' := by
  have hbit : ∀ g s, (g ≠ 0 ∧ g ∈ (mu'.info s).map) ↔ (g ≠ 0 ∧ g ∈ (mu.info s).map) := by
    intro g s
    rw [← Finset.mem_erase, (hinfo s).1, Finset.mem_erase]
  refine ⟨?_, ?_, ?_, ?_, ?_, ?_, ?_, ?_, hlisted, hnodup, hactive, hsound⟩
  · rw [hgroups]
    exact h.room
  · rw [hgroups]
    exact h.userCnt
  · rw [hgroups]
    exact h.notOne
  · rw [hgroups]
    exact h.outside
  · rw [hgc, h.groupCnt, inUse, inUse, hgroups]
  · intro g s
    rw [hgroups, h.users]
    simp only [hbit]
  · intro s
    rw [(hinfo s).1, (hinfo s).2, h.cnt]
  · intro g s hs
    rw [hgroups] at hs
    exact hknown (h.alive g s hs)

theorem mem_moveHead {l : List ℕ} {x y : ℕ} : x ∈ moveHead l y ↔ x = y ∨ x ∈ l := by
  unfold moveHead
  by_cases hxy : x = y
  · simp [hxy]
  · simp [hxy, List.mem_erase_of_ne hxy]

theorem Grouped.setActiveGroup (h : Grouped cfg mu) {g : ℕ} (hg : g ∈ groupIds) :
    Grouped cfg (mu.setActiveGroup g) := by
  refine h.retouch rfl rfl (fun _ => ⟨rfl, rfl⟩) (Finset.Subset.refl _) ?_ h.activeNodup h.active
    h.sound
  intro g' hg'
  rcases mem_moveHead.mp hg' with rfl | hg'
  · exact hg
  · exact h.listed g' hg'

/-! ## Creating groups -/

/-- What creating groups does to stations and counters, besides their membership. -/
structure Kept (mu mu' : Mu) : Prop where
  known : mu'.known = mu.known
  group : ∀ s, (mu'.info s).group = (mu.info s).group
  inUse : mu'.groupCnt ≠ 0 ∨ mu'.groupCnt = mu.groupCnt

theorem Kept.refl (mu : Mu) : Kept mu mu := ⟨rfl, fun _ => rfl, Or.inr rfl⟩

theorem Kept.trans {mu mu' mu'' : Mu} (h : Kept mu mu') (h' : Kept mu' mu'') : Kept mu mu'' := by
  refine ⟨h'.known.trans h.known, fun s => (h'.group s).trans (h.group s), ?_⟩
  rcases h'.inUse with hne | heq
  · exact Or.inl hne
  · rw [heq]
    exact h.inUse

theorem groupMatch_subset (mu : Mu) (s : StaId) (ss : List StaId) :
    mu.groupMatch s ss ⊆ (mu.info s).map := by
  unfold Mu.groupMatch
  have hall : ∀ m : Finset ℕ, ss.foldl (fun m t => m ∩ (mu.info t).map) m ⊆ m := by
    induction ss with
    | nil => exact fun m => Finset.Subset.refl m
    | cons t ss ih => exact fun m => (ih _).trans Finset.inter_subset_left
  exact hall _

theorem mem_groupAvail {s : StaId} {ss : List StaId} {g : ℕ} (h : g ∈ mu.groupAvail s ss) :
    ∃ t ∈ s::ss, g ∈ (mu.info t).map := by
  unfold Mu.groupAvail at h
  have hall : ∀ m : Finset ℕ, g ∈ ss.foldl (fun m t => m ∪ (mu.info t).map) m →
      g ∈ m ∨ ∃ t ∈ ss, g ∈ (mu.info t).map := by
    clear h
    induction ss with
    | nil => exact fun m hm => Or.inl hm
    | cons t ss ih =>
      intro m hm
      rcases ih _ hm with hm | ⟨u, hu, hg⟩
      · rcases Finset.mem_union.mp hm with hm | hm
        · exact Or.inl hm
        · exact Or.inr ⟨t, List.mem_cons_self, hm⟩
      · exact Or.inr ⟨u, List.mem_cons_of_mem t hu, hg⟩
  rcases hall _ h with hm | ⟨t, ht, hg⟩
  · exact ⟨s, List.mem_cons_self, hm⟩
  · exact ⟨t, List.mem_cons_of_mem s ht, hg⟩

theorem mem_groupsOf {m : Finset ℕ} {g : ℕ} : g ∈ groupsOf m ↔ g ∈ groupIds ∧ g ∈ m := by
  simp [groupsOf, groupIds, List.mem_range'_1]
  omega

/-- Users that are active stations, at least two of them and no more than a group takes. -/
theorem Grouped.createOne (h : Grouped cfg mu) {s : StaId} {ss : List StaId}
    (hactive : ∀ t ∈ s::ss, t ∈ mu.activeSta) (hn : (s::ss).Nodup) (hne : ss ≠ [])
    (hlen : (s::ss).length ≤ cfg.userMax) :
    Grouped cfg (mu.groupCreateOne cfg s ss).1 ∧ Kept mu (mu.groupCreateOne cfg s ss).1 ∧
      (mu.groupCreateOne cfg s ss).1.activeSta = mu.activeSta := by
  have hpos := List.length_pos_of_ne_nil hne
  unfold Mu.groupCreateOne
  dsimp only
  split_ifs with hmatch
  · obtain ⟨g, hg, hsup⟩ := Finset.exists_mem_eq_sup _ (Finset.nonempty_of_ne_empty hmatch) id
    have hmap := groupMatch_subset mu s ss hg
    have hg0 : g ≠ 0 := by
      rintro rfl
      exact (h.active s (hactive s List.mem_cons_self)).2 hmap
    rw [hsup]
    exact ⟨h.setActiveGroup (h.size_pos hg0 hmap).2, ⟨rfl, fun _ => rfl, Or.inr rfl⟩, rfl⟩
  · cases hc : mu.completes cfg s ss with
    | some g =>
      unfold Mu.completes at hc
      split_ifs at hc
      have hfound := List.find?_some hc
      obtain ⟨hg, havail⟩ := mem_groupsOf.mp (List.mem_of_find?_eq_some hc)
      obtain ⟨t, ht, hmap⟩ := mem_groupAvail havail
      simp only [Bool.and_eq_true, bne_iff_ne, decide_eq_true_eq] at hfound
      have hsize := (h.size_pos (ne_zero_of_mem hg) hmap).1
      have hone := h.notOne g
      have hcnt := h.userCnt g
      have hnew : ∀ t ∈ mu.lacking g (s::ss), g ∉ (mu.info t).map ∧ t ∈ mu.known := by
        intro t ht
        obtain ⟨hmem, hlack⟩ := List.mem_filter.mp ht
        exact ⟨by simpa using hlack, (h.active t (hactive t hmem)).1⟩
      have hnlack : (mu.lacking g (s::ss)).Nodup := hn.filter _
      obtain ⟨hadd, hgc⟩ := h.addUsers hg hnlack hnew (by omega) (by omega)
      have hsame := addUsers_same mu g (mu.lacking g (s::ss))
      exact ⟨hadd.setActiveGroup hg, ⟨hsame.known, hsame.group, Or.inl hgc⟩, hsame.activeSta⟩
    | none =>
      cases hl : mu.activeGroups.getLast? with
      | none => exact ⟨h, Kept.refl mu, rfl⟩
      | some g =>
        have hg := h.listed g (List.mem_of_getLast? hl)
        have hremove := h.removeUsers hg
        have hsame := removeUsers_same mu g
        have hzero : ((mu.removeUsers g).groups g).size = 0 := by
          rw [removeUsers_groups, Function.update_self]
          simp [Group.size]
        have hnew : ∀ t ∈ s::ss, g ∉ ((mu.removeUsers g).info t).map ∧
            t ∈ (mu.removeUsers g).known := by
          intro t ht
          rw [(h.removeUsers_map hg t).1, hsame.known]
          exact ⟨Finset.notMem_erase g _, (h.active t (hactive t ht)).1⟩
        obtain ⟨hadd, hgc⟩ := hremove.addUsers hg hn hnew (by rw [hzero]; omega)
          (by rw [hzero, List.length_cons]; omega)
        have hsame' := addUsers_same (mu.removeUsers g) g (s::ss)
        exact ⟨hadd.setActiveGroup hg, ⟨hsame'.known.trans hsame.known,
          fun t => (hsame'.group t).trans (hsame.group t), Or.inl hgc⟩,
          hsame'.activeSta.trans hsame.activeSta⟩

theorem Grouped.create {s : StaId} (fuel : ℕ) {mu : Mu} (h : Grouped cfg mu) {rest : List StaId}
    (left : ℤ) (hactive : ∀ t ∈ s::rest, t ∈ mu.activeSta) (hn : (s::rest).Nodup) :
    Grouped cfg (Mu.groupCreate cfg s fuel rest (mu, left)).1 ∧
      Kept mu (Mu.groupCreate cfg s fuel rest (mu, left)).1 ∧
      (Mu.groupCreate cfg s fuel rest (mu, left)).1.activeSta = mu.activeSta := by
  induction fuel generalizing mu rest left with
  | zero => exact ⟨h, Kept.refl mu, rfl⟩
  | succ fuel ih =>
    unfold Mu.groupCreate
    dsimp only
    by_cases hstop : left = 0 ∨ rest.take (cfg.userMax-1) = []
    · rw [if_pos hstop]
      exact ⟨h, Kept.refl mu, rfl⟩
    rw [if_neg hstop]
    rw [not_or] at hstop
    have htwo := cfg.two
    have hfirst : ∀ t ∈ s::rest.take (cfg.userMax-1), t ∈ mu.activeSta := by
      intro t ht
      rcases List.mem_cons.mp ht with rfl | ht
      · exact hactive _ List.mem_cons_self
      · exact hactive t (List.mem_cons_of_mem s (List.mem_of_mem_take ht))
    have hnfirst : (s::rest.take (cfg.userMax-1)).Nodup :=
      hn.sublist (List.Sublist.cons_cons s (List.take_sublist _ _))
    have hlen : (s::rest.take (cfg.userMax-1)).length ≤ cfg.userMax := by
      rw [List.length_cons, List.length_take]
      omega
    obtain ⟨hone, hkept, hsta⟩ := h.createOne hfirst hnfirst hstop.2 hlen
    by_cases hshort : (rest.take (cfg.userMax-1)).length < cfg.userMax-1
    · rw [if_pos hshort]
      exact ⟨hone, hkept, hsta⟩
    · rw [if_neg hshort]
      have hrest : ∀ t ∈ s::rest.drop (cfg.userMax-1),
          t ∈ (mu.groupCreateOne cfg s (rest.take (cfg.userMax-1))).1.activeSta := by
        intro t ht
        rw [hsta]
        rcases List.mem_cons.mp ht with rfl | ht
        · exact hactive _ List.mem_cons_self
        · exact hactive t (List.mem_cons_of_mem s (List.mem_of_mem_drop ht))
      have hnrest : (s::rest.drop (cfg.userMax-1)).Nodup :=
        hn.sublist (List.Sublist.cons_cons s (List.drop_sublist _ _))
      obtain ⟨hg, hk, ha⟩ := ih hone _ hrest hnrest
      exact ⟨hg, hkept.trans hk, ha.trans hsta⟩

theorem leaveActive_info (mu : Mu) (s t : StaId) :
    ((mu.leaveActive s).info t).map = (mu.info t).map ∧
      ((mu.leaveActive s).info t).cnt = (mu.info t).cnt ∧
      ((mu.leaveActive s).info t).group = (mu.info t).group := by
  unfold Mu.leaveActive Mu.setInfo
  by_cases ht : t = s
  · subst ht
    simp
  · simp [ht]

theorem Grouped.workLoop (l : List StaId) {mu : Mu} (h : Grouped cfg mu) (left : ℤ)
    (hactive : ∀ t ∈ l, t ∈ mu.activeSta) (hn : l.Nodup) :
    Grouped cfg (Mu.workLoop cfg l (mu, left)).1 ∧ Kept mu (Mu.workLoop cfg l (mu, left)).1 := by
  induction l generalizing mu left with
  | nil => exact ⟨h, Kept.refl mu⟩
  | cons s rest ih =>
    obtain ⟨hs, hnrest⟩ := List.nodup_cons.mp hn
    obtain ⟨hg, hk, ha⟩ := h.create (rest.length+1) left hactive hn
    rw [Mu.workLoop]
    generalize Mu.groupCreate cfg s (rest.length+1) rest (mu, left) = r at hg hk ha
    obtain ⟨mu', left'⟩ := r
    dsimp only at hg hk ha ⊢
    have hinfo := leaveActive_info mu' s
    have hnext : Grouped cfg (mu'.leaveActive s) := by
      refine hg.retouch rfl rfl (fun t => ⟨by rw [(hinfo t).1], (hinfo t).2.1⟩)
        (Finset.Subset.refl _) hg.listed (hg.activeNodup.erase s) ?_ hg.sound
      intro t ht
      have hold := hg.active t (List.mem_of_mem_erase ht)
      exact ⟨hold.1, by rw [(hinfo t).1]; exact hold.2⟩
    have hrest : ∀ t ∈ rest, t ∈ mu'.activeSta.erase s := by
      intro t ht
      have hne : t ≠ s := by
        rintro rfl
        exact hs ht
      rw [List.mem_erase_of_ne hne, ha]
      exact hactive t (List.mem_cons_of_mem s ht)
    obtain ⟨hfin, hkfin⟩ := ih hnext left' hrest hnrest
    have hvisit : Kept mu' (mu'.leaveActive s) := ⟨rfl, fun t => (hinfo t).2.2, Or.inr rfl⟩
    exact ⟨hfin, (hk.trans hvisit).trans hkfin⟩

/-! ## Selecting groups -/

/-- Selecting changes the traffic counted and the groups selected. -/
structure Reselect (mu mu' : Mu) : Prop where
  groups : mu'.groups = mu.groups
  groupCnt : mu'.groupCnt = mu.groupCnt
  known : mu'.known = mu.known
  activeGroups : mu'.activeGroups = mu.activeGroups
  activeSta : mu'.activeSta = mu.activeSta
  info : ∀ s, (mu'.info s).map = (mu.info s).map ∧ (mu'.info s).cnt = (mu.info s).cnt

theorem Reselect.refl (mu : Mu) : Reselect mu mu := ⟨rfl, rfl, rfl, rfl, rfl, fun _ => ⟨rfl, rfl⟩⟩

theorem Reselect.trans {mu mu' mu'' : Mu} (h : Reselect mu mu') (h' : Reselect mu' mu'') :
    Reselect mu mu'' :=
  ⟨h'.groups.trans h.groups, h'.groupCnt.trans h.groupCnt, h'.known.trans h.known,
    h'.activeGroups.trans h.activeGroups, h'.activeSta.trans h.activeSta, fun s =>
    ⟨(h'.info s).1.trans (h.info s).1, (h'.info s).2.trans (h.info s).2⟩⟩

theorem Grouped.reselect (h : Grouped cfg mu) {mu' : Mu} (hr : Reselect mu mu')
    (hs : mu'.corrupt = false) : Grouped cfg mu' := by
  refine h.retouch hr.groups hr.groupCnt ?_ ?_ ?_ ?_ ?_ hs
  · intro s
    rw [(hr.info s).1]
    exact ⟨rfl, (hr.info s).2⟩
  · rw [hr.known]
  · rw [hr.activeGroups]
    exact h.listed
  · rw [hr.activeSta]
    exact h.activeNodup
  · intro s hs
    rw [hr.activeSta] at hs
    rw [hr.known, (hr.info s).1]
    exact h.active s hs

/-- Where only the selection of one station changes. -/
theorem reselect_setInfo (mu : Mu) (s : StaId) (traffic : ℤ) (g : ℕ) :
    Reselect mu (mu.setInfo s { mu.info s with traffic := traffic, group := g }) := by
  refine ⟨rfl, rfl, rfl, rfl, rfl, ?_⟩
  intro t
  by_cases ht : t = s
  · subst ht
    simp [Mu.setInfo]
  · simp [Mu.setInfo, ht]

def Selected (mu : Mu) (s : StaId) : Prop :=
  (mu.info s).group = 0 ∨ (mu.info s).group ∈ (mu.info s).map

/-- The groups listed so far: those of earlier interfaces, then each with two users once. -/
def Listed (mu : Mu) (base : List ℕ) (st : Mu.Stats) : Prop :=
  ∃ new, st.order = base++new ∧ new.Nodup ∧ ∀ g ∈ new, 2 ≤ st.nbUsers g ∧ g ∈ inUse mu

theorem Listed.add {base : List ℕ} {st : Mu.Stats} (h : Listed mu base st) (t : ℤ) {g : ℕ}
    (hg : g ∈ inUse mu) : Listed mu base (st.add t g) := by
  obtain ⟨new, horder, hn, hnew⟩ := h
  have hmono : ∀ g', st.nbUsers g' ≤ (st.add t g).nbUsers g' := by
    intro g'
    by_cases hne : g' = g
    · subst hne
      simp [Mu.Stats.add]
    · simp [Mu.Stats.add, hne]
  by_cases htwo : st.nbUsers g+1 = 2
  · have hfresh : g ∉ new := by
      intro hmem
      have := (hnew g hmem).1
      omega
    refine ⟨new++[g], ?_, ?_, ?_⟩
    · simp [Mu.Stats.add, htwo, horder]
    · rw [List.nodup_append]
      refine ⟨hn, List.nodup_singleton g, ?_⟩
      intro a ha b hb
      rw [List.mem_singleton.mp hb]
      rintro rfl
      exact hfresh ha
    · intro g' hg'
      rcases List.mem_append.mp hg' with hg' | hg'
      · exact ⟨(hnew g' hg').1.trans (hmono g'), (hnew g' hg').2⟩
      · rw [List.mem_singleton.mp hg']
        refine ⟨?_, hg⟩
        simp [Mu.Stats.add]
        omega
  · refine ⟨new, by simp [Mu.Stats.add, htwo, horder], hn, ?_⟩
    intro g' hg'
    exact ⟨(hnew g' hg').1.trans (hmono g'), (hnew g' hg').2⟩

theorem Listed.foldl {base : List ℕ} (t : ℤ) (gs : List ℕ) {st : Mu.Stats}
    (h : Listed mu base st) (hg : ∀ g ∈ gs, g ∈ inUse mu) :
    Listed mu base (gs.foldl (Mu.Stats.add t) st) := by
  induction gs generalizing st with
  | nil => exact h
  | cons g gs ih =>
    exact ih (h.add t (hg g List.mem_cons_self)) fun g' hg' => hg g' (List.mem_cons_of_mem g hg')

theorem gather_spec (ss : List StaId) (mu : Mu) (st : Mu.Stats) :
    Reselect mu (Mu.gather ss (mu, st)).1 ∧
      (Mu.gather ss (mu, st)).1.corrupt = mu.corrupt ∧
      ∀ s, (s ∈ ss ∨ Selected mu s) → Selected (Mu.gather ss (mu, st)).1 s := by
  induction ss generalizing mu st with
  | nil => exact ⟨Reselect.refl mu, rfl, fun s hs => hs.resolve_left List.not_mem_nil⟩
  | cons x ss ih =>
    rw [Mu.gather]
    obtain ⟨hr, hc, hsel⟩ := ih (mu.setInfo x { mu.info x with traffic := 0, group := 0 })
      (if (mu.info x).cnt = 0 ∨ (mu.info x).traffic < RWNX_MU_GROUP_MIN_TRAFFIC then st
        else (groupsOf (mu.info x).map).foldl (Mu.Stats.add (mu.info x).traffic) st)
    refine ⟨(reselect_setInfo mu x 0 0).trans hr, hc, ?_⟩
    intro s hs
    apply hsel
    by_cases hsx : s = x
    · right
      left
      simp [Mu.setInfo, hsx]
    · rcases hs with hs | hs
      · exact Or.inl ((List.mem_cons.mp hs).resolve_left hsx)
      · right
        simpa [Selected, Mu.setInfo, hsx] using hs

theorem gather_listed (base : List ℕ) (ss : List StaId) {mu mu' : Mu}
    (hmap : ∀ s, ∀ g ∈ groupsOf (mu'.info s).map, g ∈ inUse mu) (st : Mu.Stats)
    (h : Listed mu base st) : Listed mu base (Mu.gather ss (mu', st)).2 := by
  induction ss generalizing mu' st with
  | nil => exact h
  | cons x ss ih =>
    rw [Mu.gather]
    have hsame := reselect_setInfo mu' x 0 0
    apply ih
    · intro s g hg
      rw [(hsame.info s).1] at hg
      exact hmap s g hg
    · split_ifs
      · exact h
      · exact h.foldl _ _ (hmap x)

theorem bubble_perm (traffic : ℕ → ℤ) (g : ℕ) (gs : List ℕ) :
    (Mu.bubble traffic g gs).Perm (g::gs) := by
  induction gs generalizing g with
  | nil => exact List.Perm.refl _
  | cons h gs ih =>
    rw [Mu.bubble]
    split_ifs
    · exact ((ih g).cons h).trans (List.Perm.swap g h gs)
    · exact (ih h).cons g

theorem reorder_perm (traffic : ℕ → ℤ) (order : List ℕ) :
    (Mu.reorder traffic order).Perm order := by
  unfold Mu.reorder
  have hall : ∀ n, ((Mu.pass traffic)^[n] order).Perm order := by
    intro n
    induction n with
    | zero => exact List.Perm.refl _
    | succ n ih =>
      rw [Function.iterate_succ_apply']
      refine List.Perm.trans ?_ ih
      cases (Mu.pass traffic)^[n] order with
      | nil => exact List.Perm.refl _
      | cons g gs => exact bubble_perm traffic g gs
  exact hall _

theorem selectUsers_spec {g : ℕ} (ss : List StaId) (mu : Mu) (nb : ℕ → ℤ)
    (hmap : ∀ s ∈ ss, g ∈ (mu.info s).map) :
    Reselect mu (Mu.selectUsers g ss (mu, nb)).1 ∧
      (Mu.selectUsers g ss (mu, nb)).1.corrupt = mu.corrupt ∧
      ∀ s, Selected mu s → Selected (Mu.selectUsers g ss (mu, nb)).1 s := by
  induction ss generalizing mu nb with
  | nil => exact ⟨Reselect.refl mu, rfl, fun _ hs => hs⟩
  | cons x ss ih =>
    rw [Mu.selectUsers]
    have hsame := reselect_setInfo mu x (mu.info x).traffic g
    obtain ⟨hr, hc, hsel⟩ := ih (mu.setInfo x { mu.info x with group := g })
      ((groupsOf (mu.info x).map).foldl
        (fun nb h => if g ≠ h then Function.update nb h (nb h-1) else nb) nb)
      (by
        intro s hs
        rw [(hsame.info s).1]
        exact hmap s (List.mem_cons_of_mem x hs))
    refine ⟨hsame.trans hr, hc, ?_⟩
    intro s hs
    apply hsel
    by_cases hsx : s = x
    · right
      subst hsx
      simpa [Mu.setInfo] using hmap s List.mem_cons_self
    · simpa [Selected, Mu.setInfo, hsx] using hs

theorem Grouped.assign (order : List ℕ) {mu : Mu} (h : Grouped cfg mu) (nb : ℕ → ℤ) :
    Reselect mu (Mu.assign order (mu, nb)).1 ∧
      (Mu.assign order (mu, nb)).1.corrupt = mu.corrupt ∧
      ∀ s, Selected mu s → Selected (Mu.assign order (mu, nb)).1 s := by
  induction order generalizing mu nb with
  | nil => exact ⟨Reselect.refl mu, rfl, fun _ hs => hs⟩
  | cons g order ih =>
    rw [Mu.assign]
    split_ifs
    · exact ih h nb
    · have hmap : ∀ s ∈ (mu.groups g).members, g ∈ (mu.info s).map := fun s hs =>
        (h.mem_iff.mp (members_iff.mp hs)).2
      obtain ⟨hr, hc, hsel⟩ := selectUsers_spec (mu.groups g).members mu nb hmap
      obtain ⟨hr', hc', hsel'⟩ := ih (h.reselect hr (hc.trans h.sound))
        (Mu.selectUsers g (mu.groups g).members (mu, nb)).2
      exact ⟨hr.trans hr', hc'.trans hc, fun s hs => hsel' s (hsel s hs)⟩

/-- After all interfaces every station on one of them has selected a group that it is in. -/
theorem Grouped.selectVifs (vifs : List (List StaId)) {mu : Mu} (h : Grouped cfg mu)
    (order : List ℕ) (hfew : order.length+vifs.length*mu.groupCnt ≤ NX_MU_GROUP_MAX+1) :
    Reselect mu (Mu.selectVifs vifs (mu, order)).1 ∧
      (Mu.selectVifs vifs (mu, order)).1.corrupt = false ∧
      ∀ s, (s ∈ vifs.flatten ∨ Selected mu s) →
        Selected (Mu.selectVifs vifs (mu, order)).1 s := by
  induction vifs generalizing mu order with
  | nil => exact ⟨Reselect.refl mu, h.sound, fun s hs => hs.resolve_left (by simp)⟩
  | cons ss vifs ih =>
    rw [Mu.selectVifs]
    obtain ⟨hr, hc, hsel⟩ := gather_spec ss mu ⟨fun _ => 0, fun _ => 0, order⟩
    have hmap : ∀ s, ∀ g ∈ groupsOf (mu.info s).map, g ∈ inUse mu := by
      intro s g hg
      obtain ⟨hid, hbit⟩ := mem_groupsOf.mp hg
      exact (mem_inUse hid).mpr (h.size_pos (ne_zero_of_mem hid) hbit).1
    obtain ⟨new, horder, hnew, hin⟩ := gather_listed order ss hmap
      ⟨fun _ => 0, fun _ => 0, order⟩ ⟨[], by simp, List.nodup_nil, by simp⟩
    generalize Mu.gather ss (mu, ⟨fun _ => 0, fun _ => 0, order⟩) = r at hr hc hsel horder hin
    obtain ⟨mu1, st⟩ := r
    dsimp only at hr hc hsel horder hin ⊢
    have h1 := h.reselect hr (hc.trans h.sound)
    obtain ⟨hr2, hc2, hsel2⟩ := h1.assign (Mu.reorder st.traffic st.order) st.nbUsers
    have hlen := (reorder_perm st.traffic st.order).length_eq
    generalize Mu.reorder st.traffic st.order = order' at hr2 hc2 hsel2 hlen ⊢
    generalize Mu.assign order' (mu1, st.nbUsers) = r at hr2 hc2 hsel2
    obtain ⟨mu2, nb⟩ := r
    dsimp only at hr2 hc2 hsel2 ⊢
    have hnewlen : new.length ≤ mu.groupCnt := by
      rw [h.groupCnt, ← List.toFinset_card_of_nodup hnew]
      refine Finset.card_le_card ?_
      intro g hg
      exact (hin g (List.mem_toFinset.mp hg)).2
    rw [horder, List.length_append] at hlen
    have hmul : (vifs.length+1)*mu.groupCnt = vifs.length*mu.groupCnt+mu.groupCnt := by ring
    rw [List.length_cons, hmul] at hfew
    have hroom : ¬ NX_MU_GROUP_MAX+1 < order'.length := by omega
    have hcorrupt : (mu2.corrupt || decide (NX_MU_GROUP_MAX+1 < order'.length)) = false := by
      rw [hc2, hc, h.sound]
      simpa using hroom
    rw [hcorrupt]
    have hr12 := hr.trans hr2
    have hr3 : Reselect mu { mu2 with corrupt := false } :=
      ⟨hr12.groups, hr12.groupCnt, hr12.known, hr12.activeGroups, hr12.activeSta, hr12.info⟩
    have hfew' : order'.length+vifs.length*mu2.groupCnt ≤ NX_MU_GROUP_MAX+1 := by
      rw [hr12.groupCnt]
      omega
    obtain ⟨hr4, hc4, hsel4⟩ := ih (h.reselect hr3 rfl) order' hfew'
    refine ⟨hr3.trans hr4, hc4, ?_⟩
    intro s hs
    apply hsel4
    by_cases hrest : s ∈ vifs.flatten
    · exact Or.inl hrest
    · right
      apply hsel2
      apply hsel
      rcases hs with hs | hs
      · rw [List.flatten_cons, List.mem_append] at hs
        exact Or.inl (hs.resolve_right hrest)
      · exact Or.inr hs

/-! ## Stations that leave -/

theorem leaveGroup_eq {s : StaId} {g : ℕ} (hs : some s ∈ (mu.groups g).users)
    (hcnt : (mu.groups g).userCnt ≠ 2) : mu.leaveGroup s g =
      mu.setGroup g ⟨(mu.groups g).userCnt-1, (mu.groups g).users.replace (some s) none⟩ := by
  have hone : ¬ (mu.groups g).userCnt-1 = 1 := by omega
  unfold Mu.leaveGroup
  dsimp only
  rw [if_pos hs, if_neg hone]

/-- As long as no group of two is left, each group loses the one user. -/
theorem leaveGroups_groups {s : StaId} (gs : List ℕ) (hn : gs.Nodup) (mu : Mu)
    (h : ∀ g ∈ gs, some s ∈ (mu.groups g).users ∧ (mu.groups g).userCnt ≠ 2) :
    Mu.leaveGroups s gs mu = { mu with
      groups := fun g => if g ∈ gs then
        ⟨(mu.groups g).userCnt-1, (mu.groups g).users.replace (some s) none⟩ else mu.groups g } := by
  induction gs generalizing mu with
  | nil => simp [Mu.leaveGroups]
  | cons g gs ih =>
    obtain ⟨hg, hn⟩ := List.nodup_cons.mp hn
    obtain ⟨hs, hcnt⟩ := h g List.mem_cons_self
    have hother : ∀ g' ∈ gs, (mu.setGroup g ⟨(mu.groups g).userCnt-1,
        (mu.groups g).users.replace (some s) none⟩).groups g' = mu.groups g' := by
      intro g' hg'
      have hne : g' ≠ g := by
        rintro rfl
        exact hg hg'
      simp [Mu.setGroup, hne]
    rw [Mu.leaveGroups, leaveGroup_eq hs hcnt, ih hn]
    · unfold Mu.setGroup
      congr 1
      funext g'
      by_cases hne : g' = g
      · subst hne
        simp [hg]
      · simp [hne]
    · intro g' hg'
      rw [hother g' hg']
      exact h g' (List.mem_cons_of_mem g hg')

theorem Grouped.del (h : Grouped cfg mu) {s : StaId}
    (hcnt : ∀ g ∈ (mu.info s).map, (mu.groups g).userCnt ≠ 2) :
    Grouped cfg (mu.groupStaDel s) ∧ (mu.groupStaDel s).known = mu.known.erase s ∧
      ∀ t, t ≠ s → (mu.groupStaDel s).info t = mu.info t := by
  have hmem : ∀ g, g ∈ groupsOf (mu.info s).map ↔ some s ∈ (mu.groups g).users := by
    intro g
    rw [mem_groupsOf, h.mem_iff]
    constructor
    · exact fun ⟨hid, hm⟩ => ⟨ne_zero_of_mem hid, hm⟩
    · exact fun ⟨hg0, hm⟩ => ⟨(h.size_pos hg0 hm).2, hm⟩
  have hnodup : (groupsOf (mu.info s).map).Nodup := by
    unfold groupsOf
    exact (List.nodup_reverse.mpr (List.nodup_range' 1)).filter _
  have hleave := leaveGroups_groups (s := s) (groupsOf (mu.info s).map) hnodup mu
    fun g hg => ⟨(hmem g).mp hg, hcnt g (mem_groupsOf.mp hg).2⟩
  have hgroups : ∀ g, (mu.groupStaDel s).groups g = if some s ∈ (mu.groups g).users then
      ⟨(mu.groups g).userCnt-1, (mu.groups g).users.replace (some s) none⟩ else mu.groups g := by
    intro g
    unfold Mu.groupStaDel Mu.setInfo
    dsimp only
    rw [hleave]
    simp only [hmem]
  have hlists : (mu.groupStaDel s).known = mu.known.erase s ∧
      (mu.groupStaDel s).activeGroups = mu.activeGroups ∧
      (mu.groupStaDel s).activeSta = mu.activeSta.erase s ∧
      (mu.groupStaDel s).groupCnt = mu.groupCnt ∧ (mu.groupStaDel s).corrupt = mu.corrupt := by
    unfold Mu.groupStaDel Mu.setInfo
    dsimp only
    rw [hleave]
    exact ⟨rfl, rfl, rfl, rfl, rfl⟩
  obtain ⟨hknown, hag, hact, hgc, hcorrupt⟩ := hlists
  have hinfo : ∀ t, t ≠ s → (mu.groupStaDel s).info t = mu.info t := by
    intro t ht
    unfold Mu.groupStaDel Mu.setInfo
    dsimp only
    rw [hleave]
    simp [ht]
  have hself : ((mu.groupStaDel s).info s).map = ∅ ∧ ((mu.groupStaDel s).info s).cnt = 0 := by
    simp [Mu.groupStaDel, Mu.setInfo]
  -- the groups it leaves have two users or more without it
  have hsize : ∀ g, some s ∈ (mu.groups g).users → 3 ≤ (mu.groups g).size ∧
      (⟨(mu.groups g).userCnt-1, (mu.groups g).users.replace (some s) none⟩ : Group).size+1 =
        (mu.groups g).size := by
    intro g hs
    obtain ⟨hg0, hm⟩ := h.mem_iff.mp hs
    have hne := hcnt g hm
    have hcount := h.userCnt g
    have hone := h.notOne g
    have hpos := (h.size_pos hg0 hm).1
    exact ⟨by omega, size_replace _ s hs⟩
  have hinUse : inUse (mu.groupStaDel s) = inUse mu := by
    ext g
    simp only [inUse, Finset.mem_filter, hgroups]
    by_cases hs : some s ∈ (mu.groups g).users
    · obtain ⟨h3, hrep⟩ := hsize g hs
      rw [if_pos hs]
      have hboth : (⟨(mu.groups g).userCnt-1,
          (mu.groups g).users.replace (some s) none⟩ : Group).size ≠ 0 ↔
          (mu.groups g).size ≠ 0 := by omega
      rw [hboth]
    · rw [if_neg hs]
  have hcount : ∀ g t, ((mu.groupStaDel s).groups g).users.count (some t) =
      if t = s then 0 else (mu.groups g).users.count (some t) := by
    intro g t
    rw [hgroups]
    by_cases hs : some s ∈ (mu.groups g).users
    · rw [if_pos hs]
      dsimp only
      rw [count_replace _ _ _ hs]
      by_cases ht : t = s
      · have hle : (mu.groups g).users.count (some t) ≤ 1 := by
          rw [h.users]
          split_ifs <;> omega
        rw [if_pos ht, if_pos ht]
        omega
      · rw [if_neg ht, if_neg ht, Nat.sub_zero]
    · rw [if_neg hs]
      by_cases ht : t = s
      · rw [if_pos ht, ht]
        exact List.count_eq_zero_of_not_mem hs
      · rw [if_neg ht]
  refine ⟨⟨?_, ?_, ?_, ?_, ?_, ?_, ?_, ?_, ?_, ?_, ?_, hcorrupt.trans h.sound⟩, hknown, hinfo⟩
  · intro g
    rw [hgroups]
    split_ifs
    · rw [List.length_replace, h.room]
    · exact h.room g
  · intro g
    rw [hgroups]
    split_ifs with hs
    · have hrep := (hsize g hs).2
      have hcount := h.userCnt g
      dsimp only
      omega
    · exact h.userCnt g
  · intro g
    rw [hgroups]
    split_ifs with hs
    · obtain ⟨h3, hrep⟩ := hsize g hs
      omega
    · exact h.notOne g
  · intro g hout
    rw [hgroups, if_neg]
    · exact h.outside g hout
    · intro hs
      have := (hsize g hs).1
      have := h.outside g hout
      omega
  · rw [hgc, hinUse, h.groupCnt]
  · intro g t
    rw [hcount]
    by_cases ht : t = s
    · rw [if_pos ht, ht, hself.1]
      simp
    · rw [if_neg ht, hinfo t ht, h.users]
  · intro t
    by_cases ht : t = s
    · subst ht
      rw [hself.1, hself.2]
      rfl
    · rw [hinfo t ht, h.cnt]
  · intro g t ht
    have hpos := List.count_pos_iff.mpr ht
    rw [hcount] at hpos
    by_cases hts : t = s
    · rw [if_pos hts] at hpos
      omega
    · rw [if_neg hts] at hpos
      rw [hknown]
      exact Finset.mem_erase.mpr ⟨hts, h.alive g t (List.count_pos_iff.mp hpos)⟩
  · rw [hag]
    exact h.listed
  · rw [hact]
    exact h.activeNodup.erase s
  · intro t ht
    rw [hact, h.activeNodup.mem_erase_iff] at ht
    rw [hknown, hinfo t ht.1]
    exact ⟨Finset.mem_erase.mpr ⟨ht.1, (h.active t ht.2).1⟩, (h.active t ht.2).2⟩

/-! ## Each step -/

structure Inv (cfg : Config) (mu : Mu) : Prop where
  grouped : Grouped cfg mu
  selected : ∀ s ∈ mu.known, Selected mu s

theorem Inv.consistent (h : Inv cfg mu) : Consistent mu := by
  have hg := h.grouped
  refine ⟨?_, hg.groupCnt, ?_, ?_, h.selected, fun g _ => hg.alive g⟩
  · intro g _
    have hcnt := hg.userCnt g
    have hone := hg.notOne g
    omega
  · intro g hid s _
    rw [hg.users]
    simp [ne_zero_of_mem hid]
  · intro s _
    have hset : (mu.info s).map.erase 0 = (mu.info s).map ∩ groupIds := by
      ext g
      rw [Finset.mem_erase, Finset.mem_inter]
      constructor
      · exact fun ⟨hg0, hm⟩ => ⟨hm, (hg.size_pos hg0 hm).2⟩
      · exact fun ⟨hm, hid⟩ => ⟨ne_zero_of_mem hid, hm⟩
    rw [hg.cnt, hset]

theorem Inv.initSta (h : Inv cfg mu) {s : StaId} (b : Bool) (ha : s ∉ mu.activeSta)
    (hu : s ∉ mu.updateSta) (hm : (mu.info s).map ⊆ {RWNX_SU_GROUP}) :
    Inv cfg (mu.groupStaInit s b) := by
  have hold : (mu.info s).map.erase 0 = ∅ := by
    rw [Finset.erase_eq_empty_iff]
    exact Finset.subset_singleton_iff.mp hm
  have hnew : (if b then (∅ : Finset ℕ) else {RWNX_SU_GROUP}).erase 0 = ∅ := by
    cases b <;> rfl
  have hcnt := h.grouped.cnt s
  rw [hold] at hcnt
  have hother : ∀ t, t ≠ s → (mu.groupStaInit s b).info t = mu.info t := by
    intro t ht
    simp [Mu.groupStaInit, Mu.setInfo, ht]
  constructor
  · refine h.grouped.retouch rfl rfl ?_ (Finset.subset_insert s mu.known) h.grouped.listed
      h.grouped.activeNodup ?_ ?_
    · intro t
      by_cases ht : t = s
      · subst ht
        simp only [Mu.groupStaInit, Mu.setInfo, Function.update_self, hnew, hold, hcnt]
        simp
      · rw [hother t ht]
        exact ⟨rfl, rfl⟩
    · intro t ht
      have hne : t ≠ s := by
        rintro rfl
        exact ha ht
      rw [hother t hne]
      exact ⟨Finset.mem_insert_of_mem (h.grouped.active t ht).1, (h.grouped.active t ht).2⟩
    · simp [Mu.groupStaInit, ha, hu, h.grouped.sound]
  · intro t ht
    by_cases hts : t = s
    · left
      simp [Mu.groupStaInit, Mu.setInfo, hts]
    · rw [Selected, hother t hts]
      exact h.selected t ((Finset.mem_insert.mp ht).resolve_left hts)

/-- Counting traffic. -/
theorem Inv.traffic (h : Inv cfg mu) (s : StaId) (t : ℤ) :
    Inv cfg (mu.setInfo s { mu.info s with traffic := t }) := by
  have hr : Reselect mu (mu.setInfo s { mu.info s with traffic := t }) :=
    reselect_setInfo mu s t (mu.info s).group
  refine ⟨h.grouped.reselect hr h.grouped.sound, ?_⟩
  intro u hu
  have hold := h.selected u hu
  by_cases hus : u = s
  · subst hus
    simpa [Selected, Mu.setInfo] using hold
  · simpa [Selected, Mu.setInfo, hus] using hold

theorem Inv.setActiveSta (h : Inv cfg mu) {s : StaId} (hk : s ∈ mu.known) (traffic : ℕ) :
    Inv cfg (mu.setActiveSta s traffic) := by
  have ht := h.traffic s ((mu.info s).traffic+traffic)
  unfold Mu.setActiveSta
  dsimp only
  split_ifs with hsu hmove
  · exact h
  · refine ⟨?_, ht.selected⟩
    refine ht.grouped.retouch rfl rfl (fun _ => ⟨rfl, rfl⟩) (Finset.Subset.refl _)
      ht.grouped.listed ?_ ?_ ht.grouped.sound
    · exact List.nodup_cons.mpr ⟨h.grouped.activeNodup.not_mem_erase, h.grouped.activeNodup.erase s⟩
    · intro t hmem
      rcases mem_moveHead.mp hmem with rfl | hmem
      · exact ⟨hk, by simpa [Mu.setInfo] using hsu⟩
      · exact ht.grouped.active t hmem
  · exact ht

theorem Inv.select (h : Inv cfg mu) {due : Bool} {vifs : List (List StaId)}
    (hfew : vifs.length*mu.groupCnt ≤ NX_MU_GROUP_MAX+1) :
    Inv cfg (mu.groupStaSelect due vifs) := by
  unfold Mu.groupStaSelect
  split_ifs
  · exact h
  · obtain ⟨hr, hc, hsel⟩ := h.grouped.selectVifs vifs [] (by simpa using hfew)
    refine ⟨h.grouped.reselect hr hc, ?_⟩
    intro s hs
    rw [hr.known] at hs
    exact hsel s (Or.inr (h.selected s hs))

/-- Without a group in use no station has selected one. -/
theorem Inv.unselected (h : Inv cfg mu) (hz : mu.groupCnt = 0) {s : StaId} (hs : s ∈ mu.known) :
    (mu.info s).group = 0 := by
  rcases h.selected s hs with h0 | hm
  · exact h0
  · by_contra hne
    have hpos := h.grouped.size_pos hne hm
    have hmem := (mem_inUse hpos.2).mpr hpos.1
    rw [h.grouped.groupCnt, Finset.card_eq_zero] at hz
    rw [hz] at hmem
    exact Finset.notMem_empty _ hmem

theorem Inv.work (h : Inv cfg mu) {vifs : List (List StaId)} (hone : vifs.length ≤ 1)
    (hserved : ∀ s ∈ mu.known, (mu.info s).group ≠ 0 → s ∈ vifs.flatten) :
    Inv cfg (mu.groupWorkFn cfg vifs) := by
  unfold Mu.groupWorkFn
  dsimp only
  generalize (if (mu.updateCount+1) % 65536 = 0 then 1 else (mu.updateCount+1) % 65536) = count
  have hstart : ∀ n, Grouped cfg { mu with groupWork := false, updateCount := n } := fun n =>
    h.grouped.retouch rfl rfl (fun _ => ⟨rfl, rfl⟩) (Finset.Subset.refl _) h.grouped.listed
      h.grouped.activeNodup h.grouped.active h.grouped.sound
  split_ifs
  · exact ⟨hstart mu.updateCount, h.selected⟩
  obtain ⟨hloop, hkept⟩ := (hstart count).workLoop mu.activeSta NX_MU_GROUP_MAX (fun _ ht => ht)
    h.grouped.activeNodup
  generalize Mu.workLoop cfg mu.activeSta ({ mu with groupWork := false, updateCount := count },
    (NX_MU_GROUP_MAX : ℤ)) = r at hloop hkept ⊢
  have hsent : Grouped cfg { r.1 with updateSta := [] } :=
    hloop.retouch rfl rfl (fun _ => ⟨rfl, rfl⟩) (Finset.Subset.refl _) hloop.listed
      hloop.activeNodup hloop.active hloop.sound
  have hchosen : ∀ s ∈ r.1.known, (r.1.info s).group = 0 ∨ s ∈ vifs.flatten := by
    intro s hs
    rw [hkept.known] at hs
    rw [hkept.group]
    by_cases h0 : (mu.info s).group = 0
    · exact Or.inl h0
    · exact Or.inr (hserved s hs h0)
  unfold Mu.groupStaSelect
  by_cases hz : r.1.groupCnt = 0
  · rw [if_pos (Or.inl hz)]
    refine ⟨hsent, ?_⟩
    intro s hs
    left
    have hz0 : mu.groupCnt = 0 := by
      rcases hkept.inUse with hne | heq
      · exact absurd hz hne
      · rwa [heq] at hz
    have hs' : s ∈ mu.known := by
      rw [← show r.1.known = mu.known from hkept.known]
      exact hs
    exact (hkept.group s).trans (h.unselected hz0 hs')
  · rw [if_neg (by simpa using hz)]
    have hle := inUse_le r.1
    rw [← hloop.groupCnt] at hle
    have hfew : ([] : List ℕ).length+vifs.length*r.1.groupCnt ≤ NX_MU_GROUP_MAX+1 := by
      have hmul := Nat.mul_le_mul hone hle
      simp only [List.length_nil, Nat.zero_add]
      omega
    obtain ⟨hr, hc, hsel⟩ := hsent.selectVifs vifs [] hfew
    refine ⟨hsent.reselect hr hc, ?_⟩
    intro s hs
    rw [hr.known] at hs
    rcases hchosen s hs with h0 | hv
    · exact hsel s (Or.inr (Or.inl h0))
    · exact hsel s (Or.inl hv)

theorem init_inv (cfg : Config) : Inv cfg (init cfg) := by
  have hempty : ∀ g, ((init cfg).groups g).size = 0 := by
    intro g
    simp [init, Group.size]
  refine ⟨⟨?_, ?_, ?_, ?_, ?_, ?_, ?_, ?_, ?_, ?_, ?_, rfl⟩, ?_⟩
  · intro g
    simp [init]
  · intro g
    rw [hempty]
    rfl
  · intro g
    rw [hempty]
    decide
  · intro g _
    exact hempty g
  · simp [inUse, hempty]
    rfl
  · intro g s
    simp [init, List.count_replicate]
  · intro s
    rfl
  · intro g s hs
    simp [init] at hs
  · intro g hg
    have hmem : g ∈ List.range' 1 NX_MU_GROUP_MAX := List.mem_reverse.mp hg
    rw [List.mem_range'_1] at hmem
    rw [groupIds, Finset.mem_Icc]
    omega
  · exact List.nodup_nil
  · intro s hs
    cases hs
  · intro s hs
    cases hs

end Grouped

/-! ## Runs -/

/-- A station is initialised while it is in no list and no group, is marked active only before it
is deleted, and is deleted from no group of two. Where groups are selected they fit the array that
orders them, and where they are created as well, whoever has one selected is on the one AP
interface. -/
def Orderly (mu : Mu) : Act → Prop
  | .init s _ => s ∉ mu.activeSta ∧ s ∉ mu.updateSta ∧ (mu.info s).map ⊆ {RWNX_SU_GROUP}
  | .del s => ∀ g ∈ (mu.info s).map, (mu.groups g).userCnt ≠ 2
  | .setActiveSta s _ => s ∈ mu.known
  | .setActiveGroup _ => True
  | .select _ vifs => vifs.length*mu.groupCnt ≤ NX_MU_GROUP_MAX+1
  | .work vifs => vifs.length ≤ 1 ∧
    ∀ s ∈ mu.known, (mu.info s).group ≠ 0 → s ∈ vifs.flatten

instance (mu : Mu) (a : Act) : Decidable (Orderly mu a) := by
  cases a <;> unfold Orderly <;> infer_instance

theorem step_inv {cfg : Config} (mu : Mu) (a : Act) (mu' : Mu) (ho : Orderly mu a)
    (hs : step cfg mu a = some mu') (h : Inv cfg mu) : Inv cfg mu' := by
  cases a with
  | init s b =>
    obtain rfl := Option.some.inj hs
    exact h.initSta b ho.1 ho.2.1 ho.2.2
  | del s =>
    obtain rfl := Option.some.inj hs
    obtain ⟨hg, hknown, hinfo⟩ := h.grouped.del ho
    refine ⟨hg, ?_⟩
    intro t ht
    rw [hknown, Finset.mem_erase] at ht
    rw [Selected, hinfo t ht.1]
    exact h.selected t ht.2
  | setActiveSta s traffic =>
    obtain rfl := Option.some.inj hs
    exact h.setActiveSta ho traffic
  | setActiveGroup g =>
    rw [step] at hs
    split_ifs at hs with hg
    obtain rfl := Option.some.inj hs
    rw [List.mem_range'_1] at hg
    have hid : g ∈ groupIds := by
      rw [groupIds, Finset.mem_Icc]
      omega
    exact ⟨h.grouped.setActiveGroup hid, h.selected⟩
  | select due vifs =>
    obtain rfl := Option.some.inj hs
    exact h.select ho
  | work vifs =>
    rw [step] at hs
    split_ifs at hs
    obtain rfl := Option.some.inj hs
    exact h.work ho.1 ho.2

/-- Along every run whose steps are orderly, groups and maps agree. -/
theorem run_groups_agree (cfg : Config) (acts : List Act)
    (h : Meets (step cfg) Orderly (init cfg) acts) :
    Throughout (step cfg) Consistent (init cfg) acts :=
  throughout_of_meets step_inv (fun _ => Inv.consistent) (init_inv cfg) h

/-- Three stations share a group, and one of them leaves. -/
def threeShare : List Act :=
  [.init 1 true, .init 2 true, .init 3 true, .setActiveSta 1 60, .setActiveSta 2 60,
    .setActiveSta 3 60, .work [[1, 2, 3]], .del 2]

theorem threeShare_consistent :
    Throughout (step ⟨3, true, by decide⟩) Consistent (init ⟨3, true, by decide⟩) threeShare :=
  run_groups_agree ⟨3, true, by decide⟩ threeShare (by decide +kernel)

/-- Two stations share a group, and one of them leaves: the group refers to the other, even after
that one is gone. -/
theorem dangling_user : ∃ mu, exec (step ⟨2, true, by decide⟩) (init ⟨2, true, by decide⟩)
    [.init 1 true, .init 2 true, .setActiveSta 1 60, .setActiveSta 2 60, .work [[1, 2]], .del 1,
      .del 2] = some mu ∧ (∃ g ∈ groupIds, some 2 ∈ (mu.groups g).users ∧ 2 ∉ mu.known) ∧
      ¬ Consistent mu := by
  have hrun : ∃ mu ∈ exec (step ⟨2, true, by decide⟩) (init ⟨2, true, by decide⟩)
      [.init 1 true, .init 2 true, .setActiveSta 1 60, .setActiveSta 2 60, .work [[1, 2]], .del 1,
        .del 2], some 2 ∈ (mu.groups 1).users ∧ 2 ∉ mu.known := by decide +kernel
  obtain ⟨mu, hmu, hin, hout⟩ := hrun
  refine ⟨mu, hmu, ⟨1, by decide, hin, hout⟩, ?_⟩
  intro h
  exact hout (h.alive 1 (by decide) 2 hin)

end AIC.MuGroup
