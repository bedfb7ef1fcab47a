import Aic8800.Lib.GuardedRun
import Aic8800.Lib.KeyedList
import Mathlib.Logic.Function.Basic

/-!
# The mesh tables

`rwnx_rx_mesh_path_update_ind` and `rwnx_rx_mesh_proxy_update_ind` with the lists of
a mesh point, beside the maps that the indications describe. Memory can be had.
-/

set_option autoImplicit false

namespace AIC.MeshTables
open Lib.GuardedRun Lib.KeyedList

def NX_VIRT_DEV_MAX : ℕ := 4
def NX_REMOTE_STA_MAX : ℕ := 32

abbrev MacAddr := BitVec 48

/-- `pNhopSta` is the index in `sta_table`. -/
structure MeshPath where
  pathIdx : UInt8
  tgtMacAddr : MacAddr
  pNhopSta : UInt8
  deriving DecidableEq

/-- The proxy address of a local entry is not written. -/
structure MeshProxy where
  extStaAddr : MacAddr
  proxyAddr : Option MacAddr
  isLocal : Bool
  deriving DecidableEq

structure Vif where
  meshPoint : Bool
  mpathList : List MeshPath
  proxyList : List MeshProxy

abbrev VifTable := UInt8 → Option Vif

structure MeshPathUpdateInd where
  delete : Bool
  vifIdx : UInt8
  pathIdx : UInt8
  tgtMacAddr : MacAddr
  nhopStaIdx : UInt8

structure MeshProxyUpdateInd where
  delete : Bool
  isLocal : Bool
  vifIdx : UInt8
  extStaAddr : MacAddr
  proxyMacAddr : MacAddr

/-! ## The handlers -/

/-- The list of `rwnx_rx_mesh_path_update_ind`. -/
def MeshPathUpdateInd.update (ind : MeshPathUpdateInd) (l : List MeshPath) : List MeshPath :=
  if ind.delete then remove MeshPath.pathIdx ind.pathIdx l
  else if (find MeshPath.pathIdx ind.pathIdx l).isSome then
    alter MeshPath.pathIdx ind.pathIdx (fun p => { p with pNhopSta := ind.nhopStaIdx }) l
  else l++[⟨ind.pathIdx, ind.tgtMacAddr, ind.nhopStaIdx⟩]

/-- The list of `rwnx_rx_mesh_proxy_update_ind`. -/
def MeshProxyUpdateInd.update (ind : MeshProxyUpdateInd) (l : List MeshProxy) : List MeshProxy :=
  if ind.delete && (find MeshProxy.extStaAddr ind.extStaAddr l).isSome then
    remove MeshProxy.extStaAddr ind.extStaAddr l
  else if !ind.delete && (find MeshProxy.extStaAddr ind.extStaAddr l).isNone then
    l++[⟨ind.extStaAddr, if ind.isLocal then none else some ind.proxyMacAddr, ind.isLocal⟩]
  else l

/-- The checks of both handlers: the index is in the table, and the vif a mesh point. -/
def onMeshPoint (table : VifTable) (vifIdx : UInt8) (f : Vif → Vif) : VifTable :=
  if NX_VIRT_DEV_MAX+NX_REMOTE_STA_MAX ≤ vifIdx.toNat then table
  else Function.update table vifIdx
    ((table vifIdx).map fun vif => if vif.meshPoint then f vif else vif)

def meshPathUpdateInd (table : VifTable) (ind : MeshPathUpdateInd) : VifTable :=
  onMeshPoint table ind.vifIdx fun vif => { vif with mpathList := ind.update vif.mpathList }

def meshProxyUpdateInd (table : VifTable) (ind : MeshProxyUpdateInd) : VifTable :=
  onMeshPoint table ind.vifIdx fun vif => { vif with proxyList := ind.update vif.proxyList }

/-! ## What the indications describe -/

/-- The target and the next hop. -/
abbrev PathMap := UInt8 → Option (MacAddr × UInt8)

/-- The local flag and, of what is not local, the proxy. -/
abbrev ProxyMap := MacAddr → Option (Bool × Option MacAddr)

def MeshPath.value (p : MeshPath) : MacAddr × UInt8 := (p.tgtMacAddr, p.pNhopSta)

def MeshProxy.value (p : MeshProxy) : Bool × Option MacAddr :=
  (p.isLocal, if p.isLocal then none else p.proxyAddr)

def MeshPathUpdateInd.value (ind : MeshPathUpdateInd) : MacAddr × UInt8 :=
  (ind.tgtMacAddr, ind.nhopStaIdx)

def MeshProxyUpdateInd.value (ind : MeshProxyUpdateInd) : Bool × Option MacAddr :=
  (ind.isLocal, if ind.isLocal then none else some ind.proxyMacAddr)

def pathMap (l : List MeshPath) : PathMap :=
  fun k => (find MeshPath.pathIdx k l).map MeshPath.value

def proxyMap (l : List MeshProxy) : ProxyMap :=
  fun k => (find MeshProxy.extStaAddr k l).map MeshProxy.value

/-- A delete takes the key out, every other indication gives it a value. -/
def MeshPathUpdateInd.describe (ind : MeshPathUpdateInd) (m : PathMap) : PathMap :=
  Function.update m ind.pathIdx (if ind.delete then none else some ind.value)

def MeshProxyUpdateInd.describe (ind : MeshProxyUpdateInd) (m : ProxyMap) : ProxyMap :=
  Function.update m ind.extStaAddr (if ind.delete then none else some ind.value)

inductive Ind where
  | path (ind : MeshPathUpdateInd)
  | proxy (ind : MeshProxyUpdateInd)

structure Tables where
  vifTable : VifTable
  paths : UInt8 → PathMap
  proxies : UInt8 → ProxyMap

def step (s : Tables) : Ind → Option Tables
  | .path ind => some
    { s with
      vifTable := meshPathUpdateInd s.vifTable ind
      paths := Function.update s.paths ind.vifIdx (ind.describe (s.paths ind.vifIdx)) }
  | .proxy ind => some
    { s with
      vifTable := meshProxyUpdateInd s.vifTable ind
      proxies := Function.update s.proxies ind.vifIdx (ind.describe (s.proxies ind.vifIdx)) }

/-- `kind` says which vifs there are, and which of them are mesh points. -/
def start (kind : UInt8 → Option Bool) : Tables where
  vifTable := fun v => (kind v).map fun meshPoint => ⟨meshPoint, [], []⟩
  paths := fun _ _ => none
  proxies := fun _ _ => none

/-- The vif of an indication, when it is handled. -/
def handled (table : VifTable) (vifIdx : UInt8) : Option Vif :=
  if NX_VIRT_DEV_MAX+NX_REMOTE_STA_MAX ≤ vifIdx.toNat then none
  else (table vifIdx).filter Vif.meshPoint

/-! ## One list -/

/-- The records of a list have different keys, and the list is the map. -/
structure PathsAre (l : List MeshPath) (m : PathMap) : Prop where
  once : (l.map MeshPath.pathIdx).Nodup
  same : pathMap l = m

structure ProxiesAre (l : List MeshProxy) (m : ProxyMap) : Prop where
  once : (l.map MeshProxy.extStaAddr).Nodup
  same : proxyMap l = m

/-- A path that is updated keeps its target. -/
def MeshPathUpdateInd.Repeats (ind : MeshPathUpdateInd) (l : List MeshPath) : Prop :=
  ind.delete = false → ∀ p ∈ find MeshPath.pathIdx ind.pathIdx l, p.tgtMacAddr = ind.tgtMacAddr

/-- A proxy that is updated keeps all it has. -/
def MeshProxyUpdateInd.Repeats (ind : MeshProxyUpdateInd) (l : List MeshProxy) : Prop :=
  ind.delete = false → ∀ p ∈ find MeshProxy.extStaAddr ind.extStaAddr l, p.value = ind.value

theorem path_once (ind : MeshPathUpdateInd) {l : List MeshPath}
    (h : (l.map MeshPath.pathIdx).Nodup) : ((ind.update l).map MeshPath.pathIdx).Nodup := by
  unfold MeshPathUpdateInd.update
  split_ifs with hdel hfound
  · exact nodup_remove h
  · rw [map_alter (f := fun p : MeshPath => { p with pNhopSta := ind.nhopStaIdx }) fun _ => rfl]
    exact h
  · exact nodup_add h (Option.not_isSome_iff_eq_none.mp hfound)

theorem path_map (ind : MeshPathUpdateInd) {l : List MeshPath}
    (h : (l.map MeshPath.pathIdx).Nodup) : pathMap (ind.update l) =
      Function.update (pathMap l) ind.pathIdx (if ind.delete then none else some
        ((find MeshPath.pathIdx ind.pathIdx l).elim ind.tgtMacAddr MeshPath.tgtMacAddr,
          ind.nhopStaIdx)) := by
  funext k
  unfold MeshPathUpdateInd.update
  cases hfound : find MeshPath.pathIdx ind.pathIdx l with
  | none =>
    by_cases hdel : ind.delete = true <;> by_cases hk : k = ind.pathIdx
    · subst hk
      simp [pathMap, hdel, find_remove h]
    · simp [pathMap, hdel, find_remove h, hk]
    · subst hk
      have hadd := find_add (j := ind.pathIdx)
        (e := MeshPath.mk ind.pathIdx ind.tgtMacAddr ind.nhopStaIdx) hfound
      simp [pathMap, hdel, hadd, MeshPath.value]
    · have hadd := find_add (j := k)
        (e := MeshPath.mk ind.pathIdx ind.tgtMacAddr ind.nhopStaIdx) hfound
      simp [pathMap, hdel, hadd, hk]
  | some p =>
    by_cases hdel : ind.delete = true <;> by_cases hk : k = ind.pathIdx
    · subst hk
      simp [pathMap, hdel, find_remove h]
    · simp [pathMap, hdel, find_remove h, hk]
    · subst hk
      simp [pathMap, hdel, find_alter, hfound, MeshPath.value]
    · simp [pathMap, hdel, find_alter, hk]

theorem proxy_once (ind : MeshProxyUpdateInd) {l : List MeshProxy}
    (h : (l.map MeshProxy.extStaAddr).Nodup) :
    ((ind.update l).map MeshProxy.extStaAddr).Nodup := by
  unfold MeshProxyUpdateInd.update
  split_ifs with hdel hnew
  · exact nodup_remove h
  · exact nodup_add h (Option.isNone_iff_eq_none.mp (Bool.and_eq_true_iff.mp hnew).2)
  · exact nodup_add h (Option.isNone_iff_eq_none.mp (Bool.and_eq_true_iff.mp hnew).2)
  · exact h

/-- What the indication gives the key: an entry that is there stays as it is. -/
theorem proxy_map (ind : MeshProxyUpdateInd) {l : List MeshProxy}
    (h : (l.map MeshProxy.extStaAddr).Nodup) : proxyMap (ind.update l) =
      Function.update (proxyMap l) ind.extStaAddr (if ind.delete then none else some
        ((find MeshProxy.extStaAddr ind.extStaAddr l).elim ind.value MeshProxy.value)) := by
  funext k
  unfold MeshProxyUpdateInd.update
  cases hfound : find MeshProxy.extStaAddr ind.extStaAddr l with
  | none =>
    have hadd := find_add (j := k) (e := MeshProxy.mk ind.extStaAddr
      (if ind.isLocal then none else some ind.proxyMacAddr) ind.isLocal) hfound
    by_cases hdel : ind.delete = true <;> by_cases hk : k = ind.extStaAddr
    · subst hk
      simp [proxyMap, hdel, hfound]
    · simp [proxyMap, hdel, hk]
    · subst hk
      simp only [if_true] at hadd
      simp [proxyMap, hdel, hadd, MeshProxy.value, MeshProxyUpdateInd.value]
    · simp [proxyMap, hdel, hadd, hk]
  | some p =>
    by_cases hdel : ind.delete = true <;> by_cases hk : k = ind.extStaAddr
    · subst hk
      simp [proxyMap, hdel, find_remove h]
    · simp [proxyMap, hdel, find_remove h, hk]
    · subst hk
      simp [proxyMap, hdel, hfound]
    · simp [proxyMap, hdel, hk]

/-! ## One indication -/

theorem pathsAre_update_iff {l : List MeshPath} {m : PathMap} (h : PathsAre l m)
    (ind : MeshPathUpdateInd) : PathsAre (ind.update l) (ind.describe m) ↔ ind.Repeats l := by
  have hsame : PathsAre (ind.update l) (ind.describe m) ↔
      pathMap (ind.update l) = ind.describe m :=
    ⟨PathsAre.same, fun hs => ⟨path_once ind h.once, hs⟩⟩
  rw [hsame, path_map ind h.once, h.same, MeshPathUpdateInd.describe,
    (Function.update_injective m ind.pathIdx).eq_iff]
  cases hdel : ind.delete with
  | true => simp [MeshPathUpdateInd.Repeats, hdel]
  | false =>
    cases hfound : find MeshPath.pathIdx ind.pathIdx l <;>
      simp [MeshPathUpdateInd.Repeats, MeshPathUpdateInd.value, hdel, hfound]

theorem proxiesAre_update_iff {l : List MeshProxy} {m : ProxyMap} (h : ProxiesAre l m)
    (ind : MeshProxyUpdateInd) : ProxiesAre (ind.update l) (ind.describe m) ↔ ind.Repeats l := by
  have hsame : ProxiesAre (ind.update l) (ind.describe m) ↔
      proxyMap (ind.update l) = ind.describe m :=
    ⟨ProxiesAre.same, fun hs => ⟨proxy_once ind h.once, hs⟩⟩
  rw [hsame, proxy_map ind h.once, h.same, MeshProxyUpdateInd.describe,
    (Function.update_injective m ind.extStaAddr).eq_iff]
  cases hdel : ind.delete with
  | true => simp [MeshProxyUpdateInd.Repeats, hdel]
  | false =>
    cases hfound : find MeshProxy.extStaAddr ind.extStaAddr l <;>
      simp [MeshProxyUpdateInd.Repeats, hdel, hfound]

theorem handled_onMeshPoint (table : VifTable) (v w : UInt8) {f : Vif → Vif}
    (hf : ∀ vif, (f vif).meshPoint = vif.meshPoint) :
    handled (onMeshPoint table v f) w =
      if w = v then (handled table v).map f else handled table w := by
  unfold handled onMeshPoint
  by_cases hw : w = v
  · subst hw
    rw [if_pos rfl]
    split_ifs with hout
    · rfl
    · rw [Function.update_self]
      cases table w with
      | none => rfl
      | some vif =>
        cases hmesh : vif.meshPoint <;> simp [Option.filter, hmesh, hf]
  · rw [if_neg hw]
    split_ifs
    · rfl
    · rfl
    · rw [Function.update_of_ne hw]

/-! ## Runs -/

/-- The lists of every mesh point are what the indications describe. -/
def Mirrored (s : Tables) : Prop :=
  ∀ v, ∀ vif ∈ handled s.vifTable v,
    PathsAre vif.mpathList (s.paths v) ∧ ProxiesAre vif.proxyList (s.proxies v)

/-- An indication for a key that is there gives it the target, or the local flag and the proxy,
that it has. -/
def Repeats (s : Tables) : Ind → Prop
  | .path ind => ∀ vif ∈ handled s.vifTable ind.vifIdx, ind.Repeats vif.mpathList
  | .proxy ind => ∀ vif ∈ handled s.vifTable ind.vifIdx, ind.Repeats vif.proxyList

/-- What holds of every other mesh point holds of all exactly if it holds of the changed one. -/
theorem onMeshPoint_forall_iff {table : VifTable} {v : UInt8} {f : Vif → Vif}
    (hf : ∀ vif, (f vif).meshPoint = vif.meshPoint) {P : UInt8 → Vif → Prop}
    (hothers : ∀ w, w ≠ v → ∀ vif ∈ handled table w, P w vif) :
    (∀ w, ∀ vif ∈ handled (onMeshPoint table v f) w, P w vif) ↔
      ∀ vif ∈ handled table v, P v (f vif) := by
  constructor
  · intro hall vif hmem
    apply hall v
    rw [handled_onMeshPoint table v v hf, if_pos rfl, Option.mem_def.mp hmem]
    rfl
  · intro hchanged w vif hmem
    rw [handled_onMeshPoint table v w hf] at hmem
    by_cases hw : w = v
    · subst hw
      rw [if_pos rfl, Option.mem_def, Option.map_eq_some_iff] at hmem
      obtain ⟨old, hold, rfl⟩ := hmem
      exact hchanged old hold
    · rw [if_neg hw] at hmem
      exact hothers w hw vif hmem

theorem path_mirrored_iff {s : Tables} (h : Mirrored s) (ind : MeshPathUpdateInd) :
    (∀ t ∈ step s (.path ind), Mirrored t) ↔ Repeats s (.path ind) := by
  simp only [step, Option.mem_some_iff, forall_eq', Mirrored, meshPathUpdateInd]
  refine (onMeshPoint_forall_iff ?_ ?_).trans (forall₂_congr fun vif hmem => ?_)
  · exact fun _ => rfl
  · intro v hv vif hmem
    rw [Function.update_of_ne hv]
    exact h v vif hmem
  · obtain ⟨hpaths, hproxies⟩ := h _ vif hmem
    rw [Function.update_self]
    exact (and_iff_left hproxies).trans (pathsAre_update_iff hpaths ind)

theorem proxy_mirrored_iff {s : Tables} (h : Mirrored s) (ind : MeshProxyUpdateInd) :
    (∀ t ∈ step s (.proxy ind), Mirrored t) ↔ Repeats s (.proxy ind) := by
  simp only [step, Option.mem_some_iff, forall_eq', Mirrored, meshProxyUpdateInd]
  refine (onMeshPoint_forall_iff ?_ ?_).trans (forall₂_congr fun vif hmem => ?_)
  · exact fun _ => rfl
  · intro v hv vif hmem
    rw [Function.update_of_ne hv]
    exact h v vif hmem
  · obtain ⟨hpaths, hproxies⟩ := h _ vif hmem
    rw [Function.update_self]
    exact (and_iff_right hpaths).trans (proxiesAre_update_iff hproxies ind)

theorem step_mirrored_iff {s : Tables} (h : Mirrored s) (i : Ind) :
    (∀ t ∈ step s i, Mirrored t) ↔ Repeats s i := by
  cases i with
  | path ind => exact path_mirrored_iff h ind
  | proxy ind => exact proxy_mirrored_iff h ind

theorem second_repeats {s t : Tables} {i j : Ind} (ht : step s i = some t)
    (h : Throughout step Mirrored s [i, j]) : Repeats t j :=
  (step_mirrored_iff (throughout_head ht h) j).mp fun _ hu =>
    throughout_head hu (throughout_tail ht h)

theorem start_mirrored (kind : UInt8 → Option Bool) : Mirrored (start kind) := by
  intro v vif hmem
  have hempty : vif.mpathList = [] ∧ vif.proxyList = [] := by
    unfold handled start at hmem
    cases hk : kind v <;> simp [hk, Option.filter] at hmem
    rw [← hmem.2.2]
    exact ⟨rfl, rfl⟩
  rw [hempty.1, hempty.2]
  exact ⟨⟨List.nodup_nil, rfl⟩, List.nodup_nil, rfl⟩

theorem tables_mirrored_iff (kind : UInt8 → Option Bool) (inds : List Ind) :
    Throughout step Mirrored (start kind) inds ↔ Meets step Repeats (start kind) inds :=
  throughout_iff (fun _ i t hp ht hs => (step_mirrored_iff hs i).mpr hp t ht) (fun _ hs => hs)
    (fun _ i hs hall => (step_mirrored_iff hs i).mp hall) (start_mirrored kind) inds

/-- A path gets a new target, and an external station a new proxy. -/
theorem stale_target_stale_proxy :
    ¬ Throughout step Mirrored (start fun _ => some true)
      [.path ⟨false, 0, 5, 0x0200000000aa, 1⟩, .path ⟨false, 0, 5, 0x0200000000bb, 1⟩] ∧
    ¬ Throughout step Mirrored (start fun _ => some true)
      [.proxy ⟨false, false, 0, 0x0200000000cc, 0x0200000000aa⟩,
        .proxy ⟨false, false, 0, 0x0200000000cc, 0x0200000000bb⟩] := by
  constructor
  · intro h
    have hrep := second_repeats rfl h _ rfl rfl ⟨5, 0x0200000000aa, 1⟩ rfl
    exact absurd hrep (by decide)
  · intro h
    have hrep := second_repeats rfl h _ rfl rfl
      ⟨0x0200000000cc, some 0x0200000000aa, false⟩ rfl
    exact absurd hrep (by decide)

end AIC.MeshTables
