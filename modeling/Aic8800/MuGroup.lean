import Mathlib.Tactic

/-!
# The MU group machine

Which stations share a group for MU-MIMO transmission: the table of groups, the
bitmap each station keeps of its groups, and the lists that order groups and
stations by use. A group is completed, recycled or left as in the source. The
stations that were initialised and not deleted since are recorded beside it,
and nothing is done by that record.
-/

set_option autoImplicit false

namespace AIC.MuGroup

abbrev StaId := ℕ

def NX_MU_GROUP_MAX : ℕ := 62

/-- Bit 0 of the map: the station is no MU beamformee. -/
def RWNX_SU_GROUP : ℕ := 0

def RWNX_MU_GROUP_MIN_TRAFFIC : ℤ := 50

structure Config where
  userMax : ℕ
  mutx : Bool
  two : 2 ≤ userMax

/-- `struct rwnx_sta_group_info` without its two list nodes. -/
structure GroupInfo where
  map : Finset ℕ
  cnt : ℤ
  traffic : ℤ
  lastUpdate : ℕ
  group : ℕ

structure Group where
  userCnt : ℤ
  users : List (Option StaId)

def Group.members (g : Group) : List StaId := g.users.reduceOption

/-- `corrupt`: a list node was overwritten while it was linked, or the array of
`rwnx_mu_group_sta_select` that orders the groups ran over. -/
structure Mu where
  activeGroups : List ℕ
  activeSta : List StaId
  updateSta : List StaId
  groups : ℕ → Group
  groupWork : Bool
  updateCount : ℕ
  groupCnt : ℕ
  info : StaId → GroupInfo
  known : Finset StaId
  corrupt : Bool

/-- The counters of 8 bits. -/
def inc8 (n : ℕ) : ℕ := (n+1) % 256
def dec8 (n : ℕ) : ℕ := (n+255) % 256

/-- The order in which `group_sta_for_each` comes to the groups of a map. -/
def groupsOf (map : Finset ℕ) : List ℕ :=
  (List.range' 1 NX_MU_GROUP_MAX).reverse.filter fun g => decide (g ∈ map)

def moveHead (l : List ℕ) (x : ℕ) : List ℕ := x::l.erase x

namespace Mu
variable (mu : Mu)

def setInfo (s : StaId) (x : GroupInfo) : Mu := { mu with info := Function.update mu.info s x }

def setGroup (g : ℕ) (x : Group) : Mu := { mu with groups := Function.update mu.groups g x }

/-! ## Stations -/

def groupStaInit (s : StaId) (beamformee : Bool) : Mu :=
  { mu.setInfo s {
      map := if beamformee then ∅ else {RWNX_SU_GROUP}
      cnt := 0
      traffic := 0
      lastUpdate := 0
      group := 0 } with
    known := insert s mu.known
    corrupt := mu.corrupt || decide (s ∈ mu.activeSta) || decide (s ∈ mu.updateSta) }

/-- A station leaves one group. The only user that is left stays in its place. -/
def leaveGroup (s : StaId) (g : ℕ) : Mu :=
  let group := mu.groups g
  if some s ∈ group.users then
    let users := group.users.replace (some s) none
    if group.userCnt-1 = 1 then
      match users.reduceOption.head? with
      | some j =>
        let info := mu.info j
        { (mu.setGroup g ⟨group.userCnt-2, users⟩).setInfo j { info with
            cnt := info.cnt-1
            map := info.map.erase g
            group := if info.group = g then 0 else info.group } with
          groupCnt := dec8 mu.groupCnt }
      | none => { mu.setGroup g ⟨group.userCnt-1, users⟩ with groupCnt := dec8 mu.groupCnt }
    else mu.setGroup g ⟨group.userCnt-1, users⟩
  else mu

def leaveGroups (s : StaId) : List ℕ → Mu → Mu
  | [], mu => mu
  | g::gs, mu => leaveGroups s gs (mu.leaveGroup s g)

def groupStaDel (s : StaId) : Mu :=
  let mu := leaveGroups s (groupsOf (mu.info s).map) mu
  { mu.setInfo s { mu.info s with map := ∅, cnt := 0, traffic := 0 } with
    activeSta := mu.activeSta.erase s
    updateSta := mu.updateSta.erase s
    known := mu.known.erase s }

def setActiveSta (s : StaId) (traffic : ℕ) : Mu :=
  let info := mu.info s
  if RWNX_SU_GROUP ∈ info.map then mu
  else
    let mu := mu.setInfo s { info with traffic := info.traffic+traffic }
    if info.lastUpdate ≠ mu.updateCount ∨ mu.activeSta ≠ [] then
      let active := moveHead mu.activeSta s
      { mu with activeSta := active, groupWork := mu.groupWork || active.length != 1 }
    else mu

def setActiveGroup (g : ℕ) : Mu := { mu with activeGroups := moveHead mu.activeGroups g }

/-! ## Users of a group -/

def dropUsers (g : ℕ) : List StaId → Mu → Mu
  | [], mu => mu
  | s::ss, mu =>
    let info := mu.info s
    dropUsers g ss { mu.setInfo s { info with cnt := info.cnt-1, map := info.map.erase g } with
      updateSta := moveHead mu.updateSta s }

def removeUsers (g : ℕ) : Mu :=
  let group := mu.groups g
  { (dropUsers g group.members mu).setGroup g ⟨0, group.users.map fun _ => none⟩ with
    groupCnt := if group.userCnt ≠ 0 then dec8 mu.groupCnt else mu.groupCnt }

/-- Each user takes the first free place behind that of the one before. -/
def fill : List (Option StaId) → List StaId → List (Option StaId)
  | [], _ => []
  | users, [] => users
  | none::users, s::ss => some s::fill users ss
  | some t::users, ss => some t::fill users ss

def placed (users : List (Option StaId)) (ss : List StaId) : List StaId :=
  ss.take (users.count none)

def joinUsers (g : ℕ) : List StaId → Mu → Mu
  | [], mu => mu
  | s::ss, mu =>
    let info := mu.info s
    joinUsers g ss { mu.setInfo s { info with cnt := info.cnt+1, map := insert g info.map } with
      updateSta := moveHead mu.updateSta s }

def addUsers (g : ℕ) (ss : List StaId) : Mu :=
  let group := mu.groups g
  let new := placed group.users ss
  { (joinUsers g new mu).setGroup g ⟨group.userCnt+new.length, fill group.users ss⟩ with
    groupCnt := if group.userCnt = 0 then inc8 mu.groupCnt else mu.groupCnt }

/-! ## Creating groups -/

def groupMatch (s : StaId) (ss : List StaId) : Finset ℕ :=
  ss.foldl (fun m t => m ∩ (mu.info t).map) (mu.info s).map

def groupAvail (s : StaId) (ss : List StaId) : Finset ℕ :=
  ss.foldl (fun m t => m ∪ (mu.info t).map) (mu.info s).map

/-- The users that a group lacks. -/
def lacking (g : ℕ) (ss : List StaId) : List StaId :=
  ss.filter fun t => decide (g ∉ (mu.info t).map)

/-- The first group that the users complete, where groups can have more than two. -/
def completes (cfg : Config) (s : StaId) (ss : List StaId) : Option ℕ :=
  if 2 < cfg.userMax then
    (groupsOf (mu.groupAvail s ss)).find? fun g => (mu.groups g).userCnt != cfg.userMax &&
      decide ((mu.groups g).userCnt+(mu.lacking g (s::ss)).length ≤ cfg.userMax)
  else none

/-- With it whether the group is a new one. -/
def groupCreateOne (cfg : Config) (s : StaId) (ss : List StaId) : Mu × Bool :=
  let both := mu.groupMatch s ss
  if both ≠ ∅ then (mu.setActiveGroup (both.sup id), false)
  else
    match mu.completes cfg s ss with
    | some g => ((mu.addUsers g (mu.lacking g (s::ss))).setActiveGroup g, false)
    | none =>
      match mu.activeGroups.getLast? with
      | some g => (((mu.removeUsers g).addUsers g (s::ss)).setActiveGroup g, true)
      | none => (mu, false)

/-- The loop of `rwnx_mu_group_create` over the stations behind `s`. Each turn takes one of them or
more, and a new group is counted twice. -/
def groupCreate (cfg : Config) (s : StaId) : ℕ → List StaId → Mu × ℤ → Mu × ℤ
  | 0, _, r => r
  | fuel+1, rest, (mu, left) =>
    let others := rest.take (cfg.userMax-1)
    if left = 0 ∨ others = [] then (mu, left)
    else
      let (mu', new) := mu.groupCreateOne cfg s others
      let left' := if new then left-2 else left
      if others.length < cfg.userMax-1 then (mu', left')
      else groupCreate cfg s fuel (rest.drop (cfg.userMax-1)) (mu', left')

/-- The station has had its turn. -/
def leaveActive (s : StaId) : Mu :=
  { mu.setInfo s { mu.info s with lastUpdate := mu.updateCount } with
    activeSta := mu.activeSta.erase s }

def workLoop (cfg : Config) : List StaId → Mu × ℤ → Mu × ℤ
  | [], r => r
  | s::rest, (mu, left) =>
    let (mu, left) := groupCreate cfg s (rest.length+1) rest (mu, left)
    workLoop cfg rest (mu.leaveActive s, left)

/-! ## Selecting groups -/

structure Stats where
  nbUsers : ℕ → ℤ
  traffic : ℕ → ℤ
  order : List ℕ

def Stats.add (t : ℤ) (st : Stats) (g : ℕ) : Stats where
  nbUsers := Function.update st.nbUsers g (st.nbUsers g+1)
  traffic := Function.update st.traffic g (st.traffic g+t)
  order := if st.nbUsers g+1 = 2 then st.order++[g] else st.order

def gather : List StaId → Mu × Stats → Mu × Stats
  | [], r => r
  | s::ss, (mu, st) =>
    let info := mu.info s
    let st := if info.cnt = 0 ∨ info.traffic < RWNX_MU_GROUP_MIN_TRAFFIC then st
      else (groupsOf info.map).foldl (Stats.add info.traffic) st
    gather ss (mu.setInfo s { info with traffic := 0, group := 0 }, st)

/-- One pass over the array, with its first group taken out. -/
def bubble (traffic : ℕ → ℤ) : ℕ → List ℕ → List ℕ
  | g, [] => [g]
  | g, h::gs => if traffic g < traffic h then h::bubble traffic g gs else g::bubble traffic h gs

def pass (traffic : ℕ → ℤ) : List ℕ → List ℕ
  | [] => []
  | g::gs => bubble traffic g gs

/-- As many passes as change anything, and more do no harm. -/
def reorder (traffic : ℕ → ℤ) (order : List ℕ) : List ℕ := (pass traffic)^[order.length] order

/-- All users of a group select it, and the groups they share with it lose a user. -/
def selectUsers (g : ℕ) : List StaId → Mu × (ℕ → ℤ) → Mu × (ℕ → ℤ)
  | [], r => r
  | s::ss, (mu, nb) =>
    let info := mu.info s
    selectUsers g ss (mu.setInfo s { info with group := g },
      (groupsOf info.map).foldl
        (fun nb h => if g ≠ h then Function.update nb h (nb h-1) else nb) nb)

def assign : List ℕ → Mu × (ℕ → ℤ) → Mu × (ℕ → ℤ)
  | [], r => r
  | g::gs, (mu, nb) =>
    if nb g < 2 then assign gs (mu, nb)
    else assign gs (selectUsers g (mu.groups g).members (mu, nb))

/-- The stations of each AP interface in turn. The array of groups is not cleared in between. -/
def selectVifs : List (List StaId) → Mu × List ℕ → Mu × List ℕ
  | [], r => r
  | ss::vifs, (mu, order) =>
    let (mu, st) := gather ss (mu, ⟨fun _ => 0, fun _ => 0, order⟩)
    let order := reorder st.traffic st.order
    let (mu, _) := assign order (mu, st.nbUsers)
    selectVifs vifs ({ mu with corrupt := mu.corrupt || NX_MU_GROUP_MAX+1 < order.length }, order)

def groupStaSelect (due : Bool) (vifs : List (List StaId)) : Mu :=
  if mu.groupCnt = 0 ∨ due = false then mu else (selectVifs vifs (mu, [])).1

def groupWorkFn (cfg : Config) (vifs : List (List StaId)) : Mu :=
  let mu := { mu with groupWork := false }
  if !cfg.mutx then mu
  else
    let count := (mu.updateCount+1) % 65536
    let mu := { mu with updateCount := if count = 0 then 1 else count }
    let mu := (workLoop cfg mu.activeSta (mu, NX_MU_GROUP_MAX)).1
    groupStaSelect { mu with updateSta := [] } true vifs

end Mu

/-! ## The machine -/

/-- `vifs` are the station lists of the AP interfaces, `due` whether the time of the next selection
has come. -/
inductive Act where
  | init (s : StaId) (beamformee : Bool)
  | del (s : StaId)
  | setActiveSta (s : StaId) (traffic : ℕ)
  | setActiveGroup (g : ℕ)
  | select (due : Bool) (vifs : List (List StaId))
  | work (vifs : List (List StaId))

def step (cfg : Config) (mu : Mu) : Act → Option Mu
  | .init s beamformee => some (mu.groupStaInit s beamformee)
  | .del s => some (mu.groupStaDel s)
  | .setActiveSta s traffic => some (mu.setActiveSta s traffic)
  | .setActiveGroup g =>
    if g ∈ List.range' 1 NX_MU_GROUP_MAX then some (mu.setActiveGroup g) else none
  | .select due vifs => some (mu.groupStaSelect due vifs)
  | .work vifs => if mu.groupWork then some (mu.groupWorkFn cfg vifs) else none

/-- `rwnx_mu_group_init` -/
def init (cfg : Config) : Mu where
  activeGroups := (List.range' 1 NX_MU_GROUP_MAX).reverse
  activeSta := []
  updateSta := []
  groups := fun _ => ⟨0, List.replicate cfg.userMax none⟩
  groupWork := false
  updateCount := 1
  groupCnt := 0
  info := fun _ => ⟨∅, 0, 0, 0, 0⟩
  known := ∅
  corrupt := false

end AIC.MuGroup
