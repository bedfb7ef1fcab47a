import Aic8800.ChannelContext
import Aic8800.MeshTables

/-!
# The stations of the access points

`rwnx_cfg80211_add_station`, the three paths that remove a station again, and
the moves to an `AP_VLAN` interface. The interfaces stay as they are. An add
waits for its confirmation, and only indications, the work item and frames
come in between.
-/

set_option autoImplicit false

namespace AIC.StationTable
open AIC.ChannelContext (Iftype NX_REMOTE_STA_MAX)
open AIC.MeshTables (MacAddr)

def NX_NB_TXQ_PER_STA : ℕ := 9
def CO_OK : ℕ := 0

def ENOENT : ℤ := 2
def EBUSY : ℤ := 16
def EINVAL : ℤ := 22
def EPIPE : ℤ := 32

structure Vif where
  iftype : Iftype
  up : Bool
  use4addr : Bool
  deriving DecidableEq

/-- `linked` says that its `list` node is in a list. -/
structure Sta where
  valid : Bool
  macAddr : MacAddr
  vifIdx : ℕ
  vlanIdx : ℕ
  psActive : Bool
  linked : Bool

inductive Event where
  | added (vif sta : ℕ)
  | removed (vif sta : ℕ)
  deriving DecidableEq

/-- A txq without an index is `TXQ_INACTIVE`. `adding` is the call that waits for the firmware, and
`broken` says that a step has followed a NULL pointer, linked a node twice or left the part of the
table that is for stations. The last three are no data of the driver: what was added and removed,
the newest first, the stations that an indication has named and nothing has removed, and those that
the last step has removed. -/
structure State where
  vifTable : ℕ → Option Vif
  staList : ℕ → List ℕ
  sta4a : ℕ → Option ℕ
  sta : ℕ → Sta
  txq : ℕ → Option ℕ
  stasReordList : List MacAddr
  addingSta : Bool
  adding : Option (ℕ × MacAddr)
  staMacAddr : MacAddr
  apmVifIdx : ℕ
  apmStalossWork : Bool
  ret : ℤ
  broken : Bool
  log : List Event
  named : List ℕ
  gone : List ℕ

def Vif.IsAp (w : Vif) : Prop := w.iftype = .ap ∨ w.iftype = .p2pGo

/-- Its station is the one of `sta_4a`. -/
def Vif.Is4a (w : Vif) : Prop := w.iftype = .apVlan ∧ w.use4addr = true

instance (w : Vif) : Decidable w.IsAp := inferInstanceAs (Decidable (_ ∨ _))

instance (w : Vif) : Decidable w.Is4a := inferInstanceAs (Decidable (_ ∧ _))

/-- `rwnx_txq_sta_idx`, for the index of a station -/
def txqStaIdx (i tid : ℕ) : ℕ := i*NX_NB_TXQ_PER_STA+tid

def staTxqs (i : ℕ) : List ℕ := (List.range NX_NB_TXQ_PER_STA).map (txqStaIdx i)

namespace State

def txqStaInit (s : State) (i : ℕ) : State :=
  { s with txq := (staTxqs i).foldl (fun t k => Function.update t k (some k)) s.txq }

def txqStaDeinit (s : State) (i : ℕ) : State :=
  { s with txq := (staTxqs i).foldl (fun t k => Function.update t k none) s.txq }

/-! ## Adding a station -/

structure MeStaAddCfm where
  status : ℕ
  staIdx : ℕ
  pmState : Bool

/-- The entry of the table, its txqs and the list. -/
def enterSta (s : State) (v : ℕ) (mac : MacAddr) (cfm : MeStaAddCfm) : State :=
  let i := cfm.staIdx
  let entry : Sta := ⟨true, mac, v, v, (s.sta i).psActive || cfm.pmState, true⟩
  { s.txqStaInit i with
    sta := Function.update s.sta i entry
    staList := Function.update s.staList v (s.staList v++[i])
    broken := s.broken || (s.sta i).linked || decide (NX_REMOTE_STA_MAX ≤ i)
    log := .added v i::s.log }

/-- `rwnx_cfg80211_add_station` up to its request -/
def addStation (s : State) (v : ℕ) (mac : MacAddr) (tdlsPeer : Bool) : State :=
  if tdlsPeer then { s with ret := 0 }
  else { s with
    addingSta := true
    adding := some (v, mac) }

/-- The rest of it, with the result of the request -/
def addAnswer (s : State) (v : ℕ) (mac : MacAddr) (error : ℤ) (cfm : MeStaAddCfm) : State :=
  if error ≠ 0 then { s with
    adding := none
    ret := error }
  else if cfm.status = CO_OK then { s.enterSta v mac cfm with
    addingSta := false
    adding := none
    ret := 0 }
  else { s with
    addingSta := false
    adding := none
    ret := -EBUSY }

/-! ## Removing a station -/

/-- Under `cb_lock`. -/
def unlinkSta (s : State) (v i : ℕ) : State :=
  { s with
    sta := Function.update s.sta i { s.sta i with
      valid := false
      psActive := false
      linked := false }
    staList := Function.update s.staList v ((s.staList v).erase i)
    log := .removed v i::s.log
    named := s.named.filter (· ≠ i)
    gone := i::s.gone }

def leaveVlan (s : State) (i : ℕ) : State :=
  let vlanIdx := (s.sta i).vlanIdx
  if (s.sta i).vifIdx ≠ vlanIdx then
    match s.vifTable vlanIdx with
    | none => { s with broken := true }
    | some w =>
      if w.up = true ∧ w.Is4a then { s with sta4a := Function.update s.sta4a vlanIdx none } else s
  else s

/-- The first control with the address is the only one it looks for. -/
def reordDeinitSta (s : State) (v i : ℕ) : State :=
  match s.vifTable v with
  | none => { s with broken := true }
  | some w =>
    if w.iftype = .station ∨ w.iftype = .p2pClient then { s with broken := true }
    else if w.IsAp then { s with stasReordList := s.stasReordList.erase (s.sta i).macAddr }
    else s

def removeSta (s : State) (v i : ℕ) : State :=
  (((s.unlinkSta v i).leaveVlan i).reordDeinitSta v i).txqStaDeinit i

def findSta (s : State) (v : ℕ) (mac : MacAddr) : Option ℕ :=
  (s.staList v).find? fun i => (s.sta i).macAddr = mac

/-- The loop of `rwnx_cfg80211_del_station_compat`, with the stations it comes to. `error` is what
the request for each of them returns. -/
def delEach (v : ℕ) (error : ℕ → ℤ) : List ℕ → State → State
  | [], s => { s with ret := 0 }
  | i::is, s =>
    if error i ≠ 0 ∧ error i ≠ -EPIPE then { s.removeSta v i with ret := error i }
    else delEach v error is (s.removeSta v i)

/-- `rwnx_cfg80211_del_station_compat`: without an address it takes the first of the list until
there is none. -/
def delStation (s : State) (v : ℕ) (mac : Option MacAddr) (error : ℕ → ℤ) : State :=
  match mac with
  | none => delEach v error (s.staList v) s
  | some mac =>
    match s.findSta v mac with
    | none => { s with ret := -ENOENT }
    | some i => delEach v error [i] s

/-- `while (!list_empty(&rwnx_vif->ap.sta_list))`, for as many turns as there are stations -/
def stopLoop (v : ℕ) (error : ℕ → ℤ) : ℕ → State → State
  | 0, s => s
  | n+1, s => if s.staList v = [] then s else stopLoop v error n (s.delStation v none error)

def stopAp (s : State) (v : ℕ) (error : ℕ → ℤ) : State :=
  { stopLoop v error (s.staList v).length s with ret := 0 }

/-- `apm_staloss_work_process` removes a station of an access point. -/
def stalossSta (s : State) : Option ℕ :=
  match s.vifTable s.apmVifIdx with
  | none => none
  | some w => if w.IsAp then s.findSta s.apmVifIdx s.staMacAddr else none

def apmStalossWorkProcess (s : State) : State :=
  match s.stalossSta with
  | none => { s with apmStalossWork := false }
  | some i => { s with apmStalossWork := false }.removeSta s.apmVifIdx i

/-! ## The other events -/

/-- The stations of the interface with the address have been named. -/
def apmStalossInd (s : State) (vifIdx : ℕ) (mac : MacAddr) : State :=
  { s with
    staMacAddr := mac
    apmVifIdx := vifIdx
    apmStalossWork := true
    named := s.named++(s.staList vifIdx).filter fun i => (s.sta i).macAddr = mac }

/-- `rwnx_get_sta` -/
def getSta (s : State) (mac : MacAddr) : Option ℕ :=
  (List.range NX_REMOTE_STA_MAX).find? fun i => (s.sta i).valid ∧ (s.sta i).macAddr = mac

def moveSta (s : State) (i vlan : ℕ) : State :=
  let old := (s.sta i).vlanIdx
  match s.vifTable old, s.vifTable vlan with
  | some oldVif, some vif =>
    let sta4a := if vif.Is4a then Function.update s.sta4a vlan (some i) else s.sta4a
    { s with
      sta := Function.update s.sta i { s.sta i with vlanIdx := vlan }
      sta4a := if oldVif.Is4a then Function.update sta4a old none else sta4a }
  | _, _ => { s with broken := true }

/-- `rwnx_cfg80211_change_station` with an interface to move to, for a station that is no TDLS
peer -/
def changeStation (s : State) (mac : MacAddr) (vlan : ℕ) : State :=
  match s.getSta mac with
  | none => { s with ret := -EINVAL }
  | some i =>
    if (s.sta i).vlanIdx ≠ vlan then { s.moveSta i vlan with ret := 0 } else { s with ret := 0 }

/-- `reord_process_unit` looks for the control of the sender and makes one. -/
def reordSta (s : State) (mac : MacAddr) (alloc : Bool) : State :=
  if mac ∈ s.stasReordList ∨ alloc = false then s
  else { s with stasReordList := s.stasReordList++[mac] }

end State

/-! ## Steps -/

inductive Act where
  | addStation (v : ℕ) (mac : MacAddr) (tdlsPeer : Bool)
  | addAnswer (error : ℤ) (cfm : State.MeStaAddCfm)
  | delStation (v : ℕ) (mac : Option MacAddr) (error : ℕ → ℤ)
  | changeStation (mac : MacAddr) (vlan : ℕ)
  | stopAp (v : ℕ) (error : ℕ → ℤ)
  | apmStalossInd (vifIdx : ℕ) (mac : MacAddr)
  | apmStalossWork
  | rx (mac : MacAddr) (alloc : Bool)

/-- The calls about stations come for an access point. -/
def Serves (s : State) (v : ℕ) : Prop := ∃ w ∈ s.vifTable v, w.IsAp

/-- cfg80211 lets a station be moved to an interface of these types that is up. -/
def Takes (s : State) (v : ℕ) : Prop :=
  ∃ w ∈ s.vifTable v, w.up = true ∧ (w.IsAp ∨ w.iftype = .apVlan)

instance (s : State) (v : ℕ) : Decidable (Serves s v) :=
  inferInstanceAs (Decidable (∃ w ∈ s.vifTable v, w.IsAp))

instance (s : State) (v : ℕ) : Decidable (Takes s v) :=
  inferInstanceAs (Decidable (∃ w ∈ s.vifTable v, w.up = true ∧ (w.IsAp ∨ w.iftype = .apVlan)))

/-- The calls of cfg80211 come one after the other. -/
def act (s : State) : Act → Option State
  | .addStation v mac tdlsPeer =>
    if s.adding = none ∧ Serves s v then some (s.addStation v mac tdlsPeer) else none
  | .addAnswer error cfm => s.adding.map fun c => s.addAnswer c.1 c.2 error cfm
  | .delStation v mac error =>
    if s.adding = none ∧ Serves s v then some (s.delStation v mac error) else none
  | .changeStation mac vlan =>
    if s.adding = none ∧ Takes s vlan then some (s.changeStation mac vlan) else none
  | .stopAp v error => if s.adding = none ∧ Serves s v then some (s.stopAp v error) else none
  | .apmStalossInd vifIdx mac => some (s.apmStalossInd vifIdx mac)
  | .apmStalossWork => if s.apmStalossWork = true then some s.apmStalossWorkProcess else none
  | .rx mac alloc => some (s.reordSta mac alloc)

def step (s : State) (a : Act) : Option State :=
  if s.broken = true then none else act { s with gone := [] } a

def init (vifTable : ℕ → Option Vif) : State where
  vifTable := vifTable
  staList _ := []
  sta4a _ := none
  sta _ := ⟨false, 0, 0, 0, false, false⟩
  txq _ := none
  stasReordList := []
  addingSta := false
  adding := none
  staMacAddr := 0
  apmVifIdx := 0
  apmStalossWork := false
  ret := 0
  broken := false
  log := []
  named := []
  gone := []

/-! ## What should hold -/

/-- What was noted last about the station and the interface is that it was added. -/
def present (v i : ℕ) : List Event → Bool
  | [] => false
  | .added w j::log => if w = v ∧ j = i then true else present v i log
  | .removed w j::log => if w = v ∧ j = i then false else present v i log

structure Right (s : State) : Prop where
  listed : ∀ v i, i ∈ s.staList v ↔ present v i s.log = true
  once : ∀ v, (s.staList v).Nodup
  valid : ∀ v, ∀ i ∈ s.staList v, (s.sta i).valid = true
  removed : ∀ v i, .removed v i ∈ s.log → (∀ w, i ∉ s.staList w) →
    (s.sta i).valid = false ∧ (∀ k ∈ staTxqs i, s.txq k = none) ∧ ∀ w, s.sta4a w ≠ some i
  reord : ∀ i ∈ s.gone, (s.sta i).macAddr ∉ s.stasReordList
  lost : s.apmStalossWork = false → s.named = []
  adding : s.addingSta = true → s.adding.isSome = true
  sound : s.broken = false

end AIC.StationTable
