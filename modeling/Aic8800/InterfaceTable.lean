import Aic8800.ChannelContext

/-!
# The interface table

An interface that is up has an index of the firmware and its entry in
`vif_table`. A network interface goes up and down with `rwnx_open` and
`rwnx_close`. The P2P device has neither: a scan, a remain-on-channel or the open
of a P2P client or group owner brings it up, and its stop or a timer takes it down.
-/

set_option autoImplicit false

namespace AIC.InterfaceTable
open AIC.ChannelContext (VifId Iftype)

def EPERM : ℤ := 1
def EIO_ERR : ℤ := 5
def ENOMEM : ℤ := 12
def EBUSY : ℤ := 16

def P2P_ALIVE_TIME_COUNT : ℕ := 200

/-- `running`: the network core has opened the interface. `present`: it is in `vifs`. -/
structure Vif where
  iftype : Iftype
  up : Bool
  vifIndex : ℕ
  present : Bool
  running : Bool

structure State where
  vif : VifId → Vif
  vifTable : ℕ → Option VifId
  vifStarted : ℕ
  p2pDevVif : Option VifId
  isP2pAlive : Bool
  timer : Bool
  timerCount : ℕ
  scanRequest : Option VifId

/-- What comes of an add-interface request: nothing when its message cannot be
allocated, else the status and the index of the confirmation, or what was on the
stack when there is none. -/
abbrev AddIf := Option (ℕ × ℕ)

/-- Whether the start request fails, the two add-interface requests, and
whether the configuration of a monitor interface fails. -/
structure OpenReply where
  start : Bool
  p2p : AddIf
  add : AddIf
  monitor : Bool
  deriving DecidableEq

namespace State
variable (s : State)

def setVif (v : VifId) (x : Vif) : State := { s with vif := Function.update s.vif v x }

def setTable (i : ℕ) (x : Option VifId) : State :=
  { s with vifTable := Function.update s.vifTable i x }

/-- `vif_started` is a byte. -/
def bringUp (v : VifId) (i : ℕ) : State :=
  { (s.setVif v { s.vif v with up := true, vifIndex := i }).setTable i (some v) with
    vifStarted := (s.vifStarted+1)%2^8 }

def bringDown (v : VifId) : State :=
  { (s.setVif v { s.vif v with up := false }).setTable (s.vif v).vifIndex none with
    vifStarted := (s.vifStarted+2^8-1)%2^8 }

def clearEntry (v : VifId) : State := s.setTable (s.vif v).vifIndex none

def reindex (v : VifId) (i : ℕ) : State :=
  ((s.clearEntry v).setVif v { s.vif v with vifIndex := i }).setTable i (some v)

def setRunning (v : VifId) (b : Bool) : State := s.setVif v { s.vif v with running := b }

def armAlive : State := { s with timer := true, timerCount := 0 }

def keepAlive : State := { s.armAlive with isP2pAlive := true }

/-- A scan of the interface is reported as aborted. -/
def dropScan (v : VifId) : State :=
  if s.scanRequest = some v then { s with scanRequest := none } else s

def isP2p (v : VifId) : Bool :=
  decide ((s.vif v).iftype = .p2pClient) || decide ((s.vif v).iftype = .p2pGo)

/-! ## Requests of the network core -/

/-- A P2P client or group owner brings the P2P device up first. -/
def openP2pDev (p2p : AddIf) : Except ℤ State :=
  if s.isP2pAlive then .ok s
  else
    match s.p2pDevVif with
    | none => .ok s.keepAlive
    | some d =>
      if (s.vif d).up then .ok s.keepAlive
      else
        match p2p with
        | some (0, i) => .ok (s.bringUp d i).keepAlive
        | _ => .error (-EIO_ERR)

/-- An `AP_VLAN` interface has its driver index for the firmware's. -/
def openSelf (v : VifId) (o : OpenReply) : ℤ × State :=
  if (s.vif v).iftype = .apVlan then (0, s.bringUp v v)
  else
    match o.add with
    | none => (-ENOMEM, s)
    | some (0, i) =>
      (if (s.vif v).iftype = .monitor ∧ o.monitor = true then -ENOMEM else 0, s.bringUp v i)
    | some _ => (-EIO_ERR, s)

def rwnxOpen (v : VifId) (o : OpenReply) : ℤ × State :=
  if s.vifStarted = 0 ∧ o.start = true then (-ENOMEM, s)
  else if s.isP2p v then
    match s.openP2pDev o.p2p with
    | .error e => (e, s)
    | .ok t => t.openSelf v o
  else s.openSelf v o

/-- `cancel`: the request that cancels a scan cannot be allocated. -/
def rwnxClose (v : VifId) (cancel : Bool) : ℤ × State :=
  if s.scanRequest = some v then
    let s : State := { s with scanRequest := none }
    if cancel then (-ENOMEM, s) else (0, s.bringDown v)
  else (0, s.bringDown v)

/-! ## Requests of cfg80211 -/

/-- The interface loses its entry and gets a new one. -/
def readdIf (v : VifId) (add : AddIf) : ℤ × State :=
  match add with
  | none => (-ENOMEM, s.clearEntry v)
  | some (0, i) => (0, s.reindex v i)
  | some _ => (-EIO_ERR, s.clearEntry v)

def changeIface (v : VifId) (type : Iftype) (cancel remove : Bool) (add : AddIf) : ℤ × State :=
  if type = .apVlan then (-EPERM, s)
  else
    let s := s.setVif v { s.vif v with iftype := type }
    if (s.vif v).up then
      if s.scanRequest = some v ∧ cancel = true then (-ENOMEM, s)
      else
        let s := s.dropScan v
        if remove then (-ENOMEM, s) else s.readdIf v add
    else (0, s)

/-- What a wildcard P2P name in a scan does. -/
def scanP2p (v : VifId) (add : AddIf) : Except ℤ State :=
  if s.p2pDevVif = some v ∧ (s.vif v).up = false then
    match add with
    | none => .error (-ENOMEM)
    | some (0, i) => .ok (s.bringUp v i).keepAlive
    | some _ => .error (-EIO_ERR)
  else .ok s.keepAlive

/-- `req` and `ie`: the message of the scan, or that of its elements, cannot be allocated. -/
def scan (v : VifId) (req wildcard : Bool) (add : AddIf) (ie : Bool) : ℤ × State :=
  let s : State := { s with scanRequest := some v }
  if req then (-ENOMEM, s)
  else
    match if wildcard then s.scanP2p v add else .ok s with
    | .error e => (e, s)
    | .ok t => (if ie then -ENOMEM else 0, t)

def rocP2p (v : VifId) (add : AddIf) : Except ℤ State :=
  if s.p2pDevVif = some v ∧ (s.vif v).up = false then
    if s.isP2pAlive then .ok s.armAlive
    else
      match add with
      | some (0, i) => .ok (s.bringUp v i).keepAlive
      | _ => .error (-EIO_ERR)
  else .ok s

/-- `elem`: the element cannot be allocated. `roc`: the status of the confirmation,
missing when the request cannot be allocated. -/
def remainOnChannel (v : VifId) (busy : Bool) (add : AddIf) (elem : Bool) (roc : Option ℕ) :
    ℤ × State :=
  if busy then (-EBUSY, s)
  else
    match s.rocP2p v add with
    | .error e => (e, s)
    | .ok t =>
      if elem then (-ENOMEM, t)
      else
        match roc with
        | none => (-ENOMEM, t)
        | some status => (if status = 0 then 0 else -EBUSY, t)

def stopP2pDevice (v : VifId) : State :=
  let s := s.dropScan v
  if s.p2pDevVif = some v then
    let s : State := { s with isP2pAlive := false, timer := false }
    if (s.vif v).up then s.bringDown v else s
  else s

/-! ## The timer -/

def anyP2p : Bool := (List.finRange _).any fun v => (s.vif v).present && s.isP2p v

def dropP2pDev : State :=
  match s.p2pDevVif with
  | none => s
  | some d => if (s.vif d).up then s.bringDown d else s

def countAlive : State :=
  if s.anyP2p then { s with isP2pAlive := true, timerCount := 0 }
  else { s with timerCount := s.timerCount+1 }

def p2pAliveTimeout : State :=
  let s := s.countAlive
  if s.timerCount < P2P_ALIVE_TIME_COUNT then s
  else { s with timerCount := 0, timer := false, isP2pAlive := false }.dropP2pDev

end State

/-! ## Sequences of operations -/

inductive Act where
  | openVif (v : VifId) (o : OpenReply)
  | close (v : VifId) (cancel : Bool)
  | changeIface (v : VifId) (type : Iftype) (cancel remove : Bool) (add : AddIf)
  | scan (v : VifId) (req wildcard : Bool) (add : AddIf) (ie : Bool)
  | scanDone
  | remainOnChannel (v : VifId) (busy : Bool) (add : AddIf) (elem : Bool) (roc : Option ℕ)
  | stopP2pDevice (v : VifId)
  | aliveTimeout
  deriving DecidableEq

/-- The interface that an operation is about. -/
def Act.who (p2pDev : Option VifId) : Act → Option VifId
  | .openVif v _ | .close v _ | .changeIface v _ _ _ _ | .scan v _ _ _ _
  | .remainOnChannel v _ _ _ _ | .stopP2pDevice v => some v
  | .scanDone => none
  | .aliveTimeout => p2pDev

/-- The network core opens what is not open and closes what is, and neither it
nor cfg80211 opens or changes a P2P device or makes one of something else; an
`AP_VLAN` interface keeps its type. -/
def op (s : State) : Act → Option (ℤ × State)
  | .openVif v o =>
    if (s.vif v).running = false ∧ (s.vif v).iftype ≠ .p2pDevice then
      let r := s.rwnxOpen v o
      some (r.1, r.2.setRunning v (decide (r.1 = 0)))
    else none
  | .close v cancel =>
    if (s.vif v).running then some ((s.setRunning v false).rwnxClose v cancel) else none
  | .changeIface v type cancel remove add =>
    if (s.vif v).iftype ≠ .p2pDevice ∧ (s.vif v).iftype ≠ .apVlan ∧ type ≠ .p2pDevice then
      some (s.changeIface v type cancel remove add)
    else none
  | .scan v req wildcard add ie => some (s.scan v req wildcard add ie)
  | .scanDone => some (0, { s with scanRequest := none })
  | .remainOnChannel v busy add elem roc => some (s.remainOnChannel v busy add elem roc)
  | .stopP2pDevice v => some (0, s.stopP2pDevice v)
  | .aliveTimeout => if s.timer then some (0, s.p2pAliveTimeout) else none

/-- The state, and what the last operation found, was about and returned. -/
structure Machine where
  now : State
  before : State
  who : Option VifId
  ret : ℤ

def step (m : Machine) (a : Act) : Option Machine :=
  (op m.now a).map fun r => ⟨r.2, m.now, a.who m.now.p2pDevVif, r.1⟩

section
variable (iftype : VifId → Iftype) (present : VifId → Bool)

/-- The P2P device is an interface of that type. -/
def initState (dev : Option { v // iftype v = .p2pDevice }) : State where
  vif := fun v => ⟨iftype v, false, 0, present v, false⟩
  vifTable := fun _ => none
  vifStarted := 0
  p2pDevVif := dev.map Subtype.val
  isP2pAlive := false
  timer := false
  timerCount := 0
  scanRequest := none

def init (dev : Option { v // iftype v = .p2pDevice }) : Machine :=
  let s := initState iftype present dev
  ⟨s, s, none, 0⟩

end

end AIC.InterfaceTable
