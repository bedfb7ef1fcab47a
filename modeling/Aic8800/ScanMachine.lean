import Mathlib.Logic.Function.Basic
import Aic8800.Lib.GuardedRun

/-!
# Scans

`rwnx_cfg80211_scan` and `rwnx_send_scanu_req`, the sched scans, the three
operations that abort a scan and the handler of SCANU_START_CFM. cfg80211 lets
one operation run at a time. The handler runs between two operations, or while
one waits for the firmware. Requests are numbered as they come, and how often
each is passed to `cfg80211_scan_done` or freed is counted.
-/

set_option autoImplicit false

namespace AIC.ScanMachine

inductive Kind where
  | regular | sched
  deriving DecidableEq

/-- What the operation returned: nothing yet, 0, or an error. -/
inductive Answer where
  | pending | accepted | rejected
  deriving DecidableEq

/-- A `struct cfg80211_scan_request`. That of a sched scan is the driver's own. -/
structure Request where
  kind : Kind
  wdev : ℕ
  answer : Answer
  done : ℕ
  freed : ℕ
  deriving DecidableEq

/-- The messages of `rwnx_send_scanu_req`. -/
inductive Msg where
  | addIf | ie | start
  deriving DecidableEq

/-- `scan`: the messages still to be sent. `cancel`: `rwnx_cfg80211_change_iface` waits. -/
inductive Phase where
  | idle
  | scan (id : ℕ) (todo : List Msg)
  | cancel
  deriving DecidableEq

/-- `outstanding`: the firmware scans whose SCANU_START_CFM has not come. -/
structure Machine where
  scanning : Bool
  isSched : Bool
  scanRequest : Option ℕ
  req : ℕ → Request
  next : ℕ
  outstanding : List Kind
  phase : Phase
  oops : Bool

def init : Machine where
  scanning := false
  isSched := false
  scanRequest := none
  req := fun _ => ⟨.regular, 0, .pending, 0, 0⟩
  next := 0
  outstanding := []
  phase := .idle
  oops := false

/-- What the request asks for. `addIf`: a wildcard SSID on a P2P device that is down. -/
structure Params where
  wdev : ℕ
  addIf : Bool
  ie : Bool

def Params.messages (p : Params) : List Msg :=
  (if p.addIf then [.addIf] else [])++(if p.ie then [.ie] else [])++[.start]

namespace Machine
variable (s : Machine)

def setReq (id : ℕ) (f : Request → Request) : Machine :=
  { s with req := Function.update s.req id (f (s.req id)) }

/-- A new request, which the operation has not answered. -/
def newReq (kind : Kind) (wdev : ℕ) : Machine :=
  { s with req := Function.update s.req s.next ⟨kind, wdev, .pending, 0, 0⟩, next := s.next+1 }

def answered (id : ℕ) (a : Answer) : Machine :=
  { s.setReq id fun r => { r with answer := a } with phase := .idle }

def scanDone (id : ℕ) : Machine := s.setReq id fun r => { r with done := r.done+1 }

def kfree (id : ℕ) : Machine := s.setReq id fun r => { r with freed := r.freed+1 }

/-- `rwnx_cfg80211_scan` up to the first message. `busy`: test mode, or the interface is
connecting. -/
def cfg80211Scan (id : ℕ) (p : Params) (busy alloc : Bool) : Machine :=
  if busy || s.scanning then s.answered id .rejected
  else
    let t := { s with scanRequest := some id }
    -- the error is returned with the request in place
    if alloc then { t with scanning := true, phase := .scan id p.messages }
    else t.answered id .rejected

def scan (p : Params) (busy alloc : Bool) : Machine :=
  (s.newReq .regular p.wdev).cfg80211Scan s.next p busy alloc

/-- `rwnx_cfg80211_sched_scan_start`. The result of `kmalloc` is not checked. -/
def schedScanStart (p : Params) (kmalloc busy alloc : Bool) : Machine :=
  if s.isSched || s.scanning then s
  else if !kmalloc then { s with oops := true }
  else { s.newReq .sched p.wdev with isSched := true }.cfg80211Scan s.next p busy alloc

/-- The next message of `rwnx_send_scanu_req`. `ok`: what it takes could be allocated, the firmware
has added the interface, or SCANU_START_REQ has reached it. -/
def send (ok : Bool) : Option Machine :=
  match s.phase with
  | .scan id (.start::todo) => some { s with
      outstanding := if ok then (s.req id).kind::s.outstanding else s.outstanding
      phase := .scan id todo }
  | .scan id (_::todo) =>
    if ok then some { s with phase := .scan id todo } else some (s.answered id .rejected)
  | _ => none

/-- The scan request of this interface is reported as aborted. -/
def abort (wdev : ℕ) : Machine :=
  match s.scanRequest with
  | some id => if (s.req id).wdev = wdev then { s.scanDone id with scanRequest := none } else s
  | none => s

def close (wdev : ℕ) : Machine := { s with scanning := false }.abort wdev

/-- `rwnx_cfg80211_change_iface`: it clears the request when the firmware has confirmed. -/
def changeIface (wdev : ℕ) (up alloc : Bool) : Machine :=
  match s.scanRequest with
  | some id =>
    if up ∧ (s.req id).wdev = wdev then
      if alloc then { s.scanDone id with phase := .cancel } else s.scanDone id
    else s
  | none => s

/-- `rwnx_rx_scanu_start_cfm`. -/
def startCfm (k : Kind) : Machine :=
  let t := { s with
    scanning := false, scanRequest := none, isSched := false
    outstanding := s.outstanding.erase k }
  match s.scanRequest with
  | some id => if s.isSched then t.kfree id else t.scanDone id
  | none => if s.isSched then { s with oops := true } else t

end Machine

inductive Act where
  | scan (p : Params) (busy alloc : Bool)
  | schedScanStart (p : Params) (kmalloc busy alloc : Bool)
  /-- It sends a cancel request, and changes nothing. -/
  | schedScanStop
  | send (ok : Bool)
  /-- `rwnx_cfg80211_scan` returns 0. -/
  | scanReturns
  | close (wdev : ℕ)
  | changeIface (wdev : ℕ) (up alloc : Bool)
  | cancelCfm
  | stopP2pDevice (wdev : ℕ)
  | startCfm (k : Kind)

/-- An operation starts when none is in progress. -/
def step (s : Machine) (a : Act) : Option Machine :=
  if s.oops then none
  else
    match a, s.phase with
    | .scan p busy alloc, .idle => some (s.scan p busy alloc)
    | .schedScanStart p kmalloc busy alloc, .idle => some (s.schedScanStart p kmalloc busy alloc)
    | .schedScanStop, .idle => some s
    | .send ok, _ => s.send ok
    | .scanReturns, .scan id [] => some (s.answered id .accepted)
    | .close wdev, .idle => some (s.close wdev)
    | .changeIface wdev up alloc, .idle => some (s.changeIface wdev up alloc)
    | .cancelCfm, .cancel => some { s with scanRequest := none, phase := .idle }
    | .stopP2pDevice wdev, .idle => some (s.abort wdev)
    | .startCfm k, _ => if k ∈ s.outstanding then some (s.startCfm k) else none
    | _, _ => none

end AIC.ScanMachine
