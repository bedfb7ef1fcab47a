import Aic8800.ChannelContext

/-!
# The element of a remain-on-channel

`roc_elem` points to the element of the remain-on-channel in progress, which
the request that allocates it, the handlers of the indications and the close of
its interface use and free without a lock. One request of cfg80211 runs at a
time and so does one handler. They interleave between any two accesses to the
pointer or to an element, and a request also where it waits for the firmware.
-/

set_option autoImplicit false

namespace AIC.RocMachine
open AIC.ChannelContext (VifId)

def EIO_ERR : ℤ := 5
def ENOMEM : ℤ := 12
def EBUSY : ℤ := 16
def EINVAL : ℤ := 22

/-- What a frame of `mgmt_tx` stays on its channel for. -/
def MGMT_DURATION : ℕ := 30

structure RocElem where
  wdev : VifId
  chan : ℕ
  duration : ℕ
  mgmtRoc : Bool
  onChan : Bool

/-- The arguments of `rwnx_cfg80211_remain_on_channel`; `mgmt`: called by `mgmt_tx`. -/
structure Req where
  wdev : VifId
  chan : ℕ
  duration : ℕ
  mgmt : Bool
  deriving DecidableEq

/-- What `cfg80211_ready_on_channel` and `cfg80211_remain_on_channel_expired` are called with. -/
structure Call where
  wdev : VifId
  cookie : ℕ
  chan : ℕ
  deriving DecidableEq

inductive Event where
  | ready (c : Call) (duration : ℕ)
  | expired (c : Call)

/-- Where the request of cfg80211 goes on. `clear`, `free` and `deinit` undo the
element and return; `wdev`, `kfree` and `null` are those of a close, and `roc`,
`chan` and `log` of a frame that finds an element. -/
inductive Pc where
  | idle
  | test (r : Req)
  | retest (r : Req)
  | p2p (r : Req)
  | alloc (r : Req)
  | publish (k : ℕ) (mgmt : Bool)
  | request (k : ℕ) (mgmt : Bool)
  | confirm (k : ℕ) (mgmt : Bool)
  | clear (k : ℕ) (e : ℤ)
  | free (k : ℕ) (e : ℤ)
  | deinit (e : ℤ)
  | mark
  | roc (v : VifId) (chan : ℕ)
  | chan (v : VifId) (chan : ℕ) (w : VifId)
  | log
  | cancel
  | cancelCfm
  | wdev (v : VifId)
  | kfree
  | null

/-- Where the handler of an indication goes on with the element it has read. -/
inductive Ipc where
  | idle
  | ready (k : ℕ)
  | onChan (k : ℕ)
  | expired (k : ℕ)
  | deinit (k : ℕ)
  | free (k : ℕ)
  | clear (k : ℕ)
  deriving DecidableEq

/-- `fault`: an access through NULL or to a freed element, or a second `kfree`.
`ret`: what the last request returned, none for a frame that is sent and for a
close. `cookie`: what the caller of the last remain-on-channel was given. The
events come latest first. -/
structure State where
  vifIndex : VifId → ℕ
  elems : ℕ → RocElem
  allocs : ℕ
  freed : ℕ → ℕ
  rocElem : Option ℕ
  rocCookieCnt : ℕ
  txqActive : Bool
  rtnl : Pc
  ind : Ipc
  ret : Option ℤ
  cookie : ℕ
  events : List Event
  fault : Bool

namespace State
variable (s : State)

def goto (pc : Pc) : State := { s with rtnl := pc }

def leave (e : Option ℤ) : State := { s with rtnl := .idle, ret := e }

def setElem (k : ℕ) (x : RocElem) : State := { s with elems := Function.update s.elems k x }

/-- An access to the element behind a pointer. -/
def deref (p : Option ℕ) (f : ℕ → State) : State :=
  match p with
  | none => { s with fault := true }
  | some k => if s.freed k = 0 then f k else { s with fault := true }

def kfree (k : ℕ) : State :=
  { s with
    freed := Function.update s.freed k (s.freed k+1)
    fault := decide (s.freed k ≠ 0) }

def call (k : ℕ) : Call := ⟨(s.elems k).wdev, s.rocCookieCnt, (s.elems k).chan⟩

/-! ## Requests -/

/-- The element is filled in and the off-channel queue initialised. -/
def allocElem (r : Req) : State :=
  { s.setElem s.allocs ⟨r.wdev, r.chan, r.duration, false, false⟩ with
    allocs := s.allocs+1
    txqActive := true
    rtnl := .publish s.allocs r.mgmt }

/-- The answer to the request, with a status of 0 or not. -/
def confirmRoc (k : ℕ) (mgmt ok : Bool) : State :=
  { s with
    cookie := if mgmt then s.cookie else s.rocCookieCnt
    ret := if ok && !mgmt then some 0 else s.ret
    rtnl := if ok then if mgmt then .mark else .idle else .clear k (-EBUSY) }

def markMgmt (k : ℕ) : State :=
  (s.setElem k { s.elems k with mgmtRoc := true }).leave none

/-- A frame goes out off-channel if the element is for its channel and interface. -/
def checkChan (v : VifId) (chan : ℕ) (w : VifId) (k : ℕ) : State :=
  if (s.elems k).chan ≠ chan ∨ s.vifIndex v ≠ s.vifIndex w then s.goto .log else s.leave none

/-- `ok`: what the request needs here (an interface, memory, an answer) is there
and right. -/
def rtnlStep (ok : Bool) : Option State :=
  match s.rtnl with
  | .idle => none
  | .test r => some (s.goto (if s.rocElem.isSome then .retest r else .p2p r))
  | .retest r => some (if s.rocElem.isSome then s.leave (some (-EBUSY)) else s.goto (.p2p r))
  | .p2p r => some (if ok then s.goto (.alloc r) else s.leave (some (-EIO_ERR)))
  | .alloc r => some (if ok then s.allocElem r else s.leave (some (-ENOMEM)))
  | .publish k mgmt => some { s with rocElem := some k, rtnl := .request k mgmt }
  | .request k mgmt => some (s.goto (if ok then .confirm k mgmt else .clear k (-ENOMEM)))
  | .confirm k mgmt => some (s.confirmRoc k mgmt ok)
  | .clear k e => some { s with rocElem := none, rtnl := .free k e }
  | .free k e => some ((s.kfree k).goto (.deinit e))
  | .deinit e => some ({ s with txqActive := false }.leave (some e))
  | .mark => some (s.deref s.rocElem s.markMgmt)
  | .roc v chan => some (s.deref s.rocElem fun k => s.goto (.chan v chan (s.elems k).wdev))
  | .chan v chan w => some (s.deref s.rocElem (s.checkChan v chan w))
  | .log => some (s.deref s.rocElem fun _ => s.leave (some (-EINVAL)))
  | .cancel => some (if ok then s.goto .cancelCfm else s.leave (some (-ENOMEM)))
  | .cancelCfm => some (s.leave (some 0))
  | .wdev v => some (s.deref s.rocElem fun k =>
      if (s.elems k).wdev = v then s.goto .kfree else s.leave none)
  | .kfree =>
    match s.rocElem with
    | none => some (s.goto .null)
    | some k => some ((s.kfree k).goto .null)
  | .null => some ({ s with rocElem := none }.leave none)

/-! ## Indications -/

def readyOnChannel (k : ℕ) : State :=
  { s with
    events := if (s.elems k).mgmtRoc then s.events
      else .ready (s.call k) (s.elems k).duration :: s.events
    ind := .onChan k }

def setOnChan (k : ℕ) : State :=
  { s.setElem k { s.elems k with onChan := true } with ind := .idle }

def reportExpired (k : ℕ) : State :=
  { s with
    events := if !(s.elems k).mgmtRoc && (s.elems k).onChan then .expired (s.call k) :: s.events
      else s.events
    ind := .deinit k }

/-- The counter is 32 bits wide and never 0. -/
def nextCookie : ℕ := if (s.rocCookieCnt+1)%2^32 = 0 then 1 else (s.rocCookieCnt+1)%2^32

def indStep : Option State :=
  match s.ind with
  | .idle => none
  | .ready k => some (s.deref (some k) s.readyOnChannel)
  | .onChan k => some (s.deref (some k) s.setOnChan)
  | .expired k => some (s.deref (some k) s.reportExpired)
  | .deinit k => some { s with txqActive := false, rocCookieCnt := s.nextCookie, ind := .free k }
  | .free k => some { s.kfree k with ind := .clear k }
  | .clear _ => some { s with rocElem := none, ind := .idle }

end State

/-- A frame that needs no remain-on-channel touches no element. `chanSwitchInd`:
the indication with `roc` set. -/
inductive Act where
  | remainOnChannel (v : VifId) (chan duration : ℕ)
  | mgmtTx (v : VifId) (chan : ℕ)
  | cancel
  | close (v : VifId)
  | rtnl (ok : Bool)
  | chanSwitchInd
  | expInd
  | handler
  deriving DecidableEq

def State.enter (s : State) : Act → Option State
  | .remainOnChannel v chan duration => some (s.goto (.test ⟨v, chan, duration, false⟩))
  | .mgmtTx v chan =>
    some (s.goto (if s.rocElem.isSome then .roc v chan else .test ⟨v, chan, MGMT_DURATION, true⟩))
  | .cancel => some (if s.rocElem.isSome then s.goto .cancel else s.leave (some 0))
  | .close v => some (if s.rocElem.isSome then s.goto (.wdev v) else s.leave none)
  | _ => none

/-- Nothing runs on after a fault. -/
def step (s : State) (a : Act) : Option State :=
  if s.fault then none
  else
    match a with
    | .rtnl ok => s.rtnlStep ok
    | .chanSwitchInd =>
      if s.ind = .idle then
        some { s with ind := match s.rocElem with | none => .idle | some k => .ready k }
      else none
    | .expInd =>
      if s.ind = .idle then
        some { s with ind := match s.rocElem with | none => .idle | some k => .expired k }
      else none
    | .handler => s.indStep
    | a =>
      match s.rtnl with
      | .idle => s.enter a
      | _ => none

def init (vifIndex : VifId → ℕ) : State where
  vifIndex := vifIndex
  elems := fun _ => ⟨0, 0, 0, false, false⟩
  allocs := 0
  freed := fun _ => 0
  rocElem := none
  rocCookieCnt := 1
  txqActive := false
  rtnl := .idle
  ind := .idle
  ret := none
  cookie := 0
  events := []
  fault := false

end AIC.RocMachine
