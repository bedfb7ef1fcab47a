import Mathlib.Tactic
import Aic8800.Lib.GuardedRun

/-!
# The command manager

The senders in `rwnx_send_msg` and `rwnx_send_msg1`, the work item
`cmd_mgr_task_process` and the confirmations taken by `cmd_mgr_msgind`, over
one `rwnx_cmd_mgr` and the slots of `cmd_array`. A step is a critical section
or one access outside the lock, so the steps of all parties interleave. The
flags of a slot are never reset, only set and cleared bit by bit. Beside the
source's state there is a record for the statements: the call that owns a slot,
the events so far, and whether a command was given up before its confirmation.
-/

set_option autoImplicit false

namespace AIC.CommandMachine

def RWNX_CMD_MAX_QUEUED : ℕ := 16
def RWNX_CMD_ARRAY_SIZE : ℕ := 20
def RWNX_CMD_E2AMSG_LEN_MAX : ℕ := 256*4
def ME_TRAFFIC_IND_REQ : ℕ := 5*1024+12
def MM_SET_ARPOFFLOAD_REQ : ℕ := 97
def EINTR : ℤ := 4
def ENOMEM : ℤ := 12
def EPIPE : ℤ := 32
def ETIMEDOUT : ℤ := 110

/-! ## The manager under its lock -/

structure Flags where
  nonblock : Bool
  reqCfm : Bool
  waitPush : Bool
  waitAck : Bool
  waitCfm : Bool
  done : Bool

def waitComplete (f : Flags) : Bool := !(f.waitAck || f.waitCfm)

/-- `complete` counts what `wait_for_completion` may take. `owner` is the call
the slot was last allocated to. -/
structure RwnxCmd where
  used : Bool
  id : ℕ
  reqid : ℕ
  e2aMsg : Bool
  flags : Flags
  complete : ℕ
  result : ℤ
  owner : ℕ

inductive MgrState where
  | inited | crashed
  deriving DecidableEq

structure CmdMgr where
  state : MgrState
  queueSz : ℕ
  cmds : List ℕ
  cmdArray : ℕ → RwnxCmd

namespace CmdMgr

def modify (m : CmdMgr) (k : ℕ) (f : RwnxCmd → RwnxCmd) : CmdMgr :=
  { m with cmdArray := Function.update m.cmdArray k (f (m.cmdArray k)) }

def setFlags (m : CmdMgr) (k : ℕ) (f : Flags → Flags) : CmdMgr :=
  m.modify k fun cmd => { cmd with flags := f cmd.flags }

def setResult (m : CmdMgr) (k : ℕ) (r : ℤ) : CmdMgr :=
  m.modify k fun cmd => { cmd with result := r }

def rwnxCmdFree (m : CmdMgr) (k : ℕ) : CmdMgr :=
  m.modify k fun cmd => { cmd with used := false }

/-- The search of `rwnx_cmd_malloc`. -/
def freeSlot (m : CmdMgr) : Option ℕ :=
  (List.range RWNX_CMD_ARRAY_SIZE).find? fun k => !(m.cmdArray k).used

def cmdComplete (m : CmdMgr) (k : ℕ) : CmdMgr :=
  let m := { m with cmds := m.cmds.erase k, queueSz := m.queueSz-1 }
  let m := m.setFlags k fun f => { f with done := true }
  if (m.cmdArray k).flags.nonblock then m.rwnxCmdFree k
  else if waitComplete (m.cmdArray k).flags then
    m.modify k fun cmd => { cmd with result := 0, complete := cmd.complete+1 }
  else m

def alwaysDeferred (id : ℕ) : Bool := id == ME_TRAFFIC_IND_REQ || id == MM_SET_ARPOFFLOAD_REQ

/-- The last command on the list still waits for something. -/
def lastBusy (m : CmdMgr) : Bool :=
  match m.cmds.getLast? with
  | none => false
  | some l =>
    let f := (m.cmdArray l).flags
    f.waitAck || f.waitPush || f.waitCfm

/-- From the flags to `queue_sz++`. -/
def enqueue (m : CmdMgr) (k : ℕ) (deferPush : Bool) : CmdMgr :=
  let m := m.modify k fun cmd => { cmd with
    flags := { cmd.flags with
      waitPush := cmd.flags.waitPush || deferPush
      waitCfm := cmd.flags.waitCfm || cmd.flags.reqCfm }
    result := -EINTR
    complete := if cmd.flags.nonblock then cmd.complete else 0 }
  { m with cmds := m.cmds++[k], queueSz := m.queueSz+1 }

inductive QueueOut where
  | refused | direct | deferred
  deriving DecidableEq

/-- The critical section of `cmd_mgr_queue`. -/
def cmdMgrQueue (m : CmdMgr) (k : ℕ) : CmdMgr × QueueOut :=
  if m.state = .crashed then (m.setResult k (-EPIPE), .refused)
  else if m.cmds ≠ [] ∧ m.queueSz = RWNX_CMD_MAX_QUEUED then (m.setResult k (-ENOMEM), .refused)
  else if m.lastBusy || alwaysDeferred (m.cmdArray k).id then (m.enqueue k true, .deferred)
  else (m.enqueue k false, .direct)

/-- The critical section of `cmd_mgr_queue_force_defer`. -/
def cmdMgrQueueForceDefer (m : CmdMgr) (k : ℕ) : CmdMgr × QueueOut :=
  if m.state = .crashed then (m.setResult k (-EPIPE), .refused)
  else if m.cmds ≠ [] ∧ m.queueSz = RWNX_CMD_MAX_QUEUED then (m.setResult k (-ENOMEM), .refused)
  else (m.enqueue k true, .deferred)

/-- The critical section after a wait that timed out. -/
def timedOut (m : CmdMgr) (k : ℕ) : CmdMgr :=
  let m := { m with state := .crashed }
  if (m.cmdArray k).flags.done then m else (m.setResult k (-ETIMEDOUT)).cmdComplete k

/-- The command a message is taken for. The handlers of confirmations return 0. -/
def findCmd (m : CmdMgr) (id : ℕ) : Option ℕ :=
  m.cmds.find? fun k => (m.cmdArray k).reqid == id && (m.cmdArray k).flags.waitCfm

/-- `cmd_mgr_msgind` for the command found. -/
def confirm (m : CmdMgr) (k : ℕ) : CmdMgr :=
  let m := m.setFlags k fun f => { f with waitCfm := false }
  if waitComplete (m.cmdArray k).flags then m.cmdComplete k else m

end CmdMgr

/-! ## The parties -/

/-- `rwnx_send_msg`, or `rwnx_send_msg1` with its `defer`. -/
inductive Via where
  | sendMsg | sendMsg1 (defer : Bool)
  deriving DecidableEq

/-- The arguments of a call: `cfm` says that a response buffer is given. -/
structure Request where
  id : ℕ
  reqid : ℕ
  reqcfm : Bool
  cfm : Bool
  via : Via

/-- Where a call is; `k` is its slot. `deferTest` records whether the list was
empty when the command was appended. -/
inductive Pc where
  | idle
  | entry
  | malloc
  | waitEmpty (k : ℕ)
  | queue (k : ℕ)
  | sendNoCfm (k : ℕ)
  | push (k : ℕ)
  | wait (k : ℕ)
  | timedOut (k : ℕ)
  | freeCmd (k : ℕ)
  | testEmpty
  | deferTest (first : Bool)
  | wake
  | freeRet (k : ℕ)
  | returned (ret : ℤ)
  | oops
  deriving DecidableEq

inductive WorkPc where
  | idle
  | scan
  | clearFlag (k : ℕ)
  | push (k : ℕ)
  | wait (k : ℕ)
  | timedOut (k : ℕ)
  | freeCmd (k : ℕ)
  deriving DecidableEq

/-- `confirmed`: a message completed the command of a call; `cause` is the call
whose command the firmware confirms by it, if any. -/
inductive Ev where
  | appended (c : ℕ)
  | pushed (c : ℕ)
  | confirmed (c : ℕ) (cause : Option ℕ) (param : List UInt8)
  | wrote (c : ℕ) (bytes : List UInt8)
  | returned (c : ℕ) (ret : ℤ)
  deriving DecidableEq

structure Sys where
  mgr : CmdMgr
  workPending : Bool
  worker : WorkPc
  request : ℕ → Request
  pc : ℕ → Pc
  /-- The calls whose commands the firmware has and has not confirmed. -/
  sent : List ℕ
  busDown : Bool
  /-- A command timed out while it was on the list. -/
  lost : Bool
  log : List Ev

namespace Sys

def goto (s : Sys) (c : ℕ) (p : Pc) : Sys := { s with pc := Function.update s.pc c p }

def put (s : Sys) (m : CmdMgr) : Sys := { s with mgr := m }

def note (s : Sys) (e : Ev) : Sys := { s with log := s.log++[e] }

def ret (s : Sys) (c : ℕ) (r : ℤ) : Sys := (s.goto c (.returned r)).note (.returned c r)

/-- `aicwf_set_cmd_tx` for the command in slot `k`. -/
def send (s : Sys) (k : ℕ) : Sys :=
  ({ s with sent := s.sent++[(s.mgr.cmdArray k).owner] }).note (.pushed (s.mgr.cmdArray k).owner)

def giveUp (s : Sys) (k : ℕ) : Sys :=
  { s with mgr := s.mgr.timedOut k, lost := s.lost || decide (k ∈ s.mgr.cmds) }

def msgind (s : Sys) (id : ℕ) (cause : Option ℕ) (param : List UInt8) : Sys :=
  match s.mgr.findCmd id with
  | none => s
  | some k =>
    let cmd := s.mgr.cmdArray k
    let s := s.note (.confirmed cmd.owner cause param)
    let s := if cmd.e2aMsg && !param.isEmpty then
      s.note (.wrote cmd.owner (param.take RWNX_CMD_E2AMSG_LEN_MAX)) else s
    s.put (s.mgr.confirm k)

/-- Behind the allocation: to the queue, or past it. -/
def afterMalloc (r : Request) (k : ℕ) : Pc :=
  if r.reqcfm then .queue k
  else if r.via = .sendMsg then .sendNoCfm k else .freeRet k

def initCmd (r : Request) (c : ℕ) (cmd : RwnxCmd) : RwnxCmd :=
  { cmd with
    used := true
    result := -EINTR
    id := r.id
    reqid := r.reqid
    e2aMsg := r.cfm
    flags := { cmd.flags with
      reqCfm := cmd.flags.reqCfm || r.reqcfm
      waitAck := if r.reqcfm then false else cmd.flags.waitAck }
    owner := c }

/-- The critical section of the queue function and where it leads. -/
def queueStep (s : Sys) (c k : ℕ) : Sys :=
  let first := decide (s.mgr.cmds = [])
  let forced := decide ((s.request c).via = .sendMsg1 true)
  let r := if forced then s.mgr.cmdMgrQueueForceDefer k else s.mgr.cmdMgrQueue k
  match r.2 with
  | .refused => (s.put r.1).goto c (.freeRet k)
  | .direct => ((s.put r.1).goto c (.push k)).note (.appended c)
  | .deferred =>
    ((s.put r.1).goto c (if forced then .wake else .deferTest first)).note (.appended c)

/-- One step of a call; `none` when it has ended or waits for its completion. -/
def callStep (s : Sys) (c : ℕ) : Option Sys :=
  let r := s.request c
  match s.pc c with
  | .idle => none
  | .entry => some (if r.via = .sendMsg ∧ s.busDown = true then s.ret c 0 else s.goto c .malloc)
  | .malloc =>
    match s.mgr.freeSlot with
    | none => some (s.goto c .oops)
    | some k => some ((s.put (s.mgr.modify k (initCmd r c))).goto c
        (if r.via = .sendMsg ∧ r.cfm = true then .waitEmpty k else afterMalloc r k))
  | .waitEmpty k =>
    if s.mgr.state = .crashed ∨ s.mgr.cmds = [] then some (s.goto c (afterMalloc r k)) else some s
  | .queue k => some (s.queueStep c k)
  | .sendNoCfm k => some (s.goto c (.freeRet k))
  | .push k =>
    if (s.mgr.cmdArray k).flags.nonblock then
      some (((s.send k).put ((s.send k).mgr.setResult k 0)).ret c 0)
    else some ((s.send k).goto c (.wait k))
  | .wait k =>
    if (s.mgr.cmdArray k).complete = 0 then none
    else some ((s.put (s.mgr.modify k fun cmd => { cmd with complete := cmd.complete-1 })).goto c
      (.freeCmd k))
  | .timedOut k => some ((s.giveUp k).ret c 0)
  | .freeCmd k => some ((s.put (s.mgr.rwnxCmdFree k)).goto c .testEmpty)
  | .testEmpty => some (if s.mgr.cmds = [] then s.ret c 0 else s.goto c .wake)
  | .deferTest _ => some (if s.mgr.queueSz ≤ 1 then s.goto c .wake else s.ret c 0)
  | .wake => some ({ s with workPending := true }.ret c 0)
  | .freeRet k => some ((s.put (s.mgr.rwnxCmdFree k)).ret c 0)
  | .returned _ => none
  | .oops => none

/-- One step of `cmd_mgr_task_process`. -/
def workStep (s : Sys) : Option Sys :=
  match s.worker with
  | .idle => none
  | .scan =>
    match s.mgr.cmds with
    | [] => some { s with worker := .idle }
    | k::_ => some { s with
        worker := if (s.mgr.cmdArray k).flags.waitPush then .clearFlag k else .idle }
  | .clearFlag k =>
    some { s.put (s.mgr.setFlags k fun f => { f with waitPush := false }) with worker := .push k }
  | .push k => some { s.send k with worker := .wait k }
  | .wait k =>
    if (s.mgr.cmdArray k).complete = 0 then none
    else some { s.put (s.mgr.modify k fun cmd => { cmd with complete := cmd.complete-1 }) with
      worker := .freeCmd k }
  | .timedOut k => some { s.giveUp k with worker := .scan }
  | .freeCmd k => some { s.put (s.mgr.rwnxCmdFree k) with worker := .scan }

end Sys

inductive Act where
  | start (c : ℕ) (r : Request)
  | call (c : ℕ)
  | callTimeout (c : ℕ)
  | startWork
  | work
  | workTimeout
  | confirm (c : ℕ) (param : List UInt8)
  | stray (id : ℕ) (param : List UInt8)
  | busDown

/-- `callTimeout` and `workTimeout`: the wait returns 0. `confirm`: the firmware
confirms the command of a call; `stray`: any other message. -/
def step (s : Sys) : Act → Option Sys
  | .start c r =>
    if s.pc c = .idle then
      some ({ s with request := Function.update s.request c r }.goto c .entry)
    else none
  | .call c => s.callStep c
  | .callTimeout c =>
    match s.pc c with
    | .wait k => if (s.mgr.cmdArray k).complete = 0 then some (s.goto c (.timedOut k)) else none
    | _ => none
  | .startWork =>
    if s.workPending = true ∧ s.worker = .idle then
      some { s with workPending := false, worker := .scan }
    else none
  | .work => s.workStep
  | .workTimeout =>
    match s.worker with
    | .wait k => if (s.mgr.cmdArray k).complete = 0 then some { s with worker := .timedOut k } else none
    | _ => none
  | .confirm c param =>
    if c ∈ s.sent then
      some ({ s with sent := s.sent.erase c }.msgind (s.request c).reqid (some c) param)
    else none
  | .stray id param => some (s.msgind id none param)
  | .busDown => some { s with busDown := true }

def initSlot : RwnxCmd where
  used := false
  id := 0
  reqid := 0
  e2aMsg := false
  flags := ⟨false, false, false, false, false, false⟩
  complete := 0
  result := 0
  owner := 0

def init : Sys where
  mgr := ⟨.inited, 0, [], fun _ => initSlot⟩
  workPending := false
  worker := .idle
  request := fun _ => ⟨0, 0, false, false, .sendMsg⟩
  pc := fun _ => .idle
  sent := []
  busDown := false
  lost := false
  log := []

end AIC.CommandMachine
