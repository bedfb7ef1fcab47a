import Aic8800.Lib.GuardedRun
import Mathlib.Tactic

/-!
# Commands while the chip is started

The command manager of the start-up module. A command is shared by the caller
that waits for it, by the list and by whoever takes it off the list. Its memory
and that of its message are only counted as they are freed, and the confirmation
that a message is meant as is recorded beside it.
-/

set_option autoImplicit false

namespace AIC.BspCommand
open Lib.GuardedRun

abbrev CallId := ℕ

def RWNX_CMD_MAX_QUEUED : ℕ := 8
def EPIPE : ℤ := 32
def ENOMEM : ℤ := 12
def ETIMEDOUT : ℤ := 110

/-- No caller sets `RWNX_CMD_FLAG_NONBLOCK`. -/
structure Flags where
  reqCfm : Bool
  waitPush : Bool
  waitAck : Bool
  waitCfm : Bool
  done : Bool
  deriving DecidableEq

def Flags.waitComplete (f : Flags) : Bool := !(f.waitAck || f.waitCfm)

/-- How far a call of `rwnx_send_msg` has come. -/
inductive Place where
  | queueing
  | pushing
  | waiting
  | timedOut
  | returned (ret : ℤ)
  deriving DecidableEq

/-- A call with its command. `completed`: `complete` was called for it. `confirmed`: the
confirmation that the firmware sent for this command has come, whoever was given it. -/
structure Call where
  reqid : ℕ
  reqcfm : Bool
  cfm : Bool
  allocated : Bool
  flags : Flags
  completed : Bool
  place : Place
  cmdFrees : ℕ
  msgFrees : ℕ
  confirmed : Bool
  deriving DecidableEq

/-- `late`: a confirmation was written to `cfm` of a call that had returned. -/
structure Mgr where
  busDown : Bool
  crashed : Bool
  queueSz : ℕ
  cmds : List CallId
  calls : CallId → Option Call
  late : Bool

/-- The counter of 32 bits. -/
def inc32 (n : ℕ) : ℕ := if n+1 = 2^32 then 0 else n+1
def dec32 (n : ℕ) : ℕ := if n = 0 then 2^32-1 else n-1

namespace Mgr
variable (m : Mgr)

def put (c : CallId) (k : Call) : Mgr := { m with calls := Function.update m.calls c (some k) }

/-- `rwnx_send_msg` up to `cmd_mgr.queue`, or up to its end. -/
def sendMsg (c : CallId) (reqid : ℕ) (reqcfm cfm : Bool) : Mgr :=
  m.put c {
    reqid := reqid
    reqcfm := reqcfm
    cfm := cfm
    allocated := !m.busDown
    flags := ⟨reqcfm, false, false, false, false⟩
    completed := false
    place := if m.busDown then .returned 0 else if reqcfm then .queueing else .returned 0
    cmdFrees := if m.busDown then 0 else if reqcfm then 0 else 1
    msgFrees := if m.busDown then 1 else 0
    confirmed := false }

/-- The last command on the list still waits to be pushed, or for its acknowledgement. -/
def deferPush : Bool :=
  match m.cmds.getLast? with
  | none => false
  | some last => (m.calls last).any fun k => k.flags.waitAck || k.flags.waitPush

/-- `cmd_mgr_queue` as far as it holds the lock. -/
def cmdMgrQueue (c : CallId) (k : Call) : Mgr :=
  if m.crashed then m.put c { k with place := .returned (-EPIPE) }
  else if m.cmds ≠ [] ∧ m.queueSz = RWNX_CMD_MAX_QUEUED then
    m.put c { k with place := .returned (-ENOMEM) }
  else
    { m.put c { k with
        flags := { k.flags with
          waitPush := k.flags.waitPush || m.deferPush
          waitCfm := k.flags.waitCfm || k.flags.reqCfm }
        completed := false
        place := if m.deferPush then .returned 0 else .pushing } with
      cmds := m.cmds++[c]
      queueSz := inc32 m.queueSz }

/-- The message is sent and freed, and the wait begins. -/
def push (c : CallId) (k : Call) : Mgr :=
  m.put c { k with msgFrees := k.msgFrees+1, place := .waiting }

def cmdComplete (c : CallId) (k : Call) : Mgr :=
  { m.put c { k with
      flags := { k.flags with done := true }
      completed := k.completed || k.flags.waitComplete } with
    cmds := m.cmds.erase c
    queueSz := dec32 m.queueSz }

/-- The wait has ended with the command, or with a negative value. -/
def freeCmd (c : CallId) (k : Call) : Mgr :=
  m.put c { k with cmdFrees := k.cmdFrees+1, place := .returned 0 }

/-- What follows a wait that timed out. -/
def expire (c : CallId) (k : Call) : Mgr :=
  let m := { m with crashed := true }
  let k := { k with place := .returned (-ETIMEDOUT) }
  if k.flags.done then m.put c k else m.cmdComplete c k

/-- The first command on the list that waits for a confirmation with this id. -/
def firstWaiting (id : ℕ) : Option CallId :=
  m.cmds.find? fun c => (m.calls c).any fun k => decide (k.reqid = id) && k.flags.waitCfm

/-- Whether a confirmation is written to `cfm` of a call that has returned. -/
def lateWrite (k : Call) (empty : Bool) : Bool :=
  k.cfm && !empty &&
    match k.place with
    | .returned _ => true
    | _ => false

def answer (c : CallId) (k : Call) : Mgr :=
  let k := { k with flags := { k.flags with waitCfm := false } }
  if k.flags.waitComplete then m.cmdComplete c k else m.put c k

/-- No handler of the start-up module has a callback. -/
def cmdMgrMsgind (id : ℕ) (empty : Bool) : Mgr :=
  match m.firstWaiting id with
  | none => m
  | some c =>
    match m.calls c with
    | none => m
    | some k => { m.answer c k with late := m.late || lateWrite k empty }

/-- The confirmation that the firmware sent for a command has come. -/
def confirm (origin : Option CallId) : Mgr :=
  match origin with
  | none => m
  | some c =>
    match m.calls c with
    | none => m
    | some k => m.put c { k with confirmed := true }

def cmdMgrDrain : Mgr where
  busDown := m.busDown
  crashed := m.crashed
  queueSz := dec32^[m.cmds.length] m.queueSz
  cmds := []
  calls c := (m.calls c).map fun k => if c ∈ m.cmds then { k with completed := true } else k
  late := m.late

end Mgr

/-- How `wait_for_completion_killable_timeout` returns. -/
inductive Wakeup where
  | done
  | timedOut
  | killed
  deriving DecidableEq

inductive Act where
  | sendMsg (c : CallId) (reqid : ℕ) (reqcfm cfm : Bool)
  | queue (c : CallId)
  | push (c : CallId)
  | wake (c : CallId) (how : Wakeup)
  | expire (c : CallId)
  | msgind (id : ℕ) (origin : Option CallId) (empty : Bool)
  | drain
  | bus (down : Bool)

/-- The call of a step, where it has come to that step. -/
def Mgr.callAt (m : Mgr) (c : CallId) (p : Place) : Option Call :=
  (m.calls c).filter fun k => decide (k.place = p)

/-- A command is completed for the caller that waits for it, and while it is not completed the wait
may time out or be killed. -/
def step (m : Mgr) : Act → Option Mgr
  | .sendMsg c reqid reqcfm cfm =>
    if (m.calls c).isNone then some (m.sendMsg c reqid reqcfm cfm) else none
  | .queue c => (m.callAt c .queueing).map fun k => m.cmdMgrQueue c k
  | .push c => (m.callAt c .pushing).map fun k => m.push c k
  | .wake c how =>
    (m.callAt c .waiting).bind fun k =>
      match how, k.completed with
      | .done, true => some (m.freeCmd c k)
      | .timedOut, false => some (m.put c { k with place := .timedOut })
      | .killed, false => some (m.freeCmd c k)
      | _, _ => none
  | .expire c => (m.callAt c .timedOut).map fun k => m.expire c k
  | .msgind id origin empty => some ((m.confirm origin).cmdMgrMsgind id empty)
  | .drain => some m.cmdMgrDrain
  | .bus down => some { m with busDown := down }

/-- `rwnx_cmd_mgr_init` -/
def init : Mgr where
  busDown := false
  crashed := false
  queueSz := 0
  cmds := []
  calls _ := none
  late := false

end AIC.BspCommand
