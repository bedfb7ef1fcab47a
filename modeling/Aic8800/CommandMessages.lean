import Aic8800.CommandHolders

/-!
# The messages behind the commands

A message is made by `rwnx_msg_zalloc` and named by the call that is to send it.
The parties are those of the command manager, and the builder that has the
message before `rwnx_send_msg` gets it. Each step is given the messages it reads
and those it frees.
-/

set_option autoImplicit false

namespace AIC.CommandMessages
open AIC.CommandMachine hiding step Act
open AIC.CommandLedger (cmdMgrDrain)

/-- The error exits of `rwnx_send_scanu_req` behind the allocation of its request. That of a vendor
element request that was sent is never taken: `rwnx_send_msg` returns 0. -/
inductive Exit where
  | addIfError
  | addIfStatus
  | noIeReq
  deriving DecidableEq

/-- Only `goto error` calls `rwnx_msg_free`. -/
def Exit.frees : Exit → Bool
  | .addIfError => true
  | .addIfStatus | .noIeReq => false

/-- `built`: the message is in the hands of its builder. `late`: one was read after its free. -/
structure Machine where
  sys : Sys
  allocated : ℕ → Bool
  built : ℕ → Bool
  freed : ℕ → ℕ
  late : Bool

def init : Machine where
  sys := CommandMachine.init
  allocated := fun _ => false
  built := fun _ => false
  freed := fun _ => 0
  late := false

section
variable (s : Sys)

/-- The message behind the command in slot `k`. -/
def a2eMsg (k : ℕ) : ℕ := (s.mgr.cmdArray k).owner

/-- The queue functions get as far as the list. -/
def accepted : Prop :=
  s.mgr.state ≠ .crashed ∧ ¬ (s.mgr.cmds ≠ [] ∧ s.mgr.queueSz = RWNX_CMD_MAX_QUEUED)

instance : Decidable (accepted s) := inferInstanceAs (Decidable (_ ∧ _))

/-- The messages that a step reads. -/
def touched : CommandLedger.Act → List ℕ
  | .mgr (.call c) =>
    match s.pc c with
    | .malloc | .sendNoCfm _ => [c]
    -- cmd_mgr_queue_force_defer does not look at the message
    | .queue k =>
      if (s.request c).via = .sendMsg1 true ∨ ¬ accepted s then [] else [a2eMsg s k]
    | .push k => [a2eMsg s k]
    | _ => []
  | .mgr .work =>
    match s.worker with
    | .push k => [a2eMsg s k]
    | _ => []
  | _ => []

/-- The messages that a step frees. -/
def freedBy : CommandLedger.Act → List ℕ
  | .mgr (.call c) =>
    match s.pc c with
    | .entry => if (s.request c).via = .sendMsg ∧ s.busDown = true then [c] else []
    | .push k => [a2eMsg s k]
    | _ => []
  | .mgr .work =>
    match s.worker with
    | .push k => [a2eMsg s k]
    | _ => []
  | _ => []

end

inductive Act where
  | zalloc (c : ℕ)
  | exit (c : ℕ) (e : Exit)
  | cmd (a : CommandLedger.Act)

namespace Machine
variable (m : Machine)

/-- The builder passes the message on as the call starts. -/
def passed : CommandLedger.Act → ℕ → Bool
  | .mgr (.start c _) => Function.update m.built c false
  | _ => m.built

def after (a : CommandLedger.Act) (t : Sys) : Machine where
  sys := t
  allocated := m.allocated
  built := m.passed a
  freed := fun c => m.freed c+(freedBy m.sys a).count c
  late := m.late || (touched m.sys a).any fun c => decide (0 < m.freed c)

/-- A call has a message to send. -/
def ready : CommandLedger.Act → Bool
  | .mgr (.start c _) => m.built c
  | _ => true

end Machine

def step (m : Machine) : Act → Option Machine
  | .zalloc c =>
    if m.allocated c then none
    else some { m with
      allocated := Function.update m.allocated c true
      built := Function.update m.built c true }
  | .exit c e =>
    if m.built c then some { m with
      built := Function.update m.built c false
      freed := if e.frees then Function.update m.freed c (m.freed c+1) else m.freed }
    else none
  | .cmd a => if m.ready a then (CommandLedger.step m.sys a).map (m.after a) else none

end AIC.CommandMessages
