import Aic8800.Lib.GuardedRun
import Aic8800.ReorderMachine

/-!
# The reorder timer

One `reord_ctrl` under three parties. `rwnx_rxdataind_aicwf` calls
`reord_process_unit` and `reord_flush_tid` one after the other in the receive
thread, `reord_timeout_handler` runs in the timer interrupt, and
`reord_timeout_worker` on a work queue. The thread and the worker exclude each
other by `reord_list_lock`; the handler takes no lock, and the tests of
`timer_pending` and `work_pending` are steps apart from what follows them.
-/

set_option autoImplicit false

namespace AIC.ReorderTimer
open AIC.ReorderMachine hiding step
open Lib.GuardedRun

/-- Where the receive thread stands. It holds `reord_list_lock` from `processed`
to `indicate`. -/
inductive RxPhase where
  | idle
  | arrival (f : RecvMsdu)
  | processed (more : Bool)
  | arm
  | disarm
  | indicate
  | flush
  | flushed
  | deleteTimer
  | cancelWork

inductive HandlerPhase where
  | idle
  | entered
  | schedule
  deriving DecidableEq

/-- The worker holds `reord_list_lock` from `processed` to `indicate`. -/
inductive WorkerPhase where
  | idle
  | waiting
  | processed (more : Bool)
  | indicate
  deriving DecidableEq

structure Machine where
  ctrl : ReordCtrl
  rx : RxPhase
  handler : HandlerPhase
  worker : WorkerPhase

def init : Machine := ⟨reordInitCtrl, .idle, .idle, .idle⟩

def RxPhase.holds : RxPhase → Bool
  | .processed _ | .arm | .disarm | .indicate => true
  | _ => false

def RxPhase.isIdle : RxPhase → Bool
  | .idle => true
  | _ => false

def WorkerPhase.holds : WorkerPhase → Bool
  | .processed _ | .indicate => true
  | _ => false

inductive Act where
  | arrive (f : RecvMsdu)
  | flush
  | rxStep
  | expire
  | handlerStep
  | startWork
  | workerStep

/-- Every arrival carries a 12-bit sequence number. -/
def Act.Valid : Act → Prop
  | .arrive f => f.seqNum < 4096
  | _ => True

/-- `reord_process_unit` from the lock to the result of `reord_rxframes_process`,
or to the unlock of a frame that does not enter the list. -/
def lockArrival (m : Machine) (f : RecvMsdu) : Machine :=
  let (c, noNeed) := reordNeedCheck m.ctrl f.seqNum
  if noNeed then { m with ctrl := c, rx := .idle }
  else
    match reordRxframeEnqueue f c.reordList with
    | none => { m with ctrl := c, rx := .idle }
    | some l =>
      let (d, more) := reordRxframesProcess { c with reordList := l } false
      { m with ctrl := d, rx := .processed more }

def setTimer (c : ReordCtrl) (pending : Bool) : ReordCtrl := { c with reordTimer := pending }

def setWork (c : ReordCtrl) (pending : Bool) : ReordCtrl := { c with reordTimerWork := pending }

@[simp] theorem setTimer_reordTimer (c : ReordCtrl) (b : Bool) : (setTimer c b).reordTimer = b := rfl

@[simp] theorem setTimer_reordTimerWork (c : ReordCtrl) (b : Bool) :
    (setTimer c b).reordTimerWork = c.reordTimerWork := rfl

@[simp] theorem setTimer_reordList (c : ReordCtrl) (b : Bool) :
    (setTimer c b).reordList = c.reordList := rfl

@[simp] theorem setWork_reordTimer (c : ReordCtrl) (b : Bool) :
    (setWork c b).reordTimer = c.reordTimer := rfl

@[simp] theorem setWork_reordTimerWork (c : ReordCtrl) (b : Bool) :
    (setWork c b).reordTimerWork = b := rfl

@[simp] theorem setWork_reordList (c : ReordCtrl) (b : Bool) :
    (setWork c b).reordList = c.reordList := rfl

/-- The locked part of `reord_flush_tid`. -/
def emptied (c : ReordCtrl) : ReordCtrl := { c with reordList := [], enable := false }

def indicated (c : ReordCtrl) : ReordCtrl := (reordRxframesInd c).1

/-- The next step of the receive thread; `none` while it waits. -/
def rxStep (m : Machine) : Option Machine :=
  match m.rx with
  | .idle => none
  | .arrival f => if m.worker.holds then none else some (lockArrival m f)
  | .processed more =>
    let next := if more then (if m.ctrl.reordTimer then RxPhase.indicate else .arm)
      else if m.ctrl.reordTimer then .disarm else .indicate
    some { m with rx := next }
  | .arm => some { m with ctrl := setTimer m.ctrl true, rx := .indicate }
  | .disarm => some { m with ctrl := setTimer m.ctrl false, rx := .indicate }
  | .indicate => some { m with ctrl := indicated m.ctrl, rx := .idle }
  | .flush =>
    if m.worker.holds then none else some { m with ctrl := emptied m.ctrl, rx := .flushed }
  | .flushed => some { m with rx := if m.ctrl.reordTimer then .deleteTimer else .cancelWork }
  -- del_timer_sync and cancel_work_sync wait for what is already running
  | .deleteTimer =>
    if m.handler = .idle then some { m with ctrl := setTimer m.ctrl false, rx := .cancelWork }
    else none
  | .cancelWork =>
    if m.worker = .idle then some { m with ctrl := setWork m.ctrl false, rx := .idle } else none

/-- `reord_timeout_handler`, after the timer left the wheel. -/
def handlerStep (m : Machine) : Option Machine :=
  match m.handler with
  | .idle => none
  | .entered => some { m with handler := if m.ctrl.reordTimerWork then .idle else .schedule }
  | .schedule => some { m with ctrl := setWork m.ctrl true, handler := .idle }

/-- `reord_timeout_worker`. -/
def workerStep (m : Machine) : Option Machine :=
  match m.worker with
  | .idle => none
  | .waiting =>
    if m.rx.holds then none
    else
      let (c, more) := reordRxframesProcess m.ctrl true
      some { m with ctrl := c, worker := .processed more }
  | .processed more =>
    some { m with ctrl := if more then setTimer m.ctrl true else m.ctrl, worker := .indicate }
  | .indicate => some { m with ctrl := indicated m.ctrl, worker := .idle }

/-- An arrival enables the control again before it takes the lock, so that the
second test of `enable` in `reord_process_unit` always finds it set. -/
def step (m : Machine) : Act → Option Machine
  | .arrive f =>
    match m.rx with
    | .idle => some { m with ctrl := reenable m.ctrl, rx := .arrival f }
    | _ => none
  | .flush =>
    match m.rx with
    | .idle => some { m with rx := if m.ctrl.enable then .flush else .idle }
    | _ => none
  | .rxStep => rxStep m
  | .expire =>
    if m.ctrl.reordTimer = true ∧ m.handler = .idle then
      some { m with ctrl := setTimer m.ctrl false, handler := .entered }
    else none
  | .handlerStep => handlerStep m
  | .startWork =>
    if m.ctrl.reordTimerWork = true ∧ m.worker = .idle then
      some { m with ctrl := setWork m.ctrl false, worker := .waiting }
    else none
  | .workerStep => workerStep m

/-- No arrival, flush, expiry or work run is under way. -/
def Quiet (m : Machine) : Prop :=
  m.rx.isIdle = true ∧ m.handler = .idle ∧ m.worker = .idle

instance decidableQuiet (m : Machine) : Decidable (Quiet m) := inferInstanceAs (Decidable (_ ∧ _))

/-! ## Without interruption -/

theorem setTimer_self {c : ReordCtrl} {b : Bool} (h : c.reordTimer = b) : setTimer c b = c := by
  subst h
  rfl

/-- From `processed` on, the thread sets the timer as it says and hands the frames up. -/
theorem processed_alone (m : Machine) (more : Bool) :
    ∃ k, exec step { m with rx := .processed more } (List.replicate k .rxStep) =
      some { m with ctrl := indicated (setTimer m.ctrl more), rx := .idle } := by
  by_cases ht : m.ctrl.reordTimer = more
  · refine ⟨2, ?_⟩
    rw [setTimer_self ht]
    cases more <;> simp [exec, step, rxStep, ht]
  · refine ⟨3, ?_⟩
    cases more <;> simp_all [exec, step, rxStep]

/-- The receive thread alone does to the control what `reordUnit` does. -/
theorem arrival_alone (m : Machine) (hr : m.rx = .idle) (hw : m.worker.holds = false)
    (f : RecvMsdu) : ∃ k, exec step m (.arrive f::List.replicate k .rxStep) =
      some { m with ctrl := (reordUnit (reenable m.ctrl) f).1 } := by
  have harrive : step m (.arrive f) = some { m with ctrl := reenable m.ctrl, rx := .arrival f } := by
    simp only [step, hr]
  simp only [exec, harrive, Option.bind_some]
  cases hcheck : reordNeedCheck (reenable m.ctrl) f.seqNum with
  | mk c noNeed =>
    cases noNeed with
    | true =>
      refine ⟨1, ?_⟩
      simp [exec, step, rxStep, hw, lockArrival, reordUnit, hcheck, ← hr]
      split_ifs <;> rfl
    | false =>
      cases henq : reordRxframeEnqueue f c.reordList with
      | none =>
        refine ⟨1, ?_⟩
        simp [exec, step, rxStep, hw, lockArrival, reordUnit, hcheck, henq, ← hr]
      | some l =>
        obtain ⟨k, hk⟩ := processed_alone
          { m with ctrl := (reordRxframesProcess { c with reordList := l } false).1 }
          (reordRxframesProcess { c with reordList := l } false).2
        refine ⟨k+1, ?_⟩
        rw [List.replicate_succ]
        simpa [exec, step, rxStep, hw, lockArrival, reordUnit, hcheck, henq, ← hr, indicated,
          setTimer] using hk

/-- The worker alone, once the work item is pending, is `reordTimeoutWorker`. -/
theorem worker_alone (m : Machine) (hr : m.rx.holds = false) (hw : m.worker = .idle)
    (hp : m.ctrl.reordTimerWork = true) :
    exec step m [.startWork, .workerStep, .workerStep, .workerStep] =
      some { m with ctrl := (reordTimeoutWorker m.ctrl).1 } := by
  simp only [exec, step, workerStep]
  cases hmore : (reordRxframesProcess (setWork m.ctrl false) true).2 with
  | false => simp_all [reordTimeoutWorker, setWork, indicated]
  | true => simp_all [reordTimeoutWorker, setWork, indicated, setTimer]

/-- The handler alone, once the timer is pending, is `reordTimeoutHandler`. -/
theorem handler_alone (m : Machine) (hd : m.handler = .idle) (hp : m.ctrl.reordTimer = true) :
    ∃ k, exec step m (.expire::List.replicate k .handlerStep) =
      some { m with ctrl := reordTimeoutHandler m.ctrl } := by
  cases hw : m.ctrl.reordTimerWork with
  | true =>
    refine ⟨1, ?_⟩
    simp [exec, step, handlerStep, hd, hp, hw, setTimer, reordTimeoutHandler]
  | false =>
    refine ⟨2, ?_⟩
    simp [exec, step, handlerStep, hd, hp, hw, setTimer, setWork, reordTimeoutHandler]

end AIC.ReorderTimer
