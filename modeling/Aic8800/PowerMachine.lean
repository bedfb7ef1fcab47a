import Aic8800.BusTxMachine

/-!
# The power state of the SDIO device

`aicwf_sdio_pwr_stctl` with the functions under it, called by the transmit
thread, by the thread of the received frames and by the power-control thread
that a timer wakes. A step of a thread is one test, one access to a register or
one assignment. The transmit thread is the one of the bus machine, with the
power state it finds; register accesses are answered by the environment.
-/

set_option autoImplicit false

namespace AIC.PowerMachine
open AIC.BusTxMachine hiding init step Act

/-- `SDIO_SLEEP_ST` and `SDIO_ACTIVE_ST`. -/
inductive PowerState where
  | sleep | active
  deriving DecidableEq

inductive Thread where
  | tx | rx | pwrctl
  deriving DecidableEq

/-- Where a thread is in `aicwf_sdio_pwr_stctl`. `wakeWrite n` is a turn of the outer loop of
`aicwf_sdio_wakeup` with `write_retry = n+1`, `wakeRead n m` one of the inner loop with
`read_retry = m+1`, and `wakeEnd n` is behind the loops with `write_retry = n`. -/
inductive Stctl where
  | out | entry (target : PowerState) | down (target : PowerState) | compare (target : PowerState)
  | wakeWrite (n : ℕ) | wakeRead (n m : ℕ) | wakeEnd (n : ℕ)
  | sleepAllow | sleepTest | sleepDown | sleepWrite | sleepEnd
  | up
  deriving DecidableEq

/-- The head of the outer loop of `aicwf_sdio_wakeup`. -/
def Stctl.wakeup : ℕ → Stctl
  | 0 => .wakeEnd 0
  | n+1 => .wakeWrite n

/-- Behind a reading of the sleep register that does not show the acknowledgement. -/
def Stctl.reread (n : ℕ) : ℕ → Stctl
  | 0 => .wakeup n
  | m+1 => .wakeRead n m

/-- Where the power-control thread is, outside `aicwf_sdio_pwr_stctl`. -/
inductive PwrPc where
  | waiting | woken | txCnt | cmdState | rxCnt | rearm
  deriving DecidableEq

/-- `pwrctlWakeupSema` is the thread that holds it. `acked` says that the chip has acknowledged the
last wake-up request and that no sleep request was made since; `sent` are the power states in
which `aicwf_sdio_send_pkt` was called. -/
structure Sdio where
  bus : Bus
  state : PowerState
  pwrctlWakeupSema : Option Thread
  stctl : Thread → Stctl
  pwr : PwrPc
  timer : Bool
  pwrctrlTrgg : ℕ
  rxCnt : ℤ
  scanning : Bool
  isP2pAlive : Bool
  isP2pConnected : Bool
  acked : Bool
  sent : List PowerState

def init : Sdio where
  bus := BusTxMachine.init
  state := .sleep
  pwrctlWakeupSema := none
  stctl := fun _ => .out
  pwr := .waiting
  timer := false
  pwrctrlTrgg := 0
  rxCnt := 0
  scanning := false
  isP2pAlive := false
  isP2pConnected := false
  acked := false
  sent := []

/-- What `aicwf_sdio_writeb` returns, and what `aicwf_sdio_readb` reads. -/
structure Reg where
  written : Bool
  value : Option UInt8

/-- The bit of the sleep register that acknowledges a wake-up request. -/
def Reg.awake (reg : Reg) : Bool :=
  match reg.value with
  | none => false
  | some v => v &&& 0x10 != 0

/-- The next step of the transmit thread hands its buffer to `aicwf_sdio_txpkt`. -/
def flushes (bus : Bus) : Bool :=
  match bus.pc with
  | .send _ =>
    decide (¬ ((bus.aggr.aggrCount = 0 ∧ bus.aggr.bytes.length ≠ 0) ∨
      (bus.aggr.aggrCount ≠ 0 ∧ bus.aggr.bytes.length = 0)) ∧
      (bus.aggr.aggrCount : ℤ) = bus.room ∧ 0 < bus.aggr.aggrCount)
  | .flush now =>
    decide (bus.txPktcnt = 0 ∨ now = true ∨ (bus.aggr.aggrCount : ℤ) = bus.room)
  | _ => false

/-- The next step of the transmit thread calls `aicwf_sdio_send_pkt`. -/
def sends (cfg : Config) (bus : Bus) : Bool :=
  match bus.pc with
  | .msgSend len cnt => !bus.cmdTxsema && msgAccepted cfg.chipid len cnt
  | _ => bus.busUp && flushes bus

namespace Sdio

def goto (s : Sdio) (th : Thread) (pc : Stctl) : Sdio :=
  { s with stctl := Function.update s.stctl th pc }

/-- `aicwf_sdio_pwrctl_timer` with `active_duration`. -/
def armTimer (s : Sdio) : Sdio := { s with timer := s.timer || s.bus.busUp }

def stopTimer (s : Sdio) : Sdio := { s with timer := false }

/-- `aicwf_sdio_sleep_allow` may put the device to sleep. -/
def maySleep (s : Sdio) : Bool :=
  decide (s.state = .active) && !s.scanning && !s.isP2pAlive && !s.isP2pConnected

/-- A step of a thread in `aicwf_sdio_pwr_stctl`. -/
def stctlStep (s : Sdio) (th : Thread) (reg : Reg) : Option Sdio :=
  match s.stctl th with
  | .out => none
  | .entry target => some (s.goto th (if s.bus.busUp then .down target else .out))
  | .down target =>
    if s.pwrctlWakeupSema = none then
      some ({ s with pwrctlWakeupSema := some th }.goto th (.compare target))
    else none
  | .compare target =>
    if s.state = target then
      some ((if target = .active then s.armTimer else s).goto th .up)
    else match target with
      | .active => some (s.goto th (if s.state = .sleep then .wakeup 20 else .up))
      | .sleep => some (s.goto th .sleepAllow)
  | .wakeWrite n =>
    some ({ s with acked := false }.goto th (if reg.written then .wakeRead n 9 else .wakeup n))
  | .wakeRead n m =>
    some (if reg.awake then { s with acked := true }.goto th (.wakeEnd (n+1))
      else s.goto th (.reread n m))
  | .wakeEnd _ => some ({ s with state := .active }.armTimer.goto th .up)
  | .sleepAllow => some (s.goto th (if s.bus.busUp then .sleepTest else .sleepDown))
  | .sleepTest => some (if s.maySleep then s.goto th .sleepWrite else s.armTimer.goto th .up)
  | .sleepDown => some ({ s with acked := false }.stopTimer.goto th .up)
  | .sleepWrite => some ({ s with acked := false }.goto th .sleepEnd)
  | .sleepEnd => some ({ s with state := .sleep }.stopTimer.goto th .up)
  | .up => some ({ s with pwrctlWakeupSema := none }.goto th .out)

/-- A step of `sdio_bustx_thread`, which asks for the active state as it enters
`aicwf_sdio_tx_process`. -/
def txStep (cfg : Config) (s : Sdio) (io : Io) : Option Sdio :=
  (s.bus.threadStep cfg { io with active := decide (s.state = .active) }).map fun bus =>
    { s with
      bus := bus
      sent := if sends cfg s.bus then s.sent++[s.state] else s.sent
      stctl := if s.bus.pc = .start ∧ bus.pc = .cmdTest then
        Function.update s.stctl .tx (.entry .active) else s.stctl }

/-- A step of `aicwf_sdio_pwrctl_thread`. -/
def pwrctlStep (s : Sdio) : Option Sdio :=
  match s.pwr with
  | .waiting =>
    if 0 < s.pwrctrlTrgg then
      some { s with
        pwrctrlTrgg := s.pwrctrlTrgg-1
        pwr := .woken }
    else none
  | .woken => some { s with pwr := if s.bus.busUp then .txCnt else .waiting }
  | .txCnt => some { s with pwr := if s.bus.txPktcnt ≤ 0 then .cmdState else .rearm }
  | .cmdState => some { s with pwr := if s.bus.cmdTxstate then .rearm else .rxCnt }
  | .rxCnt =>
    some (if s.rxCnt = 0 then { s with pwr := .waiting }.goto .pwrctl (.entry .sleep)
      else { s with pwr := .rearm })
  | .rearm => some { s.armTimer with pwr := .waiting }

/-- A step of a thread, inside of `aicwf_sdio_pwr_stctl` or outside. The thread of the received
frames asks for the active state when it has processed them. -/
def threadStep (cfg : Config) (s : Sdio) (th : Thread) (io : Io) (reg : Reg) : Option Sdio :=
  if s.stctl th = .out then
    match th with
    | .tx => s.txStep cfg io
    | .rx => some (s.goto .rx (.entry .active))
    | .pwrctl => s.pwrctlStep
  else s.stctlStep th reg

end Sdio

/-- Not a step of the transmit thread itself. -/
def fromCaller : BusTxMachine.Act → Bool
  | .thread _ => false
  | _ => true

/-- `env` are the callers that give the transmit thread its work, and the bus going down. -/
inductive Act where
  | thread (th : Thread) (io : Io) (reg : Reg)
  | env (a : BusTxMachine.Act)
  | timer
  | rxCnt (n : ℤ)
  | flags (scanning isP2pAlive isP2pConnected : Bool)

def step (cfg : Config) (s : Sdio) : Act → Option Sdio
  | .thread th io reg => s.threadStep cfg th io reg
  | .env a =>
    if fromCaller a then (BusTxMachine.step cfg s.bus a).map fun bus => { s with bus := bus }
    else none
  | .timer =>
    if s.timer then
      some { s with
        timer := false
        pwrctrlTrgg := if s.bus.busUp then s.pwrctrlTrgg+1 else s.pwrctrlTrgg }
    else none
  | .rxCnt n => some { s with rxCnt := n }
  | .flags scanning isP2pAlive isP2pConnected =>
    some { s with
      scanning := scanning
      isP2pAlive := isP2pAlive
      isP2pConnected := isP2pConnected }

end AIC.PowerMachine
