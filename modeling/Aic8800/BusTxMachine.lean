import Aic8800.TxAggregate
import Aic8800.Lib.GuardedRun

/-!
# The bus transmit thread

`sdio_bustx_thread` with `aicwf_sdio_tx_process` and the functions under it,
against any number of callers of `aicwf_sdio_bus_txdata` and
`aicwf_sdio_bus_txmsg`. A step of the thread is one test or one access to
shared state; a caller stops between its writes and before it signals the
completion. Register readings, the power state and interrupted waits come from
the environment. The packets taken from the queue and the frames handed to
`aicwf_sdio_txpkt` are recorded for the statements.
-/

set_option autoImplicit false

namespace AIC.BusTxMachine
open AIC.RxAggregate AIC.TxAggregate

def DATA_FLOW_CTRL_THRESH : ℕ := 2
def FLOW_CTRL_RETRY_COUNT : ℕ := 50
def BUFFER_SIZE : ℤ := 1536
def TXQLEN : ℕ := 2048*4

/-! ## The frame queue -/

structure FrameQueue where
  hiPrio : ℕ
  qmax : ℕ
  qcnt : ℕ
  queuelist : ℕ → List TxPkt

namespace FrameQueue

/-- The sum of `aicwf_is_framequeue_empty`. -/
def visible (q : FrameQueue) : ℕ := ∑ prio ∈ Finset.range (q.hiPrio+1), (q.queuelist prio).length

def isEmpty (q : FrameQueue) : Bool := q.visible == 0

/-- The packets on all eight lists. -/
def packets (q : FrameQueue) : ℕ := ∑ prio ∈ Finset.range 8, (q.queuelist prio).length

def full (q : FrameQueue) (prio : ℕ) : Bool :=
  !((q.queuelist prio).length < q.qmax && q.qcnt < q.qmax)

/-- `__skb_queue_tail` in `aicwf_frame_queue_penq`. -/
def link (q : FrameQueue) (prio : ℕ) (pkt : TxPkt) : FrameQueue :=
  { q with queuelist := Function.update q.queuelist prio (q.queuelist prio++[pkt]) }

/-- The rest of `aicwf_frame_queue_penq`. -/
def raise (q : FrameQueue) (prio : ℕ) : FrameQueue :=
  { q with qcnt := q.qcnt+1, hiPrio := if q.hiPrio < prio then prio else q.hiPrio }

/-- The loop that lowers `hi_prio` to a list that is not empty. -/
def settle (lists : ℕ → List TxPkt) : ℕ → ℕ
  | 0 => 0
  | prio+1 => if (lists (prio+1)).isEmpty then settle lists prio else prio+1

/-- `__skb_dequeue` leaves `rest` on the list. -/
def unlink (q : FrameQueue) (prio : ℕ) (rest : List TxPkt) : FrameQueue :=
  { q with
    hiPrio := prio
    qcnt := q.qcnt-1
    queuelist := Function.update q.queuelist prio rest }

def dequeue (q : FrameQueue) : FrameQueue × Option TxPkt :=
  if q.qcnt = 0 then (q, none)
  else
    let prio := settle q.queuelist q.hiPrio
    match q.queuelist prio with
    | [] => ({ q with hiPrio := prio }, none)
    | pkt::rest => (q.unlink prio rest, some pkt)

end FrameQueue

/-! ## Flow control -/

structure Config where
  chipid : ProductId
  txAggrCounter : ℤ

/-- The register without its interrupt bit where the chip has one. -/
def fcReg (chipid : ProductId) (v : UInt8) : ℕ :=
  if chipid.plainHeader then (v &&& 0x7F).toNat else v.toNat

/-- The loop of both flow control functions, with `left` retries from reading `k` on. -/
def flowCtrl (cfg : Config) (thresh : ℕ) (reg : ℕ → Option UInt8) : ℕ → ℕ → ℤ
  | left, k =>
    match reg k with
    | none => -1
    | some v =>
      let fc := fcReg cfg.chipid v
      if thresh < fc then (if cfg.txAggrCounter < fc then cfg.txAggrCounter else fc)
      else match left with
        | 0 => -fc
        | left+1 => flowCtrl cfg thresh reg left (k+1)

def aicwfSdioFlowCtrl (cfg : Config) (reg : ℕ → Option UInt8) : ℤ :=
  flowCtrl cfg DATA_FLOW_CTRL_THRESH reg FLOW_CTRL_RETRY_COUNT 0

def aicwfSdioFlowCtrlMsg (cfg : Config) (reg : ℕ → Option UInt8) : ℤ :=
  flowCtrl cfg 0 reg FLOW_CTRL_RETRY_COUNT 0

/-- What a command takes on the bus: words, a tail, whole blocks. -/
def txMsgLen (cmdLen : ℕ) : ℕ :=
  let len := u16 (roundup (u16 cmdLen) TX_ALIGNMENT)
  if len % SDIOWIFI_FUNC_BLOCKSIZE ≠ 0 then
    u16 ((u16 (len+TAIL_LEN)/SDIOWIFI_FUNC_BLOCKSIZE+1)*SDIOWIFI_FUNC_BLOCKSIZE)
  else len

/-- The credits after the retries of `aicwf_sdio_tx_msg`. -/
def msgCredits (cfg : Config) (len : ℕ) (regs : ℕ → ℕ → Option UInt8) : ℕ → ℕ → ℤ
  | left, k =>
    let cnt := aicwfSdioFlowCtrlMsg cfg (regs k)
    if cnt ≤ 0 ∨ cnt*BUFFER_SIZE < len then
      match left with
      | 0 => cnt
      | left+1 => msgCredits cfg len regs left (k+1)
    else cnt

/-- The command goes out. On the 8800DC nothing is asked, on the 8800DW nothing is sent. -/
def msgAccepted (chipid : ProductId) (len : ℕ) (cnt : ℤ) : Bool :=
  match chipid with
  | .aic8801 | .aic8800D80 => 0 < cnt && (len : ℤ) < cnt*BUFFER_SIZE
  | .aic8800DC => true
  | .aic8800DW => false

/-! ## State and steps -/

/-- What the holder of `txqlock` has done so far. -/
inductive Enq where
  | free | linked (prio : ℕ) | raised
  deriving DecidableEq

/-- Where the thread is. `returned` is the end of `aicwf_sdio_tx_process`; the flag is `txnow`. -/
inductive Pc where
  | waiting | woken | start | cmdTest | cmdCtl | msgFlow | msgSend (len : ℕ) (cnt : ℤ)
  | dataCtl | first | loop | body | send (now : Bool) | deq (now : Bool) | flush (now : Bool)
  | returned
  deriving DecidableEq

/-- `signals`: callers on their way to `complete(&bus_if->bustx_trgg)`. -/
structure Bus where
  busUp : Bool
  txq : FrameQueue
  enq : Enq
  txPktcnt : ℤ
  signals : ℕ
  cmdTxstate : Bool
  cmdLen : ℕ
  cmdTxsema : Bool
  bustxTrgg : ℕ
  fwAvailBufcnt : ℤ
  aggr : AggrBuf
  pc : Pc
  taken : List TxPkt
  transfers : List (List UInt8)

def init : Bus where
  busUp := true
  txq := ⟨0, TXQLEN, 0, fun _ => []⟩
  enq := .free
  txPktcnt := 0
  signals := 0
  cmdTxstate := false
  cmdLen := 0
  cmdTxsema := false
  bustxTrgg := 0
  fwAvailBufcnt := 0
  aggr := .empty
  pc := .waiting
  taken := []
  transfers := []

/-- What the environment answers to a step of the thread. -/
structure Io where
  interrupted : Bool
  active : Bool
  reg : ℕ → Option UInt8
  msgRegs : ℕ → ℕ → Option UInt8

namespace Bus

/-- `down_interruptible(&txctl_sema)` and the test of `sdiodev->state`. -/
def refused (io : Io) : Bool := io.interrupted || !io.active

def room (s : Bus) : ℤ := s.fwAvailBufcnt-DATA_FLOW_CTRL_THRESH

/-- `aicwf_sdio_aggr_send` and the reset, after the credits were taken off. -/
def aggrSend (s : Bus) : Bus :=
  { s with
    fwAvailBufcnt := s.fwAvailBufcnt-s.aggr.aggrCount
    transfers := s.transfers++[linkTail s.aggr.bytes]
    aggr := aicwfSdioAggrbufReset }

/-- After `aicwf_sdio_send`: the loop, or the break behind a pending command. -/
def sent (now : Bool) : Pc := if now then .returned else .loop

def sdioSend (s : Bus) (now : Bool) : Bus :=
  if (s.aggr.aggrCount = 0 ∧ s.aggr.bytes.length ≠ 0) ∨
      (s.aggr.aggrCount ≠ 0 ∧ s.aggr.bytes.length = 0) then
    { s with
      aggr := if 0 < s.aggr.bytes.length then aicwfSdioAggrbufReset else s.aggr
      pc := sent now }
  else if (s.aggr.aggrCount : ℤ) = s.room then
    if 0 < s.aggr.aggrCount then { s.aggrSend with pc := sent now } else { s with pc := sent now }
  else { s with pc := .deq now }

def sdioDeq (cfg : Config) (s : Bus) (now : Bool) : Bus :=
  match s.txq.dequeue with
  | (txq, none) => { s with txq := txq, pc := sent now }
  | (txq, some pkt) => { s with
      txq := txq
      txPktcnt := s.txPktcnt-1
      aggr := aicwfSdioAggr cfg.chipid s.aggr pkt
      taken := s.taken++[pkt]
      pc := .flush now }

def sdioFlush (s : Bus) (now : Bool) : Bus :=
  if s.txPktcnt = 0 ∨ now = true ∨ (s.aggr.aggrCount : ℤ) = s.room then
    { s.aggrSend with pc := sent now }
  else { s with pc := sent now }

/-- The body of the data loop, up to the call of `aicwf_sdio_send`. -/
def loopBody (cfg : Config) (s : Bus) (io : Io) : Bus :=
  if s.busUp = false then { s with pc := .returned }
  else if s.fwAvailBufcnt ≤ DATA_FLOW_CTRL_THRESH then
    if s.cmdTxstate then { s with pc := .returned }
    else { s with fwAvailBufcnt := aicwfSdioFlowCtrl cfg io.reg, pc := .loop }
  else { s with pc := .send s.cmdTxstate }

/-- The credits are asked for only on these two chips. -/
def msgFlow (cfg : Config) (s : Bus) (io : Io) : Bus :=
  let len := txMsgLen s.cmdLen
  match cfg.chipid with
  | .aic8801 | .aic8800D80 => { s with pc := .msgSend len (msgCredits cfg len io.msgRegs 10 0) }
  | _ => { s with pc := .msgSend len 0 }

def threadStep (cfg : Config) (s : Bus) (io : Io) : Option Bus :=
  match s.pc with
  | .waiting =>
    if 0 < s.bustxTrgg then some { s with bustxTrgg := s.bustxTrgg-1, pc := .woken } else none
  | .woken =>
    some { s with
      pc := if s.busUp ∧ (0 < s.txPktcnt ∨ s.cmdTxstate) then .start else .waiting }
  | .start => some { s with pc := if s.busUp then .cmdTest else .returned }
  | .cmdTest => some { s with pc := if s.cmdTxstate then .cmdCtl else .dataCtl }
  | .cmdCtl => some { s with pc := if refused io then .returned else .msgFlow }
  | .msgFlow => some (s.msgFlow cfg io)
  | .msgSend len cnt =>
    if s.cmdTxsema then none
    else if msgAccepted cfg.chipid len cnt then some { s with cmdTxstate := false, pc := .dataCtl }
    else some { s with pc := .dataCtl }
  | .dataCtl => some { s with pc := if refused io then .returned else .first }
  | .first =>
    some { s with
      fwAvailBufcnt := if s.txq.isEmpty then s.fwAvailBufcnt else aicwfSdioFlowCtrl cfg io.reg
      pc := .loop }
  | .loop => some { s with pc := if s.txq.isEmpty then .returned else .body }
  | .body => some (s.loopBody cfg io)
  | .send now => some (s.sdioSend now)
  | .deq now => if s.enq = .free then some (s.sdioDeq cfg now) else none
  | .flush now => some (s.sdioFlush now)
  | .returned => some { s with pc := .waiting }

end Bus

inductive Act where
  | txdata (pkt : TxPkt) (priority : ℕ)
  | raise
  | count
  | txmsg
  | msglen (len : ℕ)
  | complete
  | busDown
  | thread (io : Io)

/-- A packet that finds the bus down or its list full is freed. -/
def step (cfg : Config) (s : Bus) : Act → Option Bus
  | .txdata pkt priority =>
    let prio := priority &&& 0x7
    if s.busUp = false then some s
    else if s.enq ≠ .free then none
    else if s.txq.full prio then some s
    else some { s with txq := s.txq.link prio pkt, enq := .linked prio }
  | .raise =>
    match s.enq with
    | .linked prio => some { s with txq := s.txq.raise prio, enq := .raised }
    | _ => none
  | .count =>
    if s.enq = .raised then
      some { s with txPktcnt := s.txPktcnt+1, enq := .free, signals := s.signals+1 }
    else none
  | .txmsg =>
    if s.cmdTxsema then none else some { s with cmdTxstate := true, cmdTxsema := true }
  | .msglen len =>
    if s.cmdTxsema then
      some { s with
        cmdLen := len, cmdTxsema := false
        signals := if s.busUp then s.signals+1 else s.signals }
    else none
  | .complete =>
    if 0 < s.signals then some { s with signals := s.signals-1, bustxTrgg := s.bustxTrgg+1 }
    else none
  | .busDown => some { s with busUp := false }
  | .thread io => s.threadStep cfg io

end AIC.BusTxMachine
