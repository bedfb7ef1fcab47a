import Aic8800.BusTxMachine

/-!
# The shared command buffer

`aicwf_set_cmd_tx` writes a message into `bus->cmd_buf` and passes the buffer
on with `aicwf_sdio_bus_txmsg`; `aicwf_sdio_tx_msg` pads and sends it. Any
number of calls and the thread share the one buffer. A step of a call is one
write or one access to `cmd_txsema`, a step of the thread one access or one
block of the transfer. The messages passed so far and the frames transmitted
are recorded for the statements.
-/

set_option autoImplicit false

namespace AIC.CmdBufferMachine
open AIC.RxAggregate AIC.TxAggregate AIC.BusTxMachine

def CMD_BUF_MAX : ℕ := 1536

/-! ## Encoding a message -/

/-- A message is one of the driver's request structures behind a header of four words; each of
them is shorter than the buffer. -/
structure LmacMsg where
  id : ℕ
  destId : ℕ
  srcId : ℕ
  param : List UInt8
  fits : param.length+16 ≤ CMD_BUF_MAX

/-- `sizeof(struct lmac_msg) + param_len`, as the callers pass it. -/
def LmacMsg.len (m : LmacMsg) : ℕ := 8+m.param.length

/-- One access to the buffer. `crc` reads the first three bytes back. -/
inductive Write where
  | clear | byte (i : ℕ) (v : UInt8) | crc
  deriving DecidableEq

def Write.apply : Write → (ℕ → UInt8) → ℕ → UInt8
  | .clear, buf => fun i => if i < CMD_BUF_MAX then 0 else buf i
  | .byte i v, buf => Function.update buf i v
  | .crc, buf => Function.update buf 3 (crc8Ponl107 [buf 0, buf 1, buf 2])

def writeAll (ws : List Write) (buf : ℕ → UInt8) : ℕ → UInt8 :=
  ws.foldl (fun b w => w.apply b) buf

def putBytes : ℕ → List UInt8 → List Write
  | _, [] => []
  | i, v::vs => .byte i v::putBytes (i+1) vs

def putU16 (data : ℕ) : List UInt8 :=
  [UInt8.ofNat (data &&& 0xff), UInt8.ofNat ((data >>> 8) &&& 0xff)]

/-- The fields behind the dummy word. -/
def LmacMsg.fields (m : LmacMsg) : List UInt8 :=
  putU16 m.id++putU16 m.destId++putU16 m.srcId++putU16 m.param.length++m.param

/-- The writes of `aicwf_set_cmd_tx`, in order. -/
def LmacMsg.writes (chipid : ProductId) (m : LmacMsg) : List Write :=
  .clear::putBytes 0 [lengthLow (m.len+4), lengthHigh (m.len+4), 0x11]++
    (if chipid.plainHeader then [.byte 3 0] else [.crc])++putBytes 8 m.fields

/-- What the buffer is to hold. -/
def LmacMsg.encoding (chipid : ProductId) (m : LmacMsg) : List UInt8 :=
  let first := [lengthLow (m.len+4), lengthHigh (m.len+4), 0x11]
  first++[if chipid.plainHeader then 0 else crc8Ponl107 first]++[0, 0, 0, 0]++m.fields

/-! ## Sending it -/

/-- The zeros behind a command: up to a word, and a tail unless it ends on a block. -/
def padCommand (len : ℕ) (buf : ℕ → UInt8) : ℕ → UInt8 :=
  let padded := u16 (roundup len TX_ALIGNMENT)
  let stop := if padded % SDIOWIFI_FUNC_BLOCKSIZE ≠ 0 then padded+TAIL_LEN else padded
  fun i => if len ≤ i ∧ i < stop then 0 else buf i

inductive Stage where
  | writing (rest : List Write) | down | state | length | up
  deriving DecidableEq

/-- A call of `aicwf_set_cmd_tx` that has not returned. -/
structure Call where
  msg : LmacMsg
  stage : Stage

/-- Where the thread is: outside, or in `aicwf_sdio_tx_msg` with what it has read so far. -/
inductive Tx where
  | idle | read | pad (len : ℕ) | flow (len : ℕ) | sema (len : ℕ)
  | sending (len : ℕ) (out : List UInt8) | done
  deriving DecidableEq

structure Chan where
  cmdBuf : ℕ → UInt8
  cmdTxstate : Bool
  cmdLen : ℕ
  cmdTxsema : Bool
  calls : List Call
  tx : Tx
  passed : List LmacMsg
  sent : List (List UInt8)

def init : Chan where
  cmdBuf := fun _ => 0
  cmdTxstate := false
  cmdLen := 0
  cmdTxsema := false
  calls := []
  tx := .idle
  passed := []
  sent := []

/-- The answers of the environment to the thread. `err` is the result of `sdio_writesb`. -/
structure Io where
  refused : Bool
  msgRegs : ℕ → ℕ → Option UInt8
  err : Bool

/-- The credits are asked for only on these two chips. -/
def credits (cfg : Config) (len : ℕ) (io : Io) : ℤ :=
  match cfg.chipid with
  | .aic8801 | .aic8800D80 => msgCredits cfg len io.msgRegs 10 0
  | _ => 0

namespace Chan

def setStage (s : Chan) (i : ℕ) (c : Call) (stage : Stage) : Chan :=
  { s with calls := s.calls.set i { c with stage := stage } }

/-- Call `i` goes on. The pointer assigned with `cmd_txstate` is the same in every call. -/
def callStep (cfg : Config) (s : Chan) (i : ℕ) : Option Chan :=
  match s.calls[i]? with
  | none => none
  | some c =>
    match c.stage with
    | .writing [] => some (s.setStage i c .down)
    | .writing (w::ws) => some { s.setStage i c (.writing ws) with cmdBuf := w.apply s.cmdBuf }
    | .down =>
      if s.cmdTxsema then none else some { s.setStage i c .state with cmdTxsema := true }
    | .state => some { s.setStage i c .length with cmdTxstate := true }
    | .length => some { s.setStage i c .up with cmdLen := (c.msg.encoding cfg.chipid).length }
    | .up => some { s with calls := s.calls.eraseIdx i, cmdTxsema := false }

/-- The next block of the transfer, or its end. -/
def sendBlock (s : Chan) (io : Io) (len : ℕ) (out : List UInt8) : Chan :=
  if out.length < len then
    let block := (List.range (min SDIOWIFI_FUNC_BLOCKSIZE (len-out.length))).map
      fun k => s.cmdBuf (out.length+k)
    { s with tx := .sending len (out++block) }
  else { s with sent := if io.err then s.sent else s.sent++[out], tx := .done }

def txStep (cfg : Config) (s : Chan) (io : Io) : Option Chan :=
  match s.tx with
  | .idle => some { s with tx := if s.cmdTxstate ∧ io.refused = false then .read else .idle }
  | .read => some { s with tx := .pad (u16 s.cmdLen) }
  | .pad len => some { s with cmdBuf := padCommand len s.cmdBuf, tx := .flow (txMsgLen len) }
  | .flow len =>
    some { s with
      tx := if msgAccepted cfg.chipid len (credits cfg len io) then .sema len else .idle }
  | .sema len =>
    if s.cmdTxsema then none else some { s with cmdTxsema := true, tx := .sending len [] }
  | .sending len out => some (s.sendBlock io len out)
  | .done => some { s with cmdTxstate := false, cmdTxsema := false, tx := .idle }

end Chan

inductive Act where
  | begin (m : LmacMsg)
  | call (i : ℕ)
  | tx (io : Io)

def step (cfg : Config) (s : Chan) : Act → Option Chan
  | .begin m => some { s with
      calls := s.calls++[⟨m, .writing (m.writes cfg.chipid)⟩]
      passed := s.passed++[m] }
  | .call i => s.callStep cfg i
  | .tx io => s.txStep cfg io

end AIC.CmdBufferMachine
