import Aic8800.Lib.GuardedRun
import Aic8800.Lib.LoadedBuffers
import Aic8800.Lib.RunningFrames
import Mathlib.Data.Int.Notation
import Mathlib.Data.List.FinRange

/-!
# The USB receive buffers

`aicwf_usb.c` and `aicwf_process_rxframes` of the USB build. Completions, refills
and the calls of start and stop run at the same time, the receive thread beside
them. A step goes from one access of shared data to the next; what one lock
section does is one step.
-/

set_option autoImplicit false

namespace AIC.UsbRx
open Lib.GuardedRun Lib.LoadedBuffers Lib.RunningFrames

def AICWF_USB_RX_URBS : ℕ := 200
def AICWF_USB_MAX_PKT_SIZE : ℕ := 2048
def MAX_RXQLEN : ℕ := 2000
def RX_HWHRD_LEN : ℕ := 60
def USB_TYPE_CFG : UInt8 := 0x10

inductive UsbState where
  | down | up | sleep
  deriving DecidableEq

abbrev BufId := Fin AICWF_USB_RX_URBS

/-- What the core leaves in an URB, with the contents of its transfer buffer. -/
structure Urb where
  status : ℤ
  actualLength : ℕ
  data : List UInt8
  deriving DecidableEq

/-- A received skb, by its number; `data` is its whole buffer, of which `len` bytes count. -/
structure Skb where
  id : ℕ
  len : ℕ
  data : List UInt8
  deriving DecidableEq

/-- Where a running function stands. -/
inductive Frame where
  | rxComplete (b : BufId) (urb : Urb)
  | enqueue (b : BufId) (skb : Skb)
  | count (b : BufId)
  | put (b : BufId) (schedule : Bool)
  | schedule
  | submitAll
  | get
  | submitRxUrb (b : BufId)
  | allocSkb (b : BufId)
  | submitUrb (b : BufId)
  /-- A buffer goes back; then the result is `-1`. -/
  | putFail (b : BufId)
  | refillFail
  /-- A buffer whose URB was refused goes back; then the result is `0`. -/
  | putRefused (b : BufId)
  | start
  | stop
  /-- `usb_kill_anchored_urbs` waits for the last completion. -/
  | killAnchored
  deriving DecidableEq

/-- Where `aicwf_process_rxframes` stands. -/
inductive Thread where
  | idle
  | dequeue
  | parse (skb : Skb)
  | free (id : ℕ)
  | dec
  deriving DecidableEq

structure State where
  state : UsbState
  /-- `usb_buf->skb` -/
  skb : BufId → Option ℕ
  rxFreeList : List BufId
  submitted : List BufId
  running : List Frame
  /-- `rx_urb_work` is pending. -/
  rxUrbWork : Bool
  rxq : List Skb
  rxCnt : ℤ
  thread : Thread
  /-- So many skbs were allocated. -/
  skbs : ℕ
  freed : List ℕ
  /-- Bytes that were not received were parsed. -/
  overread : Bool

def init : State where
  state := .down
  skb := fun _ => none
  rxFreeList := List.finRange _
  submitted := []
  running := []
  rxUrbWork := false
  rxq := []
  rxCnt := 0
  thread := .idle
  skbs := 0
  freed := []
  overread := false

def State.setSkb (s : State) (b : BufId) (v : Option ℕ) : State :=
  { s with skb := Function.update s.skb b v }

/-- `aicwf_dev_skb_free` -/
def State.skbFree (s : State) (skb : Option ℕ) : State := { s with freed := skb.toList++s.freed }

/-- `aicwf_usb_rx_buf_put` -/
def State.rxBufPut (s : State) (b : BufId) : State := { s with rxFreeList := s.rxFreeList++[b] }

/-- What a function does up to its next access of shared data, and the frame it goes on as.
`ok` is the answer of the allocator or of `usb_submit_urb`. -/
def State.advance (s : State) (f : Frame) (ok : Bool) : State × List Frame :=
  match f with
  | .rxComplete b urb =>
    let t := s.setSkb b none
    if urb.actualLength > AICWF_USB_MAX_PKT_SIZE ∨ urb.status ≠ 0 ∨ urb.actualLength = 0 then
      (t.skbFree (s.skb b), [.put b true])
    else if s.state = .up then
      (t, (s.skb b).toList.map fun id => .enqueue b ⟨id, urb.actualLength, urb.data⟩)
    else (t.skbFree (s.skb b), [.put b false])
  | .enqueue b skb =>
    if s.rxq.length < MAX_RXQLEN then ({ s with rxq := s.rxq++[skb] }, [.count b])
    else (s.skbFree (some skb.id), [.put b false])
  | .count b => ({ s with rxCnt := s.rxCnt+1 }, [.put b true])
  | .put b schedule => (s.rxBufPut b, if schedule then [.schedule] else [])
  | .schedule => ({ s with rxUrbWork := true }, [])
  | .submitAll => (s, if s.state = .up then [.get] else [])
  | .get =>
    match s.rxFreeList with
    | [] => (s, [])
    | b::rest => ({ s with rxFreeList := rest }, [.submitRxUrb b])
  | .submitRxUrb b => (s, if s.state = .up then [.allocSkb b] else [.putFail b])
  | .allocSkb b =>
    if ok then ({ s.setSkb b (some s.skbs) with skbs := s.skbs+1 }, [.submitUrb b])
    else (s, [.putFail b])
  | .submitUrb b =>
    if ok then ({ s with submitted := s.submitted++[b] }, [.get])
    else ((s.setSkb b none).skbFree (s.skb b), [.putRefused b])
  | .putFail b => (s.rxBufPut b, [.refillFail])
  | .refillFail => (s, if s.state = .up then [.get] else [])
  | .putRefused b => (s.rxBufPut b, [.get])
  | .start => ({ s with state := .up }, [.submitAll])
  | .stop => ({ s with state := .down }, [.killAnchored])
  | .killAnchored => (s, [])

/-- The length field of a received buffer, read from its first two bytes. -/
def Skb.pktLen (skb : Skb) : ℕ := (skb.data.getD 0 0).toNat+256*(skb.data.getD 1 0).toNat

def Skb.isCfg (skb : Skb) : Bool := skb.data.getD 2 0 &&& USB_TYPE_CFG == USB_TYPE_CFG

/-- The bytes that `aicwf_process_rxframes` reads of an skb; `ok` is the answer of the
allocator. -/
def Skb.parsed (skb : Skb) (ok : Bool) : ℕ :=
  if skb.pktLen > 1600 then 2
  else if !ok then 3
  else if skb.isCfg then skb.pktLen+4
  else skb.pktLen+RX_HWHRD_LEN

def State.process (s : State) (ok : Bool) : State :=
  match s.thread with
  | .idle => { s with thread := .dequeue }
  | .dequeue =>
    match s.rxq with
    | [] => { s with thread := .idle }
    | skb::rest => { s with rxq := rest, thread := .parse skb }
  | .parse skb =>
    let t := { s with overread := s.overread || decide (skb.len < skb.parsed ok) }
    if skb.pktLen > 1600 ∨ ok = true then { t with thread := .free skb.id }
    -- Without room for a copy a data frame is left as it is, and a message ends the run.
    else if skb.isCfg then { t.skbFree (some skb.id) with thread := .idle }
    else { t with thread := .dequeue }
  | .free id => { s.skbFree (some id) with thread := .dec }
  | .dec => { s with rxCnt := s.rxCnt-1, thread := .dequeue }

inductive Act where
  | complete (b : BufId) (urb : Urb)
  | work
  | start
  | stop
  | advance (f : Frame) (ok : Bool)
  | process (ok : Bool)

def State.call (s : State) (f : Frame) : State := { s with running := f::s.running }

def State.goOn (s : State) (f : Frame) (ok : Bool) : State :=
  { (s.advance f ok).1 with running := Lib.RunningFrames.goOn s.running f (s.advance f ok).2 }

def State.Ready (s : State) (f : Frame) : Prop :=
  f ∈ s.running ∧ (f = .killAnchored → s.submitted = [])

instance (s : State) (f : Frame) : Decidable (s.Ready f) :=
  inferInstanceAs (Decidable (_ ∧ (_ → _)))

def step (s : State) : Act → Option State
  | .complete b urb =>
    if b ∈ s.submitted then
      some ({ s with submitted := s.submitted.erase b }.call (.rxComplete b urb))
    else none
  | .work => if s.rxUrbWork then some ({ s with rxUrbWork := false }.call .submitAll) else none
  | .start => some (if s.state = .up then s else s.call .start)
  | .stop => some (if s.state = .down then s else s.call .stop)
  | .advance f ok => if s.Ready f then some (s.goOn f ok) else none
  | .process ok => some (s.process ok)

/-! ## What the claim of the buffers is about -/

/-- Buffers that a function holds without an skb. -/
@[simp] def Frame.empty : Frame → List BufId
  | .enqueue b _ | .count b | .put b _ | .submitRxUrb b | .allocSkb b | .putFail b
  | .putRefused b => [b]
  | _ => []

/-- Buffers that a function holds with their skb. -/
@[simp] def Frame.loaded : Frame → List BufId
  | .rxComplete b _ | .submitUrb b => [b]
  | _ => []

/-- The skb that a function has taken out of its buffer. -/
@[simp] def Frame.skb : Frame → List ℕ
  | .enqueue _ skb => [skb.id]
  | _ => []

def Thread.skb : Thread → List ℕ
  | .parse skb => [skb.id]
  | .free id => [id]
  | _ => []

def State.held (s : State) : List BufId :=
  s.running.flatMap Frame.empty++s.running.flatMap Frame.loaded

/-- The skbs outside the buffers and not freed. -/
def State.moving (s : State) : List ℕ :=
  s.running.flatMap Frame.skb++s.rxq.map Skb.id++s.thread.skb

def State.Quiet (s : State) : Prop := s.running = [] ∧ s.thread = .idle

structure Sound (s : State) : Prop where
  /-- Free, submitted or held by one function. -/
  placed : ∀ b, s.rxFreeList.count b+s.submitted.count b+s.held.count b = 1
  /-- An skb is in one buffer, or moves, or was freed once. -/
  freed : ∀ n < s.skbs,
    ((List.finRange _).filterMap s.skb).count n+s.moving.count n+s.freed.count n = 1
  inside : s.overread = false
  counted : s.Quiet → s.rxCnt = s.rxq.length
  refilled : s.Quiet → s.state = .up → s.rxFreeList ≠ [] → s.rxUrbWork = true

end AIC.UsbRx
