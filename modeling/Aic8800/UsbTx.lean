import Aic8800.UsbRx

/-!
# The USB transmit buffers

`aicwf_usb_bus_txdata`, the transmit thread, completions, start and stop. As for
the receive buffers, running functions go on one at a time, from one access of
shared data to the next.
-/

set_option autoImplicit false

namespace AIC.UsbTx
open Lib.GuardedRun Lib.LoadedBuffers Lib.RunningFrames
open AIC.UsbRx (UsbState)

def AICWF_USB_TX_URBS : ℕ := 100
def AICWF_USB_TX_LOW_WATER : ℕ := AICWF_USB_TX_URBS/4
def AICWF_USB_TX_HIGH_WATER : ℕ := AICWF_USB_TX_LOW_WATER*3
def TX_ALIGNMENT : ℕ := 4

abbrev BufId := Fin AICWF_USB_TX_URBS

/-! ## A frame and its storage -/

def sizeofUsbHeader : ℕ := 4
/-- `sizeof(struct txdesc_api)` -/
def sizeofTxdescApi : ℕ := 28
/-- `sizeof(struct rwnx_txhdr)`: a pointer, `L1_CACHE_BYTES` and the confirmation. -/
def sizeofRwnxTxhdr : ℕ := 80

/-- What `rwnx_start_xmit` and `rwnx_start_mgmt_xmit` hand over. -/
structure Pkt where
  needCfm : Bool
  hdrPads : ℕ
  frameLen : ℕ
  deriving DecidableEq

def Pkt.headroom (p : Pkt) : ℕ := sizeofRwnxTxhdr+p.hdrPads

/-- `skb->len` -/
def Pkt.len (p : Pkt) : ℕ := p.headroom+p.frameLen

def roundup (n a : ℕ) : ℕ := (n+a-1)/a*a

/-- Where the last `memcpy` into the copy of a frame ends; `buf_len` is a `u16`. -/
def Pkt.copyEnd (p : Pkt) : ℕ :=
  let index := sizeofUsbHeader+sizeofTxdescApi+(p.len-p.headroom)
  let bufLen := index%65536
  if bufLen%TX_ALIGNMENT = 0 then index else max index (roundup bufLen TX_ALIGNMENT)

/-- What `usb_buf->skb` points to, for the call of `aicwf_usb_bus_txdata` with this number. -/
inductive Store where
  | skb (id : ℕ)
  | copy (id : ℕ)
  deriving DecidableEq

inductive Release where
  | devKfreeSkb
  | kfree
  deriving DecidableEq

def Store.id : Store → ℕ
  | .skb id | .copy id => id

def Store.isCopy : Store → Bool
  | .skb _ => false
  | .copy _ => true

def Store.release : Store → Release
  | .skb _ => .devKfreeSkb
  | .copy _ => .kfree

structure UsbBuf where
  skb : Option Store
  cfm : Bool

/-- A list of buffers with its counter. -/
structure BufQueue where
  list : List BufId
  count : ℤ

def BufQueue.txDequeue (q : BufQueue) : Option BufId × BufQueue :=
  match q.list with
  | [] => (none, q)
  | b::rest => (some b, ⟨rest, q.count-1⟩)

def BufQueue.txQueue (q : BufQueue) (b : BufId) : BufQueue := ⟨q.list++[b], q.count+1⟩

/-! ## The state -/

/-- What a cursor of the walk in `aicwf_usb_cancel_all_urbs` points to; the head of the free list
is no buffer. -/
inductive Node where
  | buf (b : BufId)
  | postHead
  | freeHead
  deriving DecidableEq

/-- Where a running function stands. -/
inductive Frame where
  | txdata (p : Pkt) (id : ℕ)
  | txdataTake (p : Pkt) (id : ℕ)
  | txdataFill (p : Pkt) (id : ℕ) (b : BufId)
  | txdataQueue (b : BufId)
  | txdataFlow
  | complete (b : BufId)
  | completeQueue (b : BufId)
  | completeFlow
  | start
  | prepare
  | prepareTake
  | prepareFree (b : BufId)
  | prepareQueue (b : BufId)
  | stop
  | cancelFirst
  | cancel (pos next : Node)
  deriving DecidableEq

/-- Where `aicwf_usb_tx_process` stands. -/
inductive Thread where
  | idle
  | test
  | checkState
  | take
  | submit (b : BufId)
  | fail (b : BufId)
  | queue (b : BufId)
  deriving DecidableEq

structure Vif where
  up : Bool
  ndev : Bool
  /-- Its queue was stopped by the flow control and not woken. -/
  stopped : Bool

structure State where
  state : UsbState
  buf : BufId → UsbBuf
  free : BufQueue
  post : BufQueue
  submitted : List BufId
  running : List Frame
  thread : Thread
  tbusy : Bool
  vifs : List Vif
  /-- So many calls of `aicwf_usb_bus_txdata` began. -/
  calls : ℕ
  /-- The calls whose frames were put on the post list, and those that were submitted. -/
  accepted : List ℕ
  submits : List ℕ
  released : List (Store × Release)
  /-- Memory outside every allocation was accessed. -/
  stray : Bool

def init (vifs : List (Bool × Bool)) : State where
  state := .down
  buf := fun _ => ⟨none, false⟩
  free := ⟨List.finRange _, AICWF_USB_TX_URBS⟩
  post := ⟨[], 0⟩
  submitted := []
  running := []
  thread := .idle
  tbusy := false
  vifs := vifs.map fun v => ⟨v.1, v.2, false⟩
  calls := 0
  accepted := []
  submits := []
  released := []
  stray := false

def txFlowctrl (state : Bool) (vifs : List Vif) : List Vif :=
  vifs.map fun v => if v.up && v.ndev then { v with stopped := state } else v

def State.setBuf (s : State) (b : BufId) (v : UsbBuf) : State :=
  { s with buf := Function.update s.buf b v }

/-- The call whose frame a buffer carries. -/
def State.load (s : State) (b : BufId) : Option ℕ := (s.buf b).skb.map Store.id

/-- The storage of a buffer is released by `r`, and the pointer cleared. -/
def State.freeBuf (s : State) (b : BufId) (r : Release) : State :=
  { s.setBuf b ⟨none, (s.buf b).cfm⟩ with
    released := (s.buf b).skb.toList.map (·, r)++s.released }

/-- A frame that is not accepted is freed by the caller's own call. -/
def State.drop (s : State) (id : ℕ) : State :=
  { s with released := (.skb id, .devKfreeSkb)::s.released }

def State.flowStop (s : State) : State :=
  if s.free.count < AICWF_USB_TX_LOW_WATER then
    { s with tbusy := true, vifs := txFlowctrl true s.vifs }
  else s

def State.flowWake (s : State) : State :=
  if s.free.count > AICWF_USB_TX_HIGH_WATER ∧ s.tbusy = true then
    { s with tbusy := false, vifs := txFlowctrl false s.vifs }
  else s

/-- The storage of a frame is made and filled; `kmalloc` may fail, which is not tested. -/
def State.fill (s : State) (p : Pkt) (id : ℕ) (b : BufId) (kmalloc : Bool) : State :=
  if p.needCfm then
    { s.setBuf b ⟨some (.copy id), true⟩ with
      stray := s.stray || !kmalloc || decide (p.len < p.copyEnd) }
  else
    { s.setBuf b ⟨some (.skb id), false⟩ with
      stray := s.stray || decide (p.headroom < sizeofTxdescApi+sizeofUsbHeader) }

/-- The next element of the list that a node is linked in now. -/
def State.succ (s : State) : Node → Node
  | .buf b =>
    if b ∈ s.post.list then
      match s.post.list[s.post.list.idxOf b+1]? with
      | some c => .buf c
      | none => .postHead
    else if b ∈ s.free.list then
      match s.free.list[s.free.list.idxOf b+1]? with
      | some c => .buf c
      | none => .freeHead
    -- A buffer on no list was left linked to itself.
    else .buf b
  | .postHead =>
    match s.post.list.head? with
    | some c => .buf c
    | none => .postHead
  | .freeHead =>
    match s.free.list.head? with
    | some c => .buf c
    | none => .freeHead

/-- The loop of `aicwf_usb_cancel_all_urbs` comes to `pos`. -/
def State.cancelAt (s : State) (pos : Node) : List Frame :=
  if pos = .postHead then [] else [.cancel pos (s.succ pos)]

/-! ## Steps -/

/-- What a function does up to its next access of shared data, and the frame it goes on as. -/
def State.advance (s : State) (f : Frame) (ok : Bool) : State × List Frame :=
  match f with
  | .txdata p id => if s.state = .up then (s, [.txdataTake p id]) else (s.drop id, [])
  | .txdataTake p id =>
    match s.free.txDequeue with
    | (none, _) => (s.drop id, [.txdataFlow])
    | (some b, q) => ({ s with free := q }, [.txdataFill p id b])
  | .txdataFill p id b => (s.fill p id b ok, [.txdataQueue b])
  | .txdataQueue b =>
    ({ s with post := s.post.txQueue b, accepted := s.accepted++(s.load b).toList },
      [.txdataFlow])
  | .txdataFlow => (s.flowStop, [])
  | .complete b =>
    (s.freeBuf b (if (s.buf b).cfm then .kfree else .devKfreeSkb), [.completeQueue b])
  | .completeQueue b => ({ s with free := s.free.txQueue b }, [.completeFlow])
  | .completeFlow => (s.flowWake, [])
  | .start => ({ s with state := .up }, [.prepare])
  | .prepare => (s, if s.post.list = [] then [] else [.prepareTake])
  | .prepareTake =>
    match s.post.txDequeue with
    | (none, _) => ({ s with stray := true }, [])
    | (some b, q) => ({ s with post := q }, [.prepareFree b])
  | .prepareFree b => (s.freeBuf b .devKfreeSkb, [.prepareQueue b])
  | .prepareQueue b => ({ s with free := s.free.txQueue b }, [.prepare])
  | .stop => ({ s with state := .down }, [.cancelFirst])
  | .cancelFirst => (s, s.cancelAt (s.succ .postHead))
  | .cancel pos next =>
    if pos = .freeHead then ({ s with stray := true }, []) else (s, s.cancelAt next)

def State.process (s : State) (ok : Bool) : State :=
  match s.thread with
  | .idle => { s with thread := .test }
  | .test => { s with thread := if s.post.list = [] then .idle else .checkState }
  | .checkState => { s with thread := if s.state = .up then .take else .idle }
  | .take =>
    match s.post.txDequeue with
    | (none, _) => { s with thread := .idle }
    | (some b, q) => { s with post := q, thread := .submit b }
  | .submit b =>
    if ok then
      { s with
        submitted := s.submitted++[b]
        submits := s.submits++(s.load b).toList
        thread := .test }
    else { s with thread := .fail b }
  | .fail b => { s.freeBuf b .devKfreeSkb with thread := .queue b }
  | .queue b => { s with free := s.free.txQueue b, thread := .test }

inductive Act where
  | txdata (p : Pkt)
  | complete (b : BufId) (status : ℤ)
  | start
  | stop
  | advance (f : Frame) (ok : Bool)
  | process (ok : Bool)

def State.call (s : State) (f : Frame) : State := { s with running := f::s.running }

def State.goOn (s : State) (f : Frame) (ok : Bool) : State :=
  { (s.advance f ok).1 with running := Lib.RunningFrames.goOn s.running f (s.advance f ok).2 }

def State.Idle (s : State) (b : BufId) : Prop :=
  b ∉ s.submitted ∧ Frame.complete b ∉ s.running ∧ Frame.completeQueue b ∉ s.running

/-- `usb_kill_urb` waits while its URB is submitted or completes. -/
def State.Ready (s : State) (f : Frame) : Prop :=
  f ∈ s.running ∧ match f with
    | .cancel (.buf b) _ => s.Idle b
    | _ => True

instance (s : State) (b : BufId) : Decidable (s.Idle b) := inferInstanceAs (Decidable (_ ∧ _))

instance (s : State) (f : Frame) : Decidable (s.Ready f) := by
  unfold State.Ready
  split <;> infer_instance

def step (s : State) (a : Act) : Option State :=
  if s.stray then none else
  match a with
  | .txdata p => some ({ s with calls := s.calls+1 }.call (.txdata p s.calls))
  | .complete b _ =>
    if b ∈ s.submitted then
      some ({ s with submitted := s.submitted.erase b }.call (.complete b))
    else none
  | .start => some (if s.state = .up then s else s.call .start)
  | .stop => some (if s.state = .down then s else s.call .stop)
  | .advance f ok => if s.Ready f then some (s.goOn f ok) else none
  | .process ok => some (s.process ok)

/-! ## What the claim of the buffers is about -/

/-- Buffers held without storage. -/
@[simp] def Frame.empty : Frame → List BufId
  | .txdataFill _ _ b | .completeQueue b | .prepareQueue b => [b]
  | _ => []

/-- Buffers held with their storage. -/
@[simp] def Frame.loaded : Frame → List BufId
  | .txdataQueue b | .complete b | .prepareFree b => [b]
  | _ => []

/-- The call whose frame has no buffer yet. -/
@[simp] def Frame.entering : Frame → List ℕ
  | .txdata _ id | .txdataTake _ id | .txdataFill _ id _ => [id]
  | _ => []

def Thread.empty : Thread → List BufId
  | .queue b => [b]
  | _ => []

def Thread.loaded : Thread → List BufId
  | .submit b | .fail b => [b]
  | _ => []

def State.held (s : State) : List BufId :=
  s.running.flatMap Frame.empty++s.running.flatMap Frame.loaded++s.thread.empty++s.thread.loaded

def State.Quiet (s : State) : Prop := s.running = [] ∧ s.thread = .idle

structure Sound (s : State) : Prop where
  /-- Free, posted, submitted or held by one function. -/
  placed : ∀ b, s.free.list.count b+s.post.list.count b+s.submitted.count b+s.held.count b = 1
  counts : s.free.count = s.free.list.length ∧ s.post.count = s.post.list.length
  order : s.submits.Sublist s.accepted
  once : s.accepted.Nodup
  /-- The storage of an accepted frame is in one buffer, or was released once. -/
  kept : ∀ n ∈ s.accepted, ((List.finRange _).filterMap s.load).count n+
    (s.released.map fun r => r.1.id).count n = 1
  matching : ∀ r ∈ s.released, r.1.release = r.2
  inside : s.stray = false
  woken : s.Quiet → s.free.count > AICWF_USB_TX_HIGH_WATER → ∀ v ∈ s.vifs, v.stopped = false

end AIC.UsbTx
