import Aic8800.TxConfirmRing
import Aic8800.Lib.HeldPlaces

/-!
# Who frees a transmitted frame

`rwnx_start_xmit` and `rwnx_start_mgmt_xmit` give a frame to a txq. From there
it is pushed to the queue of the bus, copied into the aggregate, and either
freed with the copy or kept until the firmware confirms it by its entry in
`tx_host_id`. Txqs are initialised and flushed, and the bus may stop.
-/

set_option autoImplicit false

namespace AIC.TxOwnership
open AIC.TxConfirmRing (Status retryRequired swRetryRequired SDIO_TXDESC_CNT)

inductive Mem where
  | absent | allocated | freed
  deriving DecidableEq

/-- An skb with its software header. `mgmt` is `TXU_CNTRL_MGMT` of the flags, `frameCtl` the first
byte behind the headroom. -/
structure Frame where
  mgmt : Bool
  frameCtl : UInt8
  ethertype : ℕ
  txq : ℕ
  needCfm : Bool
  hostid : ℕ
  skb : Mem
  hdr : Mem
  deriving DecidableEq

/-- The list of a txq, the queue of the bus, the frames to be confirmed that are in the aggregate,
and those that the firmware has. -/
inductive Place where
  | txq (q : ℕ)
  | bus | aggr | firmware
  deriving DecidableEq

inductive NetdevTx where
  | ok | busy
  deriving DecidableEq

/-- A frame is known by the number of its skb. `cfms` are the confirmations received and not yet
handled. `ret` is what the last step has returned for an skb of the stack, `confirmed` has the
frames that a confirmation has ended, and `fault` says that something was freed twice, or used
without being allocated. -/
structure State where
  frame : ℕ → Frame
  next : ℕ
  place : Place → List ℕ
  active : ℕ → Bool
  lastRetrySkb : ℕ → Option ℕ
  nbRetry : ℕ → ℕ
  txHostId : ℕ → Option ℕ
  txdescFreeIdx : ℕ
  cfms : List (ℕ × Status)
  busUp : Bool
  ret : Option (NetdevTx × ℕ)
  confirmed : List ℕ
  fault : Bool

/-- The test in `rwnx_tx_push`. -/
def Frame.confirms (f : Frame) : Bool :=
  (f.mgmt && (f.frameCtl == 0xd0 || f.frameCtl == 0x10 || f.frameCtl == 0x30)) ||
    f.ethertype == 0x8e88 || f.ethertype == 0xb488

namespace State

def setFrame (s : State) (k : ℕ) (f : Frame) : State :=
  { s with frame := Function.update s.frame k f }

def setPlace (s : State) (p : Place) (l : List ℕ) : State :=
  { s with place := Function.update s.place p l }

/-! ## Memory -/

/-- `dev_alloc_skb`, or an skb of the stack -/
def allocSkb (s : State) (mgmt : Bool) (frameCtl : UInt8) (ethertype : ℕ) : State :=
  { s.setFrame s.next ⟨mgmt, frameCtl, ethertype, 0, false, 0, .allocated, .absent⟩ with
    next := s.next+1 }

def freeSkb (s : State) (k : ℕ) : State :=
  { s.setFrame k { s.frame k with skb := .freed } with
    fault := s.fault || decide ((s.frame k).skb ≠ .allocated) }

/-- `kmem_cache_free(rwnx_hw->sw_txhdr_cache, sw_txhdr)` -/
def freeHdr (s : State) (k : ℕ) : State :=
  { s.setFrame k { s.frame k with hdr := .freed } with
    fault := s.fault || decide ((s.frame k).hdr ≠ .allocated) }

def release (s : State) (k : ℕ) : State := (s.freeHdr k).freeSkb k

/-- The header is found through the skb. -/
def touch (s : State) (k : ℕ) : State :=
  { s with
    fault := s.fault || decide ((s.frame k).skb ≠ .allocated ∨ (s.frame k).hdr ≠ .allocated) }

/-! ## Txqs -/

/-- `rwnx_skb_append`, which needs the old buffer in the list -/
def skbAppend (old k : ℕ) : List ℕ → List ℕ
  | [] => []
  | j::l => if j = old then j::k::l else j::skbAppend old k l

/-- `rwnx_txq_queue_skb` -/
def txqQueueSkb (s : State) (q k : ℕ) (retry : Bool) : State :=
  if !retry then s.setPlace (.txq q) (s.place (.txq q)++[k])
  else
    let t := match s.lastRetrySkb q with
      | none => s.setPlace (.txq q) (k::s.place (.txq q))
      | some old => { s.setPlace (.txq q) (skbAppend old k (s.place (.txq q))) with
        fault := s.fault || decide (old ∉ s.place (.txq q)) }
    { t with
      lastRetrySkb := Function.update s.lastRetrySkb q (some k)
      nbRetry := Function.update s.nbRetry q (s.nbRetry q+1) }

/-- `rwnx_txq_init` -/
def txqInit (s : State) (q : ℕ) : State :=
  { s.setPlace (.txq q) [] with
    active := Function.update s.active q true
    lastRetrySkb := Function.update s.lastRetrySkb q none
    nbRetry := Function.update s.nbRetry q 0 }

def txqFlush (s : State) (q : ℕ) : State :=
  ((s.place (.txq q)).foldl release s).setPlace (.txq q) []

def txqDeinit (s : State) (q : ℕ) : State :=
  if s.active q then { s.txqFlush q with active := Function.update s.active q false } else s

/-! ## Frames come in -/

/-- All of it is commented out. -/
def prepTx : ℤ := 0

/-- The header is allocated and filled. -/
def giveHdr (s : State) (q k : ℕ) : State :=
  s.setFrame k { s.frame k with
    txq := q
    hdr := .allocated }

/-- What `rwnx_start_xmit` finds: whether the skb has to be copied and can be, the txq of the
station, and whether a header can be had. -/
structure Xmit where
  ethertype : ℕ
  copy : Option Bool
  txq : Option ℕ
  hdr : Bool

def freeOk (s : State) (k : ℕ) : State := { s.freeSkb k with ret := some (.ok, k) }

def xmitSkb (s : State) (x : Xmit) (k : ℕ) : State :=
  match x.txq with
  | none => s.freeOk k
  | some q =>
    if !s.active q then s.freeOk k
    else if !x.hdr then s.freeOk k
    else if prepTx ≠ 0 then { (s.giveHdr q k).release k with ret := some (.busy, k) }
    else { (s.giveHdr q k).txqQueueSkb q k false with ret := some (.ok, k) }

/-- `rwnx_start_xmit` -/
def startXmit (s : State) (x : Xmit) : State :=
  let t := s.allocSkb false 0 x.ethertype
  match x.copy with
  | none => t.xmitSkb x s.next
  | some false => t.freeOk s.next
  | some true => ((t.allocSkb false 0 x.ethertype).freeSkb s.next).xmitSkb x (s.next+1)

/-- `rwnx_start_mgmt_xmit` -/
def startMgmtXmit (s : State) (frameCtl : UInt8) (q : ℕ) (skb hdr : Bool) : State :=
  if !s.active q then s
  else if !skb then s
  else if !hdr then (s.allocSkb true frameCtl 0).freeSkb s.next
  else if prepTx ≠ 0 then ((s.allocSkb true frameCtl 0).giveHdr q s.next).release s.next
  else ((s.allocSkb true frameCtl 0).giveHdr q s.next).txqQueueSkb q s.next false

/-! ## Pushing -/

/-- The head of the list is taken, with the count of retries in `rwnx_tx_push`. -/
def txqDequeue (s : State) (q k : ℕ) : State :=
  { s.setPlace (.txq q) ((s.place (.txq q)).erase k) with
    nbRetry := Function.update s.nbRetry q (s.nbRetry q-1)
    lastRetrySkb := Function.update s.lastRetrySkb q
      (if s.nbRetry q = 1 then none else s.lastRetrySkb q) }

def txdescPush (s : State) (k : ℕ) : State :=
  let next := (s.txdescFreeIdx+1) % 2^32
  { s with
    txHostId := Function.update s.txHostId (s.txdescFreeIdx % SDIO_TXDESC_CNT) (some k)
    txdescFreeIdx := if next = 0x80000000 then 0 else next }

/-- `need_cfm`, with the number and the entry where it is set -/
def markCfm (s : State) (k : ℕ) : State :=
  if (s.frame k).confirms then
    (s.setFrame k { s.frame k with
      needCfm := true
      hostid := s.txdescFreeIdx }).txdescPush k
  else s.setFrame k { s.frame k with
    needCfm := false
    hostid := 0 }

/-- `aicwf_sdio_bus_txdata`; `full` says that `aicwf_frame_enq` refuses the frame. -/
def busTxdata (s : State) (k : ℕ) (full : Bool) : State :=
  if !s.busUp || full then s.release k else s.setPlace .bus (s.place .bus++[k])

/-- `rwnx_tx_push` for the first frame of a txq -/
def txPush (s : State) (q k : ℕ) (full : Bool) : State :=
  (((s.txqDequeue q k).touch k).markCfm k).busTxdata k full

/-- `aicwf_sdio_aggr`, for a frame that `aicwf_frame_dequeue` has given -/
def sdioAggr (s : State) (k : ℕ) : State :=
  let t := (s.setPlace .bus ((s.place .bus).erase k)).touch k
  if (s.frame k).needCfm then t.setPlace .aggr (t.place .aggr++[k]) else t.release k

/-- `aicwf_sdio_aggr_send` takes a new aggregate whether or not the old one has been sent. -/
def sdioAggrSend (s : State) (sent : Bool) : State :=
  if sent then
    (s.setPlace .firmware (s.place .firmware++s.place .aggr)).setPlace .aggr []
  else s.setPlace .aggr []

/-! ## Confirmations and the stop -/

/-- `rwnx_txdatacfm` with a status other than zero -/
def txdatacfm (s : State) (k : ℕ) (status : Status) : State :=
  let t := s.setPlace .firmware ((s.place .firmware).erase k)
  if s.busUp && !(s.frame k).mgmt && s.active (s.frame k).txq &&
      (retryRequired status || swRetryRequired status) then
    t.txqQueueSkb (s.frame k).txq k true
  else { t.release k with confirmed := s.confirmed++[k] }

/-- `aicwf_sdio_host_tx_cfm_handler`: the entry is reset, and put back for a status of zero. -/
def txCfmHandler (s : State) (usedIdx : ℕ) (status : Status) : State :=
  match s.txHostId (usedIdx % SDIO_TXDESC_CNT) with
  | none => { s with fault := true }
  | some k =>
    let t := s.touch k
    if status = 0 then t
    else { t with
      txHostId := Function.update s.txHostId (usedIdx % SDIO_TXDESC_CNT) none }.txdatacfm k status

/-- `aicwf_sdio_bus_stop`: `aicwf_frame_queue_flush` frees the skbs alone. -/
def busStop (s : State) : State :=
  { ((s.place .bus).foldl freeSkb s).setPlace .bus [] with busUp := false }

end State

/-! ## Steps -/

inductive Act where
  | startXmit (x : State.Xmit)
  | startMgmtXmit (frameCtl : UInt8) (q : ℕ) (skb hdr : Bool)
  | txqInit (q : ℕ)
  | txqDeinit (q : ℕ)
  | txPush (q : ℕ) (full : Bool)
  | sdioAggr (k : ℕ)
  | sdioAggrSend (sent : Bool)
  | receive (usedIdx : ℕ) (status : Status)
  | confirm
  | busStop

/-- A txq that is not active is not processed. The thread of the bus sends, and receives, while the
bus is up. -/
def act (s : State) : Act → Option State
  | .startXmit x => some (s.startXmit x)
  | .startMgmtXmit frameCtl q skb hdr => some (s.startMgmtXmit frameCtl q skb hdr)
  | .txqInit q => some (s.txqInit q)
  | .txqDeinit q => some (s.txqDeinit q)
  | .txPush q full =>
    if s.active q = true then (s.place (.txq q)).head?.map fun k => s.txPush q k full else none
  | .sdioAggr k => if s.busUp = true ∧ k ∈ s.place .bus then some (s.sdioAggr k) else none
  | .sdioAggrSend sent => if s.busUp = true then some (s.sdioAggrSend sent) else none
  | .receive usedIdx status =>
    if s.busUp = true then some { s with cfms := s.cfms++[(usedIdx, status)] } else none
  | .confirm =>
    s.cfms.head?.map fun c => { s with cfms := s.cfms.tail }.txCfmHandler c.1 c.2
  | .busStop => some s.busStop

def step (s : State) (a : Act) : Option State :=
  if s.fault = true then none else act { s with ret := none } a

def init : State where
  frame _ := ⟨false, 0, 0, 0, false, 0, .absent, .absent⟩
  next := 0
  place _ := []
  active _ := false
  lastRetrySkb _ := none
  nbRetry _ := 0
  txHostId _ := none
  txdescFreeIdx := 0
  cfms := []
  busUp := true
  ret := none
  confirmed := []
  fault := false

/-! ## What should hold -/

def Live (s : State) (k : ℕ) : Prop := (s.frame k).skb = .allocated

/-- The ring has the frame under its own number. -/
def Entered (s : State) (k : ℕ) : Prop :=
  s.txHostId ((s.frame k).hostid % SDIO_TXDESC_CNT) = some k

/-- A confirmation of the frame has been received. -/
def Pending (s : State) (k : ℕ) : Prop :=
  ∃ c ∈ s.cfms, c.2 ≠ 0 ∧ s.txHostId (c.1 % SDIO_TXDESC_CNT) = some k

/-- Something is left that will free the frame: its txq, the bus, or a confirmation that leads to
it. -/
def Owned (s : State) (k : ℕ) : Prop :=
  (∃ q, s.active q = true ∧ k ∈ s.place (.txq q)) ∨
    s.busUp = true ∧ (k ∈ s.place .bus ∨ k ∈ s.place .aggr ∨ k ∈ s.place .firmware) ∧
      ((s.frame k).needCfm = true → Entered s k) ∨
    k ∈ s.place .firmware ∧ Pending s k

structure Right (s : State) : Prop where
  sound : s.fault = false
  together : ∀ k, (s.frame k).hdr = .allocated ↔ Live s k
  owned : ∀ k, Live s k → Owned s k
  single : ∀ p q k, k ∈ s.place p → k ∈ s.place q → p = q
  confirmed : ∀ k ∈ s.confirmed, ∀ p, k ∉ s.place p
  busy : ∀ k, s.ret = some (.busy, k) → (s.frame k).skb ≠ .freed

end AIC.TxOwnership
