import Aic8800.Lib.Trace
import Aic8800.SkBuff

/-!
# The receive reorder machine

`reord_ctrl` with its pending list, the timer and the functions that run under
`reord_list_lock`, then `reord_process_unit` around them: the pool of
`recv_msdu` elements, the stations and their controls by TID. Sequence numbers
are kept as the source keeps them, in 16-bit fields compared modulo 4096.
-/

set_option autoImplicit false

namespace AIC.ReorderMachine

def AICWF_REORDER_WINSIZE : ℕ := 64

/-- Bit 11 of the `int` difference. -/
def snLess (a b : ℕ) : Bool := ((a : ℤ)-b)/0x800 % 2 == 1

def snEqual (a b : ℕ) : Bool := a == b

structure RecvMsdu where
  pkt : SkBuff
  tid : ℕ
  seqNum : ℕ
  forward : Bool

structure ReordCtrl where
  enable : Bool
  indSn : ℕ
  wsizeB : ℕ
  reordList : List RecvMsdu
  reordTimer : Bool
  reordTimerWork : Bool

/-- A control as `reord_init_sta` leaves it. -/
def reordInitCtrl : ReordCtrl where
  enable := true
  indSn := 0xFFFF
  wsizeB := AICWF_REORDER_WINSIZE
  reordList := []
  reordTimer := false
  reordTimerWork := false

/-- What becomes of a buffer: `reord_single_frame_ind` called directly by
`reord_process_unit`, the same called for an element taken off the pending
list, or `dev_kfree_skb`. -/
inductive Ind where
  | direct (f : RecvMsdu)
  | listed (f : RecvMsdu)
  | kfree (skb : SkBuff)

/-- The frame `reord_single_frame_ind` passes to the network stack: without
`forward` it frees the buffer instead. -/
def Ind.netif : Ind → Option RecvMsdu
  | .direct f => if f.forward then some f else none
  | .listed f => if f.forward then some f else none
  | .kfree _ => none

def Ind.fromList : Ind → Option RecvMsdu
  | .listed f => some f
  | _ => none

/-- The second component is the source's `-1`. -/
def reordNeedCheck (c : ReordCtrl) (seqNum : ℕ) : ReordCtrl × Bool :=
  let wsize := c.wsizeB
  let wend := (c.indSn+wsize-1) &&& 0xFFF
  let indSn := if c.indSn = 0xFFFF then seqNum else c.indSn
  if snLess seqNum indSn then ({ c with indSn := indSn }, true)
  else if snEqual seqNum indSn then ({ c with indSn := (indSn+1) &&& 0xFFF }, false)
  else if snLess wend seqNum then
    if wsize-1 ≤ seqNum then ({ c with indSn := seqNum-(wsize-1) }, false)
    else ({ c with indSn := 0xFFF-(wsize-(seqNum+1))+1 }, false)
  else ({ c with indSn := indSn }, false)

/-- `none` is the source's `-1`: the sequence number is on the list. -/
def reordRxframeEnqueue (f : RecvMsdu) : List RecvMsdu → Option (List RecvMsdu)
  | [] => some [f]
  | g::gs =>
    if snLess g.seqNum f.seqNum then (reordRxframeEnqueue f gs).map (g :: ·)
    else if snEqual g.seqNum f.seqNum then none else some (f::g::gs)

/-- The `list_for_each_entry` loop of `reord_rxframes_process`: the new
`ind_sn` and `bPktInBuf`. -/
def processLoop (indSn : ℕ) : List RecvMsdu → ℕ × Bool
  | [] => (indSn, false)
  | f::fs =>
    if !snLess indSn f.seqNum then
      if snEqual indSn f.seqNum then processLoop ((indSn+1) &&& 0xFFF) fs
      else processLoop indSn fs
    else (indSn, true)

def reordRxframesProcess (c : ReordCtrl) (bforced : Bool) : ReordCtrl × Bool :=
  match c.reordList with
  | [] => (c, false)
  | f::fs =>
    let r := processLoop (if bforced then f.seqNum else c.indSn) (f::fs)
    ({ c with indSn := r.1 }, r.2)

def reordRxframesInd (c : ReordCtrl) : ReordCtrl × List Ind :=
  ({ c with reordList := c.reordList.dropWhile (fun f => !snLess c.indSn f.seqNum) },
    (c.reordList.takeWhile (fun f => !snLess c.indSn f.seqNum)).map .listed)

/-- `reord_process_unit` from taking `reord_list_lock` on. Byte 42 of the frame
tells an RTP packet; a late one is freed, any other late frame goes straight up. -/
def reordUnit (c : ReordCtrl) (f : RecvMsdu) : ReordCtrl × List Ind :=
  let (c, noNeed) := reordNeedCheck c f.seqNum
  if noNeed then
    if f.pkt.data 42 = 0x80 then
      if f.seqNum = c.indSn then (c, [.direct f]) else (c, [.kfree f.pkt])
    else (c, [.direct f])
  else
    match reordRxframeEnqueue f c.reordList with
    | none => (c, [.kfree f.pkt])
    | some l =>
      let (c, more) := reordRxframesProcess { c with reordList := l } false
      -- mod_timer when frames are left and it is not pending, del_timer when none are
      reordRxframesInd { c with reordTimer := more }

def reordTimeoutHandler (c : ReordCtrl) : ReordCtrl :=
  { c with reordTimer := false, reordTimerWork := true }

def reordTimeoutWorker (c : ReordCtrl) : ReordCtrl × List Ind :=
  let (c, more) := reordRxframesProcess { c with reordTimerWork := false } true
  reordRxframesInd { c with reordTimer := c.reordTimer || more }

inductive Event where
  | arrival (f : RecvMsdu)
  | timeoutHandler
  | timeoutWorker

def step (c : ReordCtrl) : Event → ReordCtrl × List Ind
  | .arrival f => reordUnit c f
  | .timeoutHandler => (reordTimeoutHandler c, [])
  | .timeoutWorker => reordTimeoutWorker c

/-- Every arrival carries a 12-bit sequence number. -/
def Event.Valid : Event → Prop
  | .arrival f => f.seqNum < 4096
  | _ => True

/-! ## Around one control -/

inductive IfType where
  | station | p2pClient | ap | p2pGo | other
  deriving DecidableEq

structure ReordCtrlInfo where
  macAddr : List UInt8
  preorderCtrl : ℕ → ReordCtrl

structure RxPriv where
  rwnxVif : Option IfType
  busDown : Bool
  /-- The number of elements on `rxframes_freequeue`. -/
  rxframesFreequeue : ℕ
  stasReordList : List ReordCtrlInfo

def reordInitSta (mac : List UInt8) : ReordCtrlInfo := ⟨mac, fun _ => reordInitCtrl⟩

/-- A control that `reord_flush_tid` disabled starts afresh, its list apart. -/
def reenable (c : ReordCtrl) : ReordCtrl :=
  if c.enable then c
  else { c with enable := true, indSn := 0xFFFF, wsizeB := AICWF_REORDER_WINSIZE }

def findSta (mac : List UInt8) (stas : List ReordCtrlInfo) : Option ReordCtrlInfo :=
  stas.find? (fun info => info.macAddr == mac)

def putCtrl (mac : List UInt8) (tid : ℕ) (c : ReordCtrl) : List ReordCtrlInfo → List ReordCtrlInfo
  | [] => []
  | info::rest =>
    if info.macAddr == mac then
      { info with preorderCtrl := Function.update info.preorderCtrl tid c }::rest
    else info::putCtrl mac tid c rest

def ETH_P_PAE : ℕ := 0x888E

def ethProto (skb : SkBuff) : ℕ := 256*(skb.data 12).toNat+(skb.data 13).toNat

def isMcast (skb : SkBuff) : Bool := skb.data 0 &&& 1 != 0

/-- The address that keys the station list. -/
def reordMac (t : IfType) (skb : SkBuff) : Option (List UInt8) :=
  match t with
  | .station | .p2pClient => some (skb.slice 0 6)
  | .ap | .p2pGo => some (skb.slice 6 6)
  | .other => none

structure RxUnit where
  skb : SkBuff
  seqNum : ℕ
  tid : ℕ
  forward : Bool

def RxUnit.msdu (u : RxUnit) : RecvMsdu := ⟨u.skb, u.tid, u.seqNum, u.forward⟩

/-- The station's controls, found or initialised; `kmalloc` is the outcome of
the allocation in `reord_init_sta`. -/
def lookupSta (kmalloc : Bool) (p : RxPriv) (mac : List UInt8) :
    Option (List ReordCtrlInfo × ReordCtrlInfo) :=
  match findSta mac p.stasReordList with
  | some info => some (p.stasReordList, info)
  | none =>
    if p.busDown || !kmalloc then none
    else some (p.stasReordList++[reordInitSta mac], reordInitSta mac)

/-- `none`: the TID indexes past `preorder_ctrl[8]`. Every `Ind` puts its
element back on the free queue, except where an error exit loses the element. -/
def reordProcessUnit (kmalloc : Bool) (p : RxPriv) (u : RxUnit) : Option (RxPriv × List Ind) :=
  match p.rwnxVif with
  | none => some (p, [.kfree u.skb])
  | some t =>
    if u.skb.len ≤ 14 then some (p, [.kfree u.skb])
    else if p.rxframesFreequeue = 0 then some (p, [.kfree u.skb])
    else if ethProto u.skb = ETH_P_PAE ∨ isMcast u.skb then some (p, [.direct u.msdu])
    else
      let q := { p with rxframesFreequeue := p.rxframesFreequeue-1 }
      match reordMac t u.skb with
      | none => some (q, [.kfree u.skb])
      | some mac =>
        match lookupSta kmalloc p mac with
        | none => some (q, [.kfree u.skb])
        | some (stas, info) =>
          if 8 ≤ u.tid then none
          else
            let (c, out) := reordUnit (reenable (info.preorderCtrl u.tid)) u.msdu
            some ({ q with
              rxframesFreequeue := q.rxframesFreequeue+out.length
              stasReordList := putCtrl mac u.tid c stas }, out)

def reordProcessUnits (kmalloc : ℕ → Bool) : ℕ → RxPriv → List RxUnit → Option (RxPriv × List Ind)
  | _, p, [] => some (p, [])
  | k, p, u::us => do
    let (q, out) ← reordProcessUnit (kmalloc k) p u
    let (r, rest) ← reordProcessUnits kmalloc (k+1) q us
    some (r, out++rest)

end AIC.ReorderMachine
