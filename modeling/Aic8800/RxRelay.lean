import Aic8800.RxDataAccess

/-!
# Where received frames are given to

`rwnx_rxdataind_aicwf` behind the hardware header once more. What is told here
is not the buffer but each MSDU that comes out of it: whether it is sent again
on the wireless interface, handed to the network stack, or queued by the reorder
functions to be handed up from there. Around it the calls that move what is
queued, and for each MSDU of an access point the places it came to so far.
-/

set_option autoImplicit false

namespace AIC.RxRelay
open AIC.ReorderMachine AIC.MsduPool AIC.RxDataInd Lib.LoopRun
open AIC.DefragMachine (RxFrame Outcome)
open AIC.RxDataAccess (NX_REMOTE_STA_MAX)

/-- `dev_queue_xmit` of a copy, and `netif_rx` or `netif_receive_skb`. -/
inductive Place where
  | wireless | stack
  deriving DecidableEq

/-- An MSDU with its Ethernet header and the places it was given to. `queued` is that it was given
to `reord_process_unit` to go up from there. -/
structure Handled where
  skb : SkBuff
  places : List Place
  queued : Bool

/-- What is taken from outside. MSDU `j` of turn `i` is copied or not, and the buffer of turn `i` is
split into some frames. -/
structure RelayEnv where
  subAlloc : ℕ → Bool
  copyExpand : ℕ → ℕ → Bool
  amsduTo8023s : ℕ → List SkBuff
  defragAlloc : Bool
  defragRoom : ℕ
  kmalloc : Bool

abbrev Result := Hw × List Handled × List (ℕ × Ind)

section Call
variable (hw : Hw) (env : RelayEnv) (hdr : HwRxhdr)

/-- The copy of an MSDU that is to be sent again. -/
def RelayEnv.resent (i j : ℕ) (resend : Bool) : List Place :=
  if resend && env.copyExpand i j then [.wireless] else []

/-! ## `rwnx_rx_data_skb` -/

def firstMcast (list : List SkBuff) : Bool := list.head?.any isMcast

/-- `resend` and `forward`, from the first frame of the list. -/
def resendForward (vif : Vif) (mcast : Bool) : Bool × Bool :=
  if vif.isAp && !vif.apIsolate then
    if mcast then (true, true) else if inBss hw hdr vif then (true, false) else (false, true)
  else if vif.iftype == .meshPoint then
    if !mcast && hdr.flagsDstIdx != RWNX_INVALID_STA then (true, false) else (false, true)
  else (false, true)

def splitList (i : ℕ) (skb : SkBuff) : List SkBuff :=
  if hdr.flagsIsAmsdu then env.amsduTo8023s i else [skb]

def handList (i : ℕ) (d : Bool × Bool) (list : List SkBuff) : List Handled :=
  list.mapIdx fun j skb => ⟨skb, env.resent i j d.1++if d.2 then [.stack] else [], false⟩

/-- `none`: the list is empty and its first frame is looked at. -/
def rxDataSkb (i : ℕ) (vif : Vif) (skb : SkBuff) : Option (List Handled) :=
  let list := splitList env hdr i skb
  if list.isEmpty && vif.peeks then none
  else some (handList env i (resendForward hw hdr vif (firstMcast list)) list)

/-! ## The A-MSDU loop -/

def amsduTurn (i : ℕ) (skb : SkBuff) : Turn SkBuff Handled Bool :=
  if skb.len ≤ 16 then .stop true
  else if skb.len < subLen skb+14 then .stop true
  else if !env.subAlloc i || subLen skb < 6 then .stop false
  else
    match getVif hw hdr.flagsVifIdx with
    | none => .stop true
    | some vif =>
      match rxDataSkb hw env hdr i vif (subSkb skb) with
      | none => .stop false
      | some hs => .next (skbPull (lenAligned skb) skb) hs

/-- A turn takes a byte at least, so that a loop with more turns than bytes does not end. -/
def amsduLoop (skb : SkBuff) : Option Bool × List Handled :=
  loop (amsduTurn hw env hdr) (skb.len+1) 0 skb

/-! ## The last branch -/

section Branch
variable (k : ℕ) (vif : Vif) (r : Ready)

def reorder (forward : Bool) (places : List Place) : Option Result :=
  ((poolFor hw vif).processUnit env.kmalloc k ⟨r.skb, r.seqNum, r.tid, forward⟩).map fun x =>
    ({ hw with pool := x.1 }, [⟨r.skb, places, forward⟩], x.2)

/-- `reord_flush_tid` for a QoS frame, and then what the branch does with the frame. -/
def flushThen (hs : Option (List Handled)) : Option Result :=
  if r.isQos then do
    let x ← (poolFor hw vif).flushTid k r.skb r.tid
    let hs ← hs
    some ({ hw with pool := x.1 }, hs, x.2)
  else hs.map fun hs => ({ hw with pool := poolFor hw vif }, hs, [])

def staBranch : Option Result :=
  if r.isQos && hdr.flagsNeedReord then reorder hw env k vif r true []
  else flushThen hw k vif r (rxDataSkb hw env hdr 0 vif r.skb)

/-- Whether the stations are isolated is not looked at. -/
def apBranch : Option Result :=
  let resend := isMcast r.skb || inBss hw hdr vif
  let forward := isMcast r.skb || !inBss hw hdr vif
  let places := env.resent 0 0 resend
  if r.isQos && hdr.flagsNeedReord then reorder hw env k vif r forward places
  else flushThen hw k vif r (some [⟨r.skb, places++if forward then [.stack] else [], false⟩])

def branch : Option Result :=
  match vif.iftype with
  | .station | .p2pClient => staBranch hw env hdr k vif r
  | .ap | .p2pGo => apBranch hw env hdr k vif r
  | _ => some ({ hw with pool := poolFor hw vif }, [⟨r.skb, [], false⟩], [])

end Branch

/-! ## The function -/

/-- The interface of a frame: that of the station that sent it. -/
def frameVif : Option Vif := (getVif hw hdr.flagsVifIdx).bind (vlanVif hw hdr)

def deliver (k : ℕ) (f : RxFrame) : Option Result :=
  match frameVif hw hdr with
  | none => some (hw, [], [])
  | some vif => branch hw env hdr k vif (readyOf f)

/-- Behind the fragment path. -/
def finish (k : ℕ) (f : RxFrame) (r : DefragMachine.RwnxHw × List Outcome) : Option Result :=
  if r.1.oops then none
  else
    let t := { hw with defragList := r.1.defragList }
    match r.2 with
    | .whole _ _::_ => deliver t env hdr k f
    | .reassembled bytes _::_ =>
      match getVif hw hdr.flagsVifIdx with
      | none => none
      | some vif => (rxDataSkb t env hdr 0 vif (SkBuff.ofList bytes)).map fun hs => (t, hs, [])
    | _ => some (t, [], [])

/-- `none`: it does not return. -/
def rwnxRxdataindAicwf (k : ℕ) (f : RxFrame) : Option Result :=
  if f.isData && f.isAmsdu then
    let x := amsduLoop hw env hdr (skbPull (f.pullLen-8) f.skb)
    if x.1 = some true then some (hw, x.2, []) else none
  else
    finish hw env hdr k f
      (DefragMachine.rwnxRxdataind env.defragRoom ⟨hw.defragList, false⟩ f env.defragAlloc
        (getVif hw hdr.flagsVifIdx).isSome)

end Call

/-! ## What should become of an MSDU -/

def apLike : NlIftype → Bool
  | .ap | .p2pGo | .apVlan | .meshPoint => true
  | _ => false

inductive Addressee where
  | group | member | outside
  deriving DecidableEq

/-- Who the destination address of a frame is to an interface; `macAddr` are the addresses of the
stations. -/
def addressee (hw : Hw) (macAddr : ℕ → List UInt8) (vif : Vif) (skb : SkBuff) : Addressee :=
  if isMcast skb then .group
  else if (List.range (NX_REMOTE_STA_MAX+NX_VIRT_DEV_MAX)).any fun i =>
      (hw.staTable i).valid && (hw.staTable i).vlanIdx == vif.vifIndex &&
        macAddr i == skb.slice 0 6 then .member
  else .outside

structure Due where
  resend : Bool
  handUp : Bool

/-- Sent again unless the stations are isolated, and handed up unless it is a unicast frame that is
sent again. -/
def due (vif : Vif) (a : Addressee) : Due where
  resend := !vif.apIsolate && a != .outside
  handUp := vif.apIsolate || a != .member

/-- A frame of the station with the sequence number waits already. -/
def waits (p : Pool) (vif : Vif) (r : Ready) : Bool :=
  ((reordMac vif.iftype.reord r.skb).bind fun mac => findInfo mac p.stasReordList).any fun info =>
    (info.preorderCtrl r.tid).reordList.any fun e => e.msdu.seqNum == r.seqNum

/-! ## Calls in a row -/

/-- An MSDU received on buffer `k`. -/
structure Msdu where
  k : ℕ
  due : Due
  duplicate : Bool
  places : List Place

/-- `hung`: a call did not return. -/
structure Machine where
  hw : Hw
  macAddr : ℕ → List UInt8
  next : ℕ
  msdus : List Msdu
  hung : Bool

inductive Act where
  | rxdataind (env : RelayEnv) (hdr : HwRxhdr) (skb : SkBuff)
  | timeoutWorker (mac : List UInt8) (tid : ℕ)
  | deinitSta (mac : List UInt8)
  /-- Interfaces, stations, fragments and the bus change between the calls. -/
  | surroundings (hw : Hw) (macAddr : ℕ → List UInt8)

/-- What waits to be handed up. -/
def waiting (p : Pool) (k : ℕ) : ℕ :=
  (listed p.stasReordList).countP fun e => e.skb == k && e.msdu.forward

/-- What the reorder functions hand up. -/
def handedUp (out : List (ℕ × Ind)) (k : ℕ) : ℕ :=
  out.countP fun x => x.1 == k && x.2.netif.isSome

def Msdu.hand (out : List (ℕ × Ind)) (m : Msdu) : Msdu :=
  { m with places := m.places++List.replicate (handedUp out m.k) .stack }

namespace Machine
variable (s : Machine)

/-- The MSDUs among what was handled: those in data frames for an access point. -/
def received (hdr : HwRxhdr) (f : RxFrame) (hs : List Handled) : List Msdu :=
  match frameVif s.hw hdr with
  | none => []
  | some vif =>
    if f.isData && apLike vif.iftype then
      hs.map fun h => ⟨s.next, due vif (addressee s.hw s.macAddr vif h.skb),
        h.queued && waits s.hw.pool vif (readyOf f), h.places⟩
    else []

def move (pool : Pool) (out : List (ℕ × Ind)) : Machine :=
  { s with hw := { s.hw with pool := pool }, msdus := s.msdus.map (Msdu.hand out) }

end Machine

def step (s : Machine) : Act → Option Machine
  | .rxdataind env hdr skb =>
    let f := frameOf hdr skb
    match rwnxRxdataindAicwf s.hw env hdr s.next f with
    | none => some { s with hung := true }
    | some (hw, hs, out) => some { s with
        hw := hw
        next := s.next+1
        msdus := (s.msdus++s.received hdr f hs).map (Msdu.hand out) }
  | .timeoutWorker mac tid =>
    let x := s.hw.pool.timeoutWorker mac tid
    some (s.move x.1 x.2)
  | .deinitSta mac =>
    let x := s.hw.pool.deinitSta mac
    some (s.move x.1 x.2)
  | .surroundings hw macAddr => some { s with
      hw := { hw with pool := { s.hw.pool with busDown := hw.pool.busDown } }
      macAddr := macAddr }

def init (hw : Hw) (macAddr : ℕ → List UInt8) : Machine where
  hw := { hw with pool := MsduPool.init }
  macAddr := macAddr
  next := 0
  msdus := []
  hung := false

end AIC.RxRelay
