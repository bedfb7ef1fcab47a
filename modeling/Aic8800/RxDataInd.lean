import Aic8800.Lib.LoopRun
import Aic8800.DefragMachine
import Aic8800.MsduPool
import Aic8800.RxAggregate

/-!
# A received frame

`rwnx_rxdataind_aicwf` from the hardware header to the point where the buffer is
gone: the monitor path, the A-MSDU loop, the fragment path of `DefragMachine`,
the interface and station tables, and the calls into the pool of `MsduPool`.
What is freed or handed up is recorded for the buffer passed and for those on
the pending lists, not for buffers allocated and given away on the way.
-/

set_option autoImplicit false

namespace AIC.RxDataInd
open AIC.ReorderMachine AIC.MsduPool Lib.LoopRun
open AIC.DefragMachine (RxFrame DefragCtrlInfo Outcome)
open AIC.RxAggregate (u16 roundup)

def NX_VIRT_DEV_MAX : ℕ := 4
def RWNX_INVALID_STA : ℕ := 0xFF

/-- `sizeof(struct hw_rxhdr)+2`, and the bytes that align what follows. -/
def MSDU_OFFSET : ℕ := 58

inductive NlIftype where
  | station | p2pClient | ap | apVlan | p2pGo | meshPoint | monitor | other
  deriving DecidableEq

/-- The four types that the reorder functions tell apart. -/
def NlIftype.reord : NlIftype → IfType
  | .station => .station
  | .p2pClient => .p2pClient
  | .ap => .ap
  | .p2pGo => .p2pGo
  | _ => .other

structure Vif where
  vifIndex : ℕ
  iftype : NlIftype
  up : Bool
  apIsolate : Bool

structure Sta where
  valid : Bool
  vlanIdx : ℕ

/-- The fields of `struct hw_rxhdr` that decide where the frame goes. -/
structure HwRxhdr where
  isMonitorVif : Bool
  flagsUpload : Bool
  flagsIs80211Mpdu : Bool
  flagsIsAmsdu : Bool
  flagsNeedReord : Bool
  flagsVifIdx : ℕ
  flagsStaIdx : ℕ
  flagsDstIdx : ℕ
  decrStatus : ℕ
  len : ℕ

structure Hw where
  vifTable : ℕ → Option Vif
  staTable : ℕ → Sta
  monitorVif : ℕ
  defragList : List DefragCtrlInfo
  pool : Pool

/-- The result of `ieee80211_amsdu_to_8023s`: it takes the buffer, which becomes the last frame of
the list or is freed. `mcast` is the group bit of the first frame. -/
inductive Split where
  | reused (others : ℕ) (mcast : Bool)
  | freed (frames : ℕ) (mcast : Bool)

def Split.count : Split → ℕ
  | .reused others _ => others+1
  | .freed frames _ => frames

def Split.mcast : Split → Bool
  | .reused _ mcast => mcast
  | .freed _ mcast => mcast

/-- The outcomes of allocations and calls, and the room in the buffers. `headroom` is whether the
radiotap header fits in front, `tailroom` what `skb_put` has from the frame on. -/
structure Env where
  headroom : Bool
  tailroom : ℕ
  copyExpand : Bool
  subAlloc : ℕ → Bool
  amsduTo8023s : ℕ → Split
  defragAlloc : Bool
  defragRoom : ℕ
  kmalloc : Bool

inductive Use where
  | freed | netif
  deriving DecidableEq

def useOf (i : Ind) : Use := if i.netif.isSome then .netif else .freed

/-- `skb_pull`: a buffer that is too short is left as it is. -/
def skbPull (n : ℕ) (skb : SkBuff) : SkBuff :=
  if n ≤ skb.len then ⟨fun i => skb.data (n+i), skb.len-n⟩ else skb

def getVif (hw : Hw) (vifIdx : ℕ) : Option Vif :=
  if vifIdx < NX_VIRT_DEV_MAX then (hw.vifTable vifIdx).filter Vif.up else none

/-! ## One data frame -/

def Vif.isAp (vif : Vif) : Bool :=
  vif.iftype == .ap || vif.iftype == .apVlan || vif.iftype == .p2pGo

/-- The interface looks at the first frame of the list before it dequeues any. -/
def Vif.peeks (vif : Vif) : Bool := vif.isAp && !vif.apIsolate || vif.iftype == .meshPoint

/-- The destination is a station of this interface. -/
def inBss (hw : Hw) (hdr : HwRxhdr) (vif : Vif) : Bool :=
  hdr.flagsDstIdx != RWNX_INVALID_STA && (hw.staTable hdr.flagsDstIdx).valid &&
    (hw.staTable hdr.flagsDstIdx).vlanIdx == vif.vifIndex

/-- `rwnx_rx_data_skb`: what becomes of `skb` in it, and the result. `none`: the list is empty and
its first frame is looked at. A copy is sent where the frame is to be sent again. -/
def rxDataSkb (hw : Hw) (hdr : HwRxhdr) (vif : Vif) (skb : SkBuff) (split : Split) :
    Option (List Use × Bool) :=
  if hdr.flagsIsAmsdu && split.count == 0 && vif.peeks then none
  else
    let mcast := if hdr.flagsIsAmsdu then split.mcast else isMcast skb
    let forward :=
      if vif.isAp && !vif.apIsolate then mcast || !inBss hw hdr vif
      else if vif.iftype == .meshPoint then mcast || hdr.flagsDstIdx == RWNX_INVALID_STA
      else true
    let handed := if forward then [Use.netif] else []
    if hdr.flagsIsAmsdu then
      match split with
      | .reused _ _ => some (handed, forward)
      | .freed _ _ => some ([.freed], forward)
    else some (handed, forward)

/-- The callers free a buffer that was not forwarded. -/
def rxDataOrFree (hw : Hw) (hdr : HwRxhdr) (vif : Vif) (skb : SkBuff) (split : Split) :
    Option (List Use) :=
  (rxDataSkb hw hdr vif skb split).map fun r => if r.2 then r.1 else r.1++[.freed]

/-! ## The monitor path -/

/-- The call ends there, it dereferences NULL or overruns the buffer, or it goes on. -/
inductive MonitorEnd where
  | done (u : Use) | oops | on (skb : SkBuff)

def monitorPath (hw : Hw) (env : Env) (hdr : HwRxhdr) (skb : SkBuff) : MonitorEnd :=
  if !hdr.isMonitorVif then .on skb
  else
    match getVif hw hw.monitorVif with
    | none => .on skb
    | some vif =>
      -- both flags: the data pointer is put back, the length is not
      if hdr.flagsUpload then .on { skb with len := hdr.len }
      else if env.headroom then
        if env.tailroom < hdr.len then .oops
        else .done (if vif.iftype = .monitor then .netif else .freed)
      -- the copy is handed up or freed, and the buffer itself freed
      else if env.copyExpand then .done .freed else .oops

/-! ## The A-MSDU loop -/

def subLen (skb : SkBuff) : ℕ := 256*(skb.data 12).toNat+(skb.data 13).toNat

def lenAligned (skb : SkBuff) : ℕ :=
  u16 (if subLen skb+14 < skb.len then roundup (subLen skb+14) 4 else subLen skb+14)

/-- The addresses, then the sub-frame without its LLC header. -/
def subSkb (skb : SkBuff) : SkBuff :=
  ⟨fun i => if i < 12 then skb.data i else skb.data (i+8), subLen skb+6⟩

/-- One turn. It stops with `true` where the loop ends, with `false` where it dereferences NULL or
copies a negative length. -/
def amsduTurn (hw : Hw) (env : Env) (hdr : HwRxhdr) (i : ℕ) (skb : SkBuff) :
    Turn SkBuff Unit Bool :=
  if skb.len ≤ 16 then .stop true
  else if skb.len < subLen skb+14 then .stop true
  else if !env.subAlloc i || subLen skb < 6 then .stop false
  else
    match getVif hw hdr.flagsVifIdx with
    | none => .stop true
    | some vif =>
      match rxDataOrFree hw hdr vif (subSkb skb) (env.amsduTo8023s i) with
      | none => .stop false
      | some _ => .next (skbPull (lenAligned skb) skb) []

/-! ## Behind the interface look-up -/

/-- The buffer with its Ethernet header. -/
def ethernetSkb (f : RxFrame) : SkBuff :=
  let off := if f.skb.len < f.pullLen then 0 else f.pullLen
  ⟨fun i => if i < 14 then (f.ra++f.ta++f.etherType).getD i 0 else f.skb.data (off+(i-14)),
    14+(f.skb.len-off)⟩

/-- The interface of the station that sent the frame. -/
def vlanVif (hw : Hw) (hdr : HwRxhdr) (vif : Vif) : Option Vif :=
  if hdr.flagsStaIdx = RWNX_INVALID_STA then some vif
  else if (hw.staTable hdr.flagsStaIdx).vlanIdx = vif.vifIndex then some vif
  else hw.vifTable (hw.staTable hdr.flagsStaIdx).vlanIdx

/-- A frame ready for the last branch: `tid` and `isQos` are 0 but for data frames. -/
structure Ready where
  skb : SkBuff
  seqNum : ℕ
  tid : ℕ
  isQos : Bool

abbrev Result := Hw × List (ℕ × Use)

section Branch
variable (hw : Hw) (env : Env) (hdr : HwRxhdr) (k : ℕ) (vif : Vif) (r : Ready)

def poolFor : Pool := { hw.pool with rwnxVif := some vif.iftype.reord }

def reorder (forward : Bool) : Option Result :=
  ((poolFor hw vif).processUnit env.kmalloc k ⟨r.skb, r.seqNum, r.tid, forward⟩).map fun x =>
    ({ hw with pool := x.1 }, x.2.map fun y => (y.1, useOf y.2))

/-- `reord_flush_tid` for a QoS frame, and then what the branch does to the buffer. -/
def flushThen (uses : Option (List Use)) : Option Result :=
  if r.isQos then do
    let x ← (poolFor hw vif).flushTid k r.skb r.tid
    let us ← uses
    some ({ hw with pool := x.1 },
      x.2.map (fun y => (y.1, useOf y.2))++us.map fun u => (k, u))
  else uses.map fun us => ({ hw with pool := poolFor hw vif }, us.map fun u => (k, u))

def staBranch : Option Result :=
  if r.isQos && hdr.flagsNeedReord then reorder hw env k vif r true
  else flushThen hw k vif r (rxDataOrFree hw hdr vif r.skb (env.amsduTo8023s 0))

/-- A frame for a station of the BSS is only sent again, as a copy. -/
def apBranch : Option Result :=
  let forward := isMcast r.skb || !inBss hw hdr vif
  if r.isQos && hdr.flagsNeedReord then reorder hw env k vif r forward
  else if forward then flushThen hw k vif r (some [.netif])
  -- only a QoS frame is freed
  else if r.isQos then flushThen hw k vif r (some [.freed])
  else flushThen hw k vif r (some [])

def branch : Option Result :=
  match vif.iftype with
  | .station | .p2pClient => staBranch hw env hdr k vif r
  | .ap | .p2pGo => apBranch hw env hdr k vif r
  | _ => some ({ hw with pool := poolFor hw vif }, [])

end Branch

def readyOf (f : RxFrame) : Ready :=
  if f.isData then ⟨ethernetSkb f, f.seqNum, f.tid, f.isQos⟩ else ⟨f.skb, f.seqNum, 0, false⟩

def deliver (hw : Hw) (env : Env) (hdr : HwRxhdr) (k : ℕ) (f : RxFrame) : Option Result :=
  match (getVif hw hdr.flagsVifIdx).bind (vlanVif hw hdr) with
  | none => some (hw, [(k, .freed)])
  | some vif => branch hw env hdr k vif (readyOf f)

/-! ## The function -/

def frameOf (hdr : HwRxhdr) (skb : SkBuff) : RxFrame :=
  ⟨skb, hdr.decrStatus, hdr.flagsDstIdx, hdr.flagsNeedReord, hdr.flagsIs80211Mpdu⟩

/-- Behind the fragment path. -/
def finish (hw : Hw) (env : Env) (hdr : HwRxhdr) (k : ℕ) (f : RxFrame)
    (r : DefragMachine.RwnxHw × List Outcome) : Option Result :=
  if r.1.oops then none
  else
    let t := { hw with defragList := r.1.defragList }
    match r.2 with
    | .whole _ _::_ => deliver t env hdr k f
    | .reassembled bytes _::_ =>
      match getVif hw hdr.flagsVifIdx with
      | none => none
      | some vif =>
        -- the fragment is freed before the reassembled buffer goes up
        (rxDataOrFree t hdr vif (SkBuff.ofList bytes) (env.amsduTo8023s 0)).map fun _ =>
          (t, [(k, .freed)])
    | _ => some (t, [(k, .freed)])

/-- A frame with `flags_upload`, behind the hardware header. `none`: it does not return. -/
def uploadPath (fuel : ℕ) (hw : Hw) (env : Env) (hdr : HwRxhdr) (k : ℕ) (f : RxFrame) :
    Option Result :=
  if f.isData && f.isAmsdu then
    match (loop (amsduTurn hw env hdr) fuel 0 (skbPull (f.pullLen-8) f.skb)).1 with
    | some true => some (hw, [(k, .freed)])
    | _ => none
  else
    finish hw env hdr k f
      (DefragMachine.rwnxRxdataind env.defragRoom ⟨hw.defragList, false⟩ f env.defragAlloc
        (getVif hw hdr.flagsVifIdx).isSome)

def rwnxRxdataindAicwf (fuel : ℕ) (hw : Hw) (env : Env) (hdr : HwRxhdr) (k : ℕ) (skb : SkBuff) :
    Option Result :=
  match monitorPath hw env hdr skb with
  | .done u => some (hw, [(k, u)])
  | .oops => none
  | .on skb =>
    if hdr.flagsUpload then
      uploadPath fuel hw env hdr k (frameOf hdr (skbPull (MSDU_OFFSET+2) skb))
    else some (hw, [])

end AIC.RxDataInd
