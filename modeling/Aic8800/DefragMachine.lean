import Mathlib.Tactic
import Aic8800.Lib.Trace
import Aic8800.SkBuff

/-!
# The defragmentation machine

`rwnx_rxdataind_aicwf` from reading the 802.11 header to the point where a
frame leaves the fragment path, with the contexts on `defrag_list` and their
timers. Each context also records which frames were put into it. That record is
not in the source: nothing the machine does depends on it.
-/

set_option autoImplicit false

namespace AIC.DefragMachine

def RWNX_INVALID_STA : ℕ := 0xFF
def RWNX_RX_HD_DECR_WEP : ℕ := 1
def RWNX_RX_HD_DECR_TKIP : ℕ := 2
def RWNX_RX_HD_DECR_CCMP128 : ℕ := 3
def RWNX_RX_HD_DECR_WAPI : ℕ := 7
def MAC_FCTRL_MOREFRAG : ℕ := 0x0400

/-- The 802.11 frame behind the hardware header, and what the header says of it. -/
structure RxFrame where
  skb : SkBuff
  decrStatus : ℕ
  flagsDstIdx : ℕ
  flagsNeedReord : Bool
  flagsIs80211Mpdu : Bool

namespace RxFrame
variable (f : RxFrame)

def byte (i : ℕ) : ℕ := (f.skb.data i).toNat

def frameCtrl : ℕ := 256*f.byte 1+f.byte 0
def moreFrag : Bool := f.frameCtrl &&& MAC_FCTRL_MOREFRAG != 0
def seqNum : ℕ := (f.byte 22 &&& 0xF0)/16+16*f.byte 23
def fragNum : ℕ := f.byte 22 &&& 0x0F
def isData : Bool := f.byte 0 &&& 0x0F == 0x08
def isQos : Bool := f.byte 0 &&& 0x80 == 0x80
def tid : ℕ := if f.isQos then f.byte 24 &&& 0x0F else 0
def isAmsdu : Bool := f.isQos && f.byte 24 &&& 0x80 != 0

def hdrLen : ℕ :=
  (if f.isQos then 26 else 24)+(if f.byte 1 &&& 0x80 ≠ 0 then 4 else 0)

/-- The receiver and transmitter address of the Ethernet header. -/
def ra : List UInt8 :=
  if f.byte 1 &&& 0x3 = 0x1 then f.skb.slice 16 6
  else if f.byte 1 &&& 0x3 = 0x2 then f.skb.slice 4 6 else List.replicate 6 0

def ta : List UInt8 :=
  if f.byte 1 &&& 0x3 = 0x1 then f.skb.slice 10 6
  else if f.byte 1 &&& 0x3 = 0x2 then f.skb.slice 16 6 else List.replicate 6 0

/-- The header of the cipher, left in place by the hardware. -/
def cipherLen : ℕ :=
  if f.decrStatus = RWNX_RX_HD_DECR_CCMP128 then 8
  else if f.decrStatus = RWNX_RX_HD_DECR_TKIP then 8
  else if f.decrStatus = RWNX_RX_HD_DECR_WEP then 4
  else if f.decrStatus = RWNX_RX_HD_DECR_WAPI then 18 else 0

def pullLen : ℕ := f.hdrLen+8+f.cipherLen
def etherType : List UInt8 := f.skb.slice (f.hdrLen+6+f.cipherLen) 2

def staIdx : ℕ := if f.flagsDstIdx ≠ RWNX_INVALID_STA then f.flagsDstIdx else 0

/-- Address 2 of the 802.11 header: who sent the frame. -/
def addr2 : List UInt8 := f.skb.slice 10 6

/-- The frame with an Ethernet header in place of its own. A frame shorter
than the length pulled keeps all its bytes. -/
def ethernet : List UInt8 :=
  f.ra++f.ta++f.etherType++
    (if f.skb.len < f.pullLen then f.skb.bytes
      else f.skb.slice f.pullLen (f.skb.len-f.pullLen))

/-- What a later fragment adds. -/
def body : List UInt8 := f.skb.slice (f.pullLen-8) (f.skb.len-(f.pullLen-8))

end RxFrame

structure DefragCtrlInfo where
  staIdx : ℕ
  tid : ℕ
  sn : ℕ
  nextFn : ℕ
  frmLen : ℕ
  skb : List UInt8
  frags : List RxFrame

structure RwnxHw where
  defragList : List DefragCtrlInfo
  oops : Bool

inductive Outcome where
  | discard
  | kept
  | amsdu (f : RxFrame)
  | mgmt (f : RxFrame)
  | whole (f : RxFrame) (skb : List UInt8)
  | reassembled (skb : List UInt8) (frags : List RxFrame)

def DefragCtrlInfo.matches (c : DefragCtrlInfo) (f : RxFrame) : Bool :=
  c.sn == f.seqNum && c.tid == f.tid && c.staIdx == f.staIdx

def findDefrag (f : RxFrame) (cs : List DefragCtrlInfo) : Option DefragCtrlInfo :=
  cs.find? (fun c => c.matches f)

/-- The list with the first matching context replaced or taken out. -/
def putDefrag (f : RxFrame) (d : Option DefragCtrlInfo) : List DefragCtrlInfo → List DefragCtrlInfo
  | [] => []
  | c::cs => if c.matches f then d.toList++cs else c::putDefrag f d cs

/-- `memcpy` to offset `off` of a buffer. -/
def copyAt (skb : List UInt8) (off : ℕ) (bytes : List UInt8) : List UInt8 :=
  skb.take off++bytes++skb.drop (off+bytes.length)

/-- `skb_put` and `memcpy` of the body of a fragment; `none` when the length is
negative or the buffer too small. -/
def DefragCtrlInfo.append (tailroom : ℕ) (c : DefragCtrlInfo) (f : RxFrame) :
    Option DefragCtrlInfo :=
  if f.skb.len < f.pullLen-8 then none
  else if tailroom < c.skb.length+f.body.length then none
  else some { c with
    skb := copyAt (c.skb++List.replicate f.body.length 0) c.frmLen f.body
    frmLen := c.frmLen+f.body.length
    frags := c.frags++[f] }

def DefragCtrlInfo.start (tailroom : ℕ) (f : RxFrame) : Option DefragCtrlInfo :=
  if tailroom < f.ethernet.length then none
  else some {
    staIdx := f.staIdx
    tid := f.tid
    sn := f.seqNum
    nextFn := 1
    frmLen := f.ethernet.length
    skb := f.ethernet
    frags := [f] }

/-- Past the fragment path, up to the look-up of the interface. -/
def deliver (vif : Bool) (f : RxFrame) (skb : List UInt8) : List Outcome :=
  if f.flagsIs80211Mpdu then [.mgmt f] else if vif then [.whole f skb] else [.discard]

/-- A fragment with the more-fragments bit. `alloc` is the outcome of the two
allocations for a new context. -/
def moreFragment (tailroom : ℕ) (hw : RwnxHw) (f : RxFrame) (alloc : Bool) :
    RwnxHw × List Outcome :=
  match findDefrag f hw.defragList with
  | some c =>
    if c.nextFn ≠ f.fragNum then (hw, [.discard])
    else match c.append tailroom f with
      | none => ({ hw with oops := true }, [])
      | some d =>
        let d := { d with nextFn := d.nextFn+1 }
        ({ hw with defragList := putDefrag f (some d) hw.defragList }, [.kept])
  | none =>
    if !alloc then (hw, [.discard])
    else match DefragCtrlInfo.start tailroom f with
      | none => ({ hw with oops := true }, [])
      | some d => ({ hw with defragList := hw.defragList++[d] }, [.kept])

/-- A fragment without that bit. One that finds no context goes on as a whole frame. -/
def lastFragment (tailroom : ℕ) (hw : RwnxHw) (f : RxFrame) (vif : Bool) :
    RwnxHw × List Outcome :=
  match findDefrag f hw.defragList with
  | some c =>
    if c.nextFn ≠ f.fragNum then (hw, [.discard])
    else match c.append tailroom f with
      | none => ({ hw with oops := true }, [])
      | some d =>
        if vif then ({ hw with defragList := putDefrag f none hw.defragList },
          [.reassembled d.skb d.frags])
        else ({ hw with defragList := putDefrag f (some d) hw.defragList }, [.discard])
  | none => (hw, deliver vif f f.ethernet)

def rwnxRxdataind (tailroom : ℕ) (hw : RwnxHw) (f : RxFrame) (alloc vif : Bool) :
    RwnxHw × List Outcome :=
  if f.isData then
    -- without an interface the first sub-frame of an A-MSDU ends the loop
    if f.isAmsdu then (hw, if vif then [.amsdu f] else [.discard])
    else if !f.flagsNeedReord && (f.moreFrag || f.fragNum != 0) then
      if f.moreFrag then moreFragment tailroom hw f alloc else lastFragment tailroom hw f vif
    else (hw, deliver vif f f.ethernet)
  else (hw, deliver vif f f.skb.bytes)

/-- `timeout i`: `defrag_timeout_cb` of the context at position `i`. -/
inductive Event where
  | rx (f : RxFrame) (alloc vif : Bool)
  | timeout (i : ℕ)

def step (tailroom : ℕ) (hw : RwnxHw) : Event → RwnxHw × List Outcome
  | .rx f alloc vif => if hw.oops then (hw, []) else rwnxRxdataind tailroom hw f alloc vif
  | .timeout i => if hw.oops then (hw, []) else
    ({ hw with defragList := hw.defragList.eraseIdx i }, [])

def init : RwnxHw := ⟨[], false⟩

end AIC.DefragMachine
