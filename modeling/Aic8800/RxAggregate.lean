import Mathlib.Tactic
import Aic8800.Lib.LoopRun

/-!
# Splitting a received SDIO buffer

The record loops of `aicwf_process_rxframes`: one walks an `sk_buff` with
`skb_pull`, the other a preallocated buffer with a read pointer. The branches
inside are the same text in both. A read outside the memory given is a fault,
and the bus state and the allocations of each turn come from oracles, so every
outcome of them is covered.
-/

set_option autoImplicit false

namespace AIC.RxAggregate
open Lib.LoopRun

def RX_HWHRD_LEN : ℕ := 60
def RX_ALIGNMENT : ℕ := 4
def SDIO_TYPE_CFG : UInt8 := 0x10
def SDIO_TYPE_CFG_CMD_RSP : UInt8 := 0x11
def SDIO_TYPE_CFG_DATA_CFM : UInt8 := 0x12
def SDIO_TYPE_CFG_PRINT : UInt8 := 0x13

def u16 (n : ℕ) : ℕ := n % 65536

def roundup (x y : ℕ) : ℕ := (x+(y-1))/y*y

/-- What a record is passed to. The pointer of a configuration record stands
behind its four bytes of header. -/
inductive Dispatch where
  | rwnxRxdataind (skb : List UInt8)
  | rwnxRxHandleMsg (msg : List UInt8)
  | aicwfSdioHostTxCfmHandler (msg : List UInt8)
  | rwnxRxHandlePrint (msg : List UInt8) (len : ℕ)
  deriving DecidableEq

/-- `done`: no further record. `ebade`: no memory for a configuration record. -/
inductive Ending where
  | done | ebade | fault | bug
  deriving DecidableEq

/-- `*data | (*(data + 1) << 8)` -/
def pktLen (lo hi : UInt8) : ℕ := lo.toNat+256*hi.toNat

def adjustLen (aggrLen : ℕ) : ℕ :=
  u16 (if aggrLen &&& (RX_ALIGNMENT-1) ≠ 0 then roundup aggrLen RX_ALIGNMENT else aggrLen)

/-- The three tests on `msg[2]`. -/
def configDispatch (busDown : Bool) (msg : List UInt8) (aggrLen : ℕ) : List Dispatch :=
  let type := msg.getD 2 0 &&& 0x7F
  (if type = SDIO_TYPE_CFG_CMD_RSP ∧ busDown = false then [.rwnxRxHandleMsg (msg.drop 4)] else [])++
    (if type = SDIO_TYPE_CFG_DATA_CFM then [.aicwfSdioHostTxCfmHandler (msg.drop 4)] else [])++
    (if type = SDIO_TYPE_CFG_PRINT then [.rwnxRxHandlePrint (msg.drop 4) aggrLen] else [])

/-- The body of both loops: `data` is the memory from the read position on,
`advance` moves the position. -/
def record {σ : Type*} (busDown alloc : Bool) (data : List UInt8) (advance : ℕ → σ) :
    Turn σ Dispatch Ending :=
  match data with
  | lo::hi::type::_ =>
    if type &&& SDIO_TYPE_CFG ≠ SDIO_TYPE_CFG then
      let aggrLen := u16 (pktLen lo hi+RX_HWHRD_LEN)
      if alloc then
        if data.length < aggrLen then .stop .fault
        else .next (advance (adjustLen aggrLen)) [.rwnxRxdataind (data.take aggrLen)]
      else .next (advance (adjustLen aggrLen)) []
    else
      let aggrLen := pktLen lo hi
      if alloc then
        if data.length < aggrLen+4 then .stop .fault
        else .next (advance (adjustLen aggrLen+4))
          (configDispatch busDown (data.take (aggrLen+4)) aggrLen)
      else .stop .ebade
  | _ => .stop .fault

/-! ## The loop over an `sk_buff` -/

/-- `none` is a read past `skb->len`. -/
def aicwfAnotherPtk : List UInt8 → Option Bool
  | [] => some false
  | [_] => none
  | lo::hi::_ => some (pktLen lo hi != 0)

/-- Longer than the buffer, `skb_pull` returns NULL and moves nothing. -/
def skbPull (skb : List UInt8) (n : ℕ) : List UInt8 :=
  if skb.length < n then skb else skb.drop n

def skbTurn (busDown alloc : ℕ → Bool) (k : ℕ) (skb : List UInt8) :
    Turn (List UInt8) Dispatch Ending :=
  match aicwfAnotherPtk skb with
  | none => .stop .fault
  | some false => .stop .done
  | some true => record (busDown k) (alloc k) skb (skbPull skb)

/-! ## The loop over a preallocated buffer -/

/-- `area` is the memory from `start` on; `read` and `endAt` are offsets in it. -/
structure RxBuff where
  area : List UInt8
  read : ℕ
  endAt : ℕ

def rxbuffTurn (busDown alloc : ℕ → Bool) (k : ℕ) (b : RxBuff) :
    Turn RxBuff Dispatch Ending :=
  if b.read % 4 ≠ 0 then .stop .bug
  else if b.endAt ≤ b.read then .stop .done
  else match b.area.drop b.read with
    | lo::hi::rest =>
      if pktLen lo hi = 0 then .stop .done
      else record (busDown k) (alloc k) (lo::hi::rest) (fun n => { b with read := b.read+n })
    | _ => .stop .fault

end AIC.RxAggregate
