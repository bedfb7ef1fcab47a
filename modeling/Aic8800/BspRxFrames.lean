import Aic8800.RxAggregate

/-!
# Received buffers while the chip is started

The receive function of the start-up module, which takes one buffer after the
other from the queue and copies each record into an `sk_buff` of its own. One
pointer is used for all of these copies, and what it points to is freed behind
the loop over the records.
-/

set_option autoImplicit false

namespace AIC.BspRxFrames
open AIC.RxAggregate (RX_HWHRD_LEN SDIO_TYPE_CFG SDIO_TYPE_CFG_CMD_RSP u16 pktLen adjustLen
  aicwfAnotherPtk skbPull)
open Lib.LoopRun

abbrev Bytes := List UInt8

/-- Allocations and buffers are numbered as they come. `decRxCnt` is the decrement of `rx_cnt`. -/
inductive Event where
  | dequeue (i : ℕ)
  | freeSkb (i : ℕ)
  | alloc (n : ℕ)
  | freeInblock (n : ℕ)
  | rwnxRxHandleMsg (msg : Bytes)
  | decRxCnt
  deriving DecidableEq

inductive Ending where
  | done | ebade | fault
  deriving DecidableEq

/-- `skb` is what is left of the buffer in hand, `taken` and `allocs` count the buffers and the
allocations so far. `failed`: an allocation has just failed. -/
structure State where
  rxq : List Bytes
  skb : Option Bytes
  skbInblock : Option ℕ
  taken : ℕ
  allocs : ℕ
  failed : Bool

/-- What is copied of the record in front, and how far `skb_pull` goes. -/
structure Record where
  size : ℕ
  pull : ℕ

/-- Nothing where the type is read outside the buffer. -/
def recordOf : Bytes → Option Record
  | lo::hi::type::_ =>
    if type &&& SDIO_TYPE_CFG ≠ SDIO_TYPE_CFG then
      let aggrLen := u16 (pktLen lo hi+RX_HWHRD_LEN)
      some ⟨aggrLen, adjustLen aggrLen⟩
    else some ⟨pktLen lo hi+4, adjustLen (pktLen lo hi)+4⟩
  | _ => none

/-- A copy of a configuration record whose type is that of a command response. The other copies are
passed to nobody. -/
def response (skb : Bytes) (r : Record) : List Bytes :=
  let type := skb.getD 2 0
  if type &&& SDIO_TYPE_CFG = SDIO_TYPE_CFG ∧ type &&& 0x7F = SDIO_TYPE_CFG_CMD_RSP then
    [(skb.take r.size).drop 4]
  else []

def turn (alloc : ℕ → Bool) (_ : ℕ) (s : State) : Turn State Event Ending :=
  if s.failed then .stop .ebade
  else
    match s.skb with
    | none =>
      match s.rxq with
      | [] => .stop .done
      | skb::rxq =>
        .next { s with rxq := rxq, skb := some skb, taken := s.taken+1 } [.dequeue s.taken]
    | some skb =>
      match aicwfAnotherPtk skb with
      | none => .stop .fault
      | some false =>
        .next { s with skb := none }
          (s.skbInblock.toList.map .freeInblock++[.freeSkb (s.taken-1), .decRxCnt])
      | some true =>
        match recordOf skb with
        | none => .stop .fault
        | some r =>
          if alloc s.allocs = false then .next { s with failed := true } [.freeSkb (s.taken-1)]
          else if skb.length < r.size then .stop .fault
          else
            .next { s with
                skb := some (skbPull skb r.pull)
                skbInblock := some s.allocs
                allocs := s.allocs+1 }
              (.alloc s.allocs::(response skb r).map .rwnxRxHandleMsg)

def start (rxq : List Bytes) : State where
  rxq := rxq
  skb := none
  skbInblock := none
  taken := 0
  allocs := 0
  failed := false

end AIC.BspRxFrames
