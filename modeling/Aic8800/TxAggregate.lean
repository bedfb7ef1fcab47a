import Aic8800.SkBuff
import Aic8800.RxAggregate

/-!
# The transmit aggregation buffer

`aicwf_sdio_aggr` appends a packet behind a four byte header, `aicwf_sdio_aggr_send`
closes the buffer and `aicwf_sdio_txpkt` sends whole blocks of it. The buffer
is the memory between `head` and `tail`; what lies behind the tail is whatever
earlier transfers left there.
-/

set_option autoImplicit false

namespace AIC.TxAggregate
open AIC.RxAggregate

def TX_ALIGNMENT : ℕ := 4
def TXPKT_BLOCKSIZE : ℕ := 512
def SDIOWIFI_FUNC_BLOCKSIZE : ℕ := 512
def TAIL_LEN : ℕ := 4

inductive ProductId where
  | aic8801 | aic8800DC | aic8800DW | aic8800D80
  deriving DecidableEq

/-- The tests on the chip in front of `sdio_header[3] = 0` and of the patched length. -/
def ProductId.plainHeader : ProductId → Bool
  | .aic8801 | .aic8800DC | .aic8800DW => true
  | .aic8800D80 => false

/-! ## The check byte -/

/-- One turn of the inner loop: the register is shifted out, then the bit of the byte comes in. -/
def crcBit (byte crc mask : UInt8) : UInt8 :=
  let crc := if crc &&& 0x80 ≠ 0 then (crc*2) ^^^ 0x07 else crc*2
  if byte &&& mask ≠ 0 then crc ^^^ 0x07 else crc

def crcByte (crc byte : UInt8) : UInt8 :=
  [0x80, 0x40, 0x20, 0x10, 0x08, 0x04, 0x02, 0x01].foldl (crcBit byte) crc

def crc8Ponl107 (buffer : List UInt8) : UInt8 := buffer.foldl crcByte 0

/-! ## Appending a packet -/

/-- A queued packet: `headroom` bytes of driver header, then the payload.
`desc` are the bytes of its `txdesc_api`. -/
structure TxPkt where
  skb : SkBuff
  headroom : ℕ
  desc : List UInt8
  needCfm : Bool
  room : headroom ≤ skb.len

def TxPkt.payload (pkt : TxPkt) : List UInt8 :=
  pkt.skb.slice pkt.headroom (pkt.skb.len-pkt.headroom)

/-- `pkt->len - headroom + sizeof(struct txdesc_api)` -/
def TxPkt.recordLen (pkt : TxPkt) : ℕ := pkt.skb.len-pkt.headroom+pkt.desc.length

def lengthLow (n : ℕ) : UInt8 := UInt8.ofNat (n &&& 0xff)
def lengthHigh (n : ℕ) : UInt8 := UInt8.ofNat ((n >>> 8) &&& 0x0f)

def sdioHeader (chipid : ProductId) (n : ℕ) : List UInt8 :=
  let first := [lengthLow n, lengthHigh n, 0x01]
  first++[if chipid.plainHeader then 0 else crc8Ponl107 first]

structure AggrBuf where
  bytes : List UInt8
  aggrCount : ℕ

def AggrBuf.empty : AggrBuf := ⟨[], 0⟩

/-- Zeros up to the next word. -/
def wordAlign (bytes : List UInt8) : List UInt8 :=
  if bytes.length &&& (TX_ALIGNMENT-1) ≠ 0 then
    bytes++List.replicate (roundup bytes.length TX_ALIGNMENT-bytes.length) 0
  else bytes

/-- `start_ptr[0]` and `start_ptr[1]` once the tail is known. -/
def patchLength (start : ℕ) (bytes : List UInt8) : List UInt8 :=
  (bytes.set start (lengthLow (bytes.length-start-4))).set (start+1)
    (lengthHigh (bytes.length-start-4))

def aicwfSdioAggr (chipid : ProductId) (b : AggrBuf) (pkt : TxPkt) : AggrBuf :=
  let start := b.bytes.length
  let bytes := wordAlign (b.bytes++sdioHeader chipid pkt.recordLen++pkt.desc++pkt.payload)
  ⟨if chipid.plainHeader then patchLength start bytes else bytes, b.aggrCount+1⟩

def aicwfSdioAggrbufReset : AggrBuf := .empty

/-! ## Sending the buffer -/

/-- What `aicwf_sdio_aggr_send` hands to `aicwf_sdio_txpkt`. -/
def linkTail (bytes : List UInt8) : List UInt8 :=
  if bytes.length % TXPKT_BLOCKSIZE ≠ 0 then bytes++List.replicate TAIL_LEN 0 else bytes

/-- Whole blocks are written; `stale` is the memory behind the tail. -/
def aicwfSdioTxpkt (stale : ℕ → UInt8) (frame : List UInt8) : List UInt8 :=
  let len := (frame.length+SDIOWIFI_FUNC_BLOCKSIZE-1)/SDIOWIFI_FUNC_BLOCKSIZE*
    SDIOWIFI_FUNC_BLOCKSIZE
  frame++(List.range (len-frame.length)).map stale

end AIC.TxAggregate
