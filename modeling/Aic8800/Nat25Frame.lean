import Aic8800.Nat25Refines
import Aic8800.SkBuff
import Aic8800.Lib.CallProgram
import Aic8800.Lib.FlatMemory

/-!
# Frames through the bridge

`nat25_db_handle` with its protocols, and around it `aic_br_client_tx` for the frames
that are sent and `nat25_handle_frame` for those that came in. A function is a
program that calls the database, so that the sections of the lock of different
frames can take turns. A program without a result reads memory that is not its own
or does not end.
-/

set_option autoImplicit false

namespace AIC.Nat25Frame
open Lib.CallProgram Lib.FlatMemory AIC.Nat25Table

def ETH_P_IP : ℕ := 0x0800
def ETH_P_ARP : ℕ := 0x0806
def ETH_P_8021Q : ℕ := 0x8100
def ETH_P_IPX : ℕ := 0x8137
def ETH_P_ATALK : ℕ := 0x809B
def ETH_P_AARP : ℕ := 0x80F3
def ETH_P_IPV6 : ℕ := 0x86DD
def ETH_P_PPP_DISC : ℕ := 0x8863
def ETH_P_PPP_SES : ℕ := 0x8864

def byte (skb : SkBuff) (i : ℕ) : ℕ := (skb.data i).toNat

/-- `ntohs(*(unsigned short *)(skb->data+i))` -/
def word (skb : SkBuff) (i : ℕ) : ℕ := 256*byte skb i+byte skb (i+1)

def put (skb : SkBuff) (i : ℕ) (bytes : List UInt8) : SkBuff :=
  { skb with data := store i bytes skb.data }

/-- `*(unsigned short *)(skb->data+i)` -/
def protocol (skb : SkBuff) : ℕ := word skb 12

/-- An address of `ETH_ALEN` bytes. -/
abbrev Mac := {mac : List UInt8 // mac.length = 6}

/-- What the functions use of `struct rwnx_vif`. -/
structure Vif where
  devAddr : Mac
  brMac : Mac
  brIp : List UInt8
  nat25Disable : Bool
  nat25scDisable : Bool
  dhcpBcstDisable : Bool
  addPPPoETag : Bool
  pppoeConnectionInProgress : ℕ
  pppoeAddr : List UInt8

/-- What one call of a function finds outside: `jiffies` in the section about the cache and in the
one about the table, memory for an entry, a bridge port, the copy and the linearised buffer, the
bridge device, the tail room and the checksum functions of the network stack. -/
structure Env where
  cacheTime : UInt32
  tableTime : UInt32
  room : Bool
  want : ℕ
  brPort : Bool
  copied : Bool
  linearized : Bool
  bridge : Option Mac
  tailroom : ℕ
  csum : SkBuff → ℕ → List UInt8

inductive Method where
  | check | insert | lookup
deriving DecidableEq

/-- The value that is returned, with the interface and the frame afterwards. -/
structure Handled where
  ret : ℤ
  vif : Vif
  skb : SkBuff

abbrev Program := Prog Call Answer (Option Handled)

section Handle

variable (env : Env) (vif : Vif) (skb : SkBuff)

def ended (ret : ℤ) (vif : Vif) (skb : SkBuff) : Program := .done (some ⟨ret, vif, skb⟩)

/-- `__nat25_db_network_insert(vif, skb->data + ETH_ALEN, networkAddr)`, and on with the frame. -/
def insertSource (networkAddr : NetworkAddr) (next : Program) : Program :=
  .ask (.insert env.tableTime (skb.slice 6 6) networkAddr env.room env.want) fun _ => next

/-- `__nat25_db_network_lookup_and_replace(vif, skb, networkAddr)`, and on with the value it
returns. -/
def replaceDest (networkAddr : NetworkAddr) (next : Bool → SkBuff → Program) : Program :=
  .ask (.lookup env.tableTime networkAddr) fun answer =>
    next answer.1 (match answer.2 with
      | some mac => put skb 0 mac
      | none => skb)

/-- `netdev_br_init` -/
def netdevBrInit : Vif :=
  { vif with
    brMac := if env.brPort then env.bridge.getD vif.brMac else vif.brMac
    addPPPoETag := true }

/-! ## The protocols -/

def handleIp (method : Method) : Program :=
  let ihl := byte skb 14 % 16
  if 14+skb.len ≤ 14+4*ihl then ended (-1) vif skb
  else match method with
  | .check => ended (-1) vif skb
  | .insert =>
    if skb.slice 26 4 = List.replicate 4 0 then ended 0 vif skb
    else insertSource env skb (generateIpv4NetworkAddr (skb.slice 26 4)) (ended 0 vif skb)
  | .lookup =>
    replaceDest env skb (generateIpv4NetworkAddr (skb.slice 30 4)) fun found skb =>
      if found then ended 0 vif skb
      else if skb.data 33 = 0xFF then ended 0 vif (put skb 0 (List.replicate 6 0xFF))
      else
        let vif := if vif.brMac.val = List.replicate 6 0 then netdevBrInit env vif else vif
        ended 0 vif (put skb 0 vif.brMac.val)

def handleArp (method : Method) : Program :=
  let hln := byte skb 18
  let pln := byte skb 19
  if word skb 16 ≠ ETH_P_IP then ended (-1) vif skb
  else match method with
  | .check => ended 0 vif skb
  | .insert =>
    let skb := put skb 22 vif.devAddr.val
    insertSource env skb (generateIpv4NetworkAddr (skb.slice (22+hln) 4)) (ended 0 vif skb)
  | .lookup =>
    replaceDest env skb (generateIpv4NetworkAddr (skb.slice (22+hln+hln+pln) 4)) fun _ skb =>
      ended 0 vif (put skb (22+hln+pln) (skb.slice 0 6))

/-- `__nat25_generate_ipx_network_addr_with_node` -/
def generateIpxNetworkAddrWithNode (ipxNetAddr ipxNodeAddr : List UInt8) : NetworkAddr :=
  NAT25_IPX::ipxNetAddr++ipxNodeAddr++List.replicate 6 0

/-- `__nat25_generate_ipx_network_addr_with_socket` -/
def generateIpxNetworkAddrWithSocket (ipxNetAddr ipxSocketAddr : List UInt8) : NetworkAddr :=
  NAT25_IPX::ipxNetAddr++ipxSocketAddr++List.replicate 10 0

/-- `__nat25_generate_apple_network_addr` -/
def generateAppleNetworkAddr (network : List UInt8) (node : UInt8) : NetworkAddr :=
  NAT25_APPLE::network++[node]++List.replicate 13 0

/-- `__nat25_generate_pppoe_network_addr` -/
def generatePppoeNetworkAddr (acMac sid : List UInt8) : NetworkAddr :=
  NAT25_PPPOE::sid++acMac++List.replicate 8 0

/-- `__nat25_generate_ipv6_network_addr` -/
def generateIpv6NetworkAddr (ipAddr : List UInt8) : NetworkAddr := NAT25_IPV6::ipAddr

/-- A header behind the link layer, and where it begins. -/
inductive Datagram where
  | ipx (off : ℕ)
  | aarp (off : ℕ)
  | ddp (off : ℕ)

/-- Which header an IPX or AppleTalk frame has. -/
def findDatagram : Option Datagram :=
  if protocol skb = ETH_P_IPX then some (.ipx 14)
  else if skb.slice 14 2 = [0xFF, 0xFF] then some (.ipx 14)
  else if skb.data 14 = 0xAA then
    if skb.slice 17 5 = [0x00, 0x00, 0x00, 0x81, 0x37] then some (.ipx 22)
    else if skb.slice 17 5 = [0x00, 0x00, 0x00, 0x80, 0xF3] then some (.aarp 22)
    else if skb.slice 17 5 = [0x08, 0x00, 0x07, 0x80, 0x9B] then some (.ddp 22)
    else none
  else if skb.data 14 = 0xE0 then
    if skb.slice 17 2 = [0xFF, 0xFF] then some (.ipx 17) else none
  else none

def handleIpx (off : ℕ) (method : Method) : Program :=
  let node := skb.slice (off+22) 6
  match method with
  | .check => ended (if skb.slice 6 6 = node then 0 else -1) vif skb
  | .insert =>
    if skb.slice 6 6 = node then
      let networkAddr :=
        generateIpxNetworkAddrWithSocket (skb.slice (off+18) 4) (skb.slice (off+28) 2)
      let skb := put skb (off+22) vif.devAddr.val
      insertSource env skb networkAddr (ended 0 vif skb)
    else
      insertSource env skb (generateIpxNetworkAddrWithNode (skb.slice (off+18) 4) node)
        (ended 0 vif skb)
  | .lookup =>
    if vif.devAddr.val = skb.slice (off+10) 6 then
      replaceDest env skb
        (generateIpxNetworkAddrWithSocket (skb.slice (off+6) 4) (skb.slice (off+16) 2))
        fun _ skb => ended 0 vif (put skb (off+10) (skb.slice 0 6))
    else
      replaceDest env skb
        (generateIpxNetworkAddrWithNode (skb.slice (off+6) 4) (skb.slice (off+10) 6))
        fun _ skb => ended 0 vif skb

def handleAarp (off : ℕ) (method : Method) : Program :=
  if byte skb (off+4) ≠ 6 ∨ byte skb (off+5) ≠ 4 then ended (-1) vif skb
  else match method with
  | .check => ended 0 vif skb
  | .insert =>
    let skb := put skb (off+8) vif.devAddr.val
    insertSource env skb (generateAppleNetworkAddr (skb.slice (off+15) 2) (skb.data (off+17)))
      (ended 0 vif skb)
  | .lookup =>
    replaceDest env skb (generateAppleNetworkAddr (skb.slice (off+25) 2) (skb.data (off+27)))
      fun _ skb => ended 0 vif (put skb (off+18) (skb.slice 0 6))

def handleDdp (off : ℕ) (method : Method) : Program :=
  match method with
  | .check => ended (-1) vif skb
  | .insert =>
    insertSource env skb (generateAppleNetworkAddr (skb.slice (off+6) 2) (skb.data (off+9)))
      (ended 0 vif skb)
  | .lookup =>
    replaceDest env skb (generateAppleNetworkAddr (skb.slice (off+4) 2) (skb.data (off+8)))
      fun _ skb => ended 0 vif skb

/-! ## PPPoE -/

def PADI_CODE : ℕ := 0x09
def PADO_CODE : ℕ := 0x07
def PADR_CODE : ℕ := 0x19
def PADS_CODE : ℕ := 0x65
def PTT_RELAY_SID : ℕ := 0x0110
def TAG_HDR_LEN : ℕ := 4
def MAGIC_CODE : ℕ := 0x8186
def WAIT_TIME_PPPOE : ℕ := 5

/-- `__nat25_find_pppoe_tag`: the walk over the tags from `cur` on, which begin at byte 20. -/
def findPppoeTag (type : ℕ) : ℕ → ℕ → Option ℕ
  | 0, _ => none
  | fuel+1, cur =>
    if cur-20 < word skb 18 then
      if word skb cur = type then some cur
      else findPppoeTag type fuel (cur+TAG_HDR_LEN+word skb (cur+2))
    else none

/-- `skb_pull_and_merge` of `len` bytes at `src`. There is no frame where it returns -1. -/
def skbPullAndMerge (src len : ℕ) : Option SkBuff :=
  if skb.len < src+len ∨ skb.len < len then none
  else some ⟨move src (src+len) (skb.len-(src+len)) skb.data, skb.len-len⟩

/-- `ph->length = htons(length)`, of 16 bits. -/
def putLength (length : ℕ) : SkBuff :=
  put skb 18 [UInt8.ofNat (length/256), UInt8.ofNat length]

/-- `__nat25_add_pppoe_tag` with a tag of `n` bytes of data in a buffer of 40 bytes. The length it
takes is the one in network order, read as a word of this machine. -/
def addPppoeTag (n : ℕ) (tag : List UInt8) : Program :=
  let dataLen := 256*(n % 256)+n/256+TAG_HDR_LEN
  if env.tailroom < dataLen then ended (-1) vif skb
  else if 40 < dataLen then .done none
  else
    let room : SkBuff := ⟨move (20+dataLen) 20 (word skb 18) skb.data, skb.len+dataLen⟩
    ended 0 vif (put (putLength room (word skb 18+dataLen)) 20 (tag.take dataLen))

/-- `PADI` and `PADR` with `addPPPoETag` set. -/
def addRelayTag : Program :=
  let tag (old : List UInt8) (skb : SkBuff) : Program :=
    let n := 8+old.length
    addPppoeTag env vif skb n ([0x01, 0x10, UInt8.ofNat (n/256), UInt8.ofNat n]++
      [0x81, 0x86]++skb.slice 6 6++old)
  match findPppoeTag skb PTT_RELAY_SID (word skb 18+1) 20 with
  | none => tag [] skb
  | some cur =>
    let oldTagLen := word skb (cur+2)
    if 40 < oldTagLen+TAG_HDR_LEN+2+6 then ended (-1) vif skb
    else
      let old := skb.slice (cur+4) oldTagLen
      match skbPullAndMerge skb cur (TAG_HDR_LEN+oldTagLen) with
      | none => ended (-1) vif skb
      | some skb => tag old (putLength skb (word skb 18+2^16-TAG_HDR_LEN-oldTagLen))

/-- `PADO` and `PADS` with `addPPPoETag` set. -/
def takeRelayTag : Program :=
  match findPppoeTag skb PTT_RELAY_SID (word skb 18+1) 20 with
  | none => ended (-1) vif skb
  | some cur =>
    let tagLen := word skb (cur+2)
    if tagLen < 8 then ended (-1) vif skb
    else if word skb (cur+4) ≠ MAGIC_CODE then ended (-1) vif skb
    else
      let skb := put skb 0 (skb.slice (cur+6) 6)
      let offset := if 8 < tagLen then TAG_HDR_LEN else 0
      match skbPullAndMerge skb (cur+offset) (TAG_HDR_LEN+8-offset) with
      | none => ended (-1) vif skb
      | some skb =>
        let skb := putLength skb (word skb 18+2^16-(TAG_HDR_LEN+8-offset))
        ended 0 vif (if 0 < offset then
          put skb (cur+2) [UInt8.ofNat ((tagLen-8)/256), UInt8.ofNat (tagLen-8)] else skb)

def handlePppoe (method : Method) : Program :=
  let code := byte skb 15
  let sid := skb.slice 16 2
  match method with
  | .check => ended (if sid = [0, 0] then 0 else 1) vif skb
  | .insert =>
    if sid = [0, 0] then
      if code = PADI_CODE ∨ code = PADR_CODE then
        if vif.addPPPoETag then addRelayTag env vif skb
        else if vif.pppoeConnectionInProgress ≠ 0 ∧ skb.slice 6 6 ≠ vif.pppoeAddr then
          ended (-2) vif skb
        else
          let pppoeAddr :=
            if vif.pppoeConnectionInProgress = 0 then skb.slice 6 6 else vif.pppoeAddr
          ended 0 { vif with pppoeAddr := pppoeAddr,
                             pppoeConnectionInProgress := WAIT_TIME_PPPOE } skb
      else ended (-1) vif skb
    else
      insertSource env skb (generatePppoeNetworkAddr (skb.slice 0 6) sid)
        (ended 0 (if !vif.addPPPoETag && vif.pppoeConnectionInProgress != 0 &&
          skb.slice 6 6 == vif.pppoeAddr then { vif with pppoeConnectionInProgress := 0 }
          else vif) skb)
  | .lookup =>
    if code = PADO_CODE ∨ code = PADS_CODE then
      if vif.addPPPoETag then takeRelayTag vif skb
      else if vif.pppoeConnectionInProgress = 0 then ended (-1) vif skb
      else ended 0 { vif with pppoeConnectionInProgress := WAIT_TIME_PPPOE }
        (put skb 0 vif.pppoeAddr)
    else if sid ≠ [0, 0] then
      replaceDest env skb (generatePppoeNetworkAddr (skb.slice 6 6) sid) fun _ skb =>
        ended 0 vif skb
    else ended (-1) vif skb

/-! ## IPv6 -/

/-- `scan_tlv`: where the data of the first option with this tag and length begins. The outer value
is missing where the loop does not end. -/
def scanTlv (tag len8b : ℕ) : ℕ → ℕ → ℤ → Option (Option ℕ)
  | 0, _, _ => none
  | fuel+1, data, len =>
    if 0 < len then
      let n := byte skb (data+1)
      if byte skb data = tag ∧ n = len8b ∧ (8*len8b : ℤ) ≤ len then some (some (data+2))
      else scanTlv tag len8b fuel (data+8*n) (len-8*n)
    else some none

/-- Where the options of a neighbour discovery message begin, and which of them is replaced. -/
def ndOption (type : ℕ) : Option (ℕ × ℕ) :=
  if type = 133 then some (8, 1)
  else if type = 134 then some (16, 1)
  else if type = 135 then some (24, 1)
  else if type = 136 then some (24, 2)
  else if type = 137 then some (40, 2)
  else none

/-- `update_nd_link_layer_addr` of the message at byte 54, and whether an address was replaced. -/
def updateNdLinkLayerAddr (replaceMac : List UInt8) : Option (SkBuff × Bool) :=
  let len := skb.len-54
  match ndOption (byte skb 54) with
  | none => some (skb, false)
  | some (start, tag) =>
    if start ≤ len then
      (scanTlv skb tag 1 (len+1) (54+start) (len-start)).map fun found =>
        match found with
        | none => (skb, false)
        | some mac => (put skb mac replaceMac, true)
    else some (skb, false)

def IPPROTO_ICMPV6 : ℕ := 58

/-- `sizeof(*iph) >= (skb->len - ETH_HLEN)`, where the length is one of 32 bits. -/
def malformedIpv6 : Bool := decide ((skb.len+2^32-14) % 2^32 ≤ 40)

def handleIpv6 (method : Method) : Program :=
  if malformedIpv6 skb then ended (-1) vif skb
  else match method with
  | .check => ended (if byte skb 0 % 2 = 1 then 0 else -1) vif skb
  | .insert =>
    if skb.slice 22 16 = List.replicate 16 0 then ended 0 vif skb
    else
      insertSource env skb (generateIpv6NetworkAddr (skb.slice 22 16))
        (if byte skb 20 = IPPROTO_ICMPV6 ∧ 58 < skb.len then
          match updateNdLinkLayerAddr skb vif.devAddr.val with
          | none => .done none
          | some (skb, replaced) =>
            -- `payload_len` is taken as it stands, in network order.
            ended 0 vif (if replaced then
              let zeroed := put skb 56 [0, 0]
              put zeroed 56 (env.csum zeroed (byte skb 18+256*byte skb 19))
            else skb)
        else ended 0 vif skb)
  | .lookup =>
    replaceDest env skb (generateIpv6NetworkAddr (skb.slice 38 16)) fun _ skb => ended 0 vif skb

def nat25DbHandle (method : Method) : Program :=
  let p := protocol skb
  if p = ETH_P_IP then handleIp env vif skb method
  else if p = ETH_P_ARP then handleArp env vif skb method
  else if p = ETH_P_IPX ∨ p = ETH_P_ATALK ∨ p = ETH_P_AARP then
    match findDatagram skb with
    | some (.ipx off) => handleIpx env vif skb off method
    | some (.aarp off) => handleAarp env vif skb off method
    | some (.ddp off) => handleDdp env vif skb off method
    | none => ended (-1) vif skb
  else if p = ETH_P_PPP_DISC ∨ p = ETH_P_PPP_SES then handlePppoe env vif skb method
  else if p = 0x888E ∨ p = 0xE2AE ∨ p = 0xE2AF then
    ended (if method = .check then -1 else 0) vif skb
  else if p = ETH_P_IPV6 then handleIpv6 env vif skb method
  else ended (-1) vif skb

end Handle

/-! ## Tags -/

/-- `*(unsigned short *)(skb->data+dst) = *(unsigned short *)(skb->data+src)` -/
def copyWord (dst src : ℕ) (skb : SkBuff) : SkBuff := put skb dst (skb.slice src 2)

/-- The addresses are moved over the tag, and the frame begins four bytes later. -/
def pullTag (skb : SkBuff) : SkBuff :=
  let moved := (List.range 6).foldl (fun skb i => copyWord (14-2*i) (10-2*i) skb) skb
  ⟨fun i => moved.data (4+i), moved.len-4⟩

/-- The frame begins four bytes earlier, with what is in memory there, and the tag is put back. -/
def pushTag (front : ℕ → UInt8) (vlanHdr : List UInt8) (skb : SkBuff) : SkBuff :=
  let pushed : SkBuff := ⟨fun i => if i < 4 then front i else skb.data (i-4), skb.len+4⟩
  let moved := (List.range 6).foldl (fun skb i => copyWord (2*i) (4+2*i) skb) pushed
  put (put moved 12 [0x81, 0x00]) 14 vlanHdr

def isTagged (skb : SkBuff) : Bool := protocol skb == ETH_P_8021Q

/-! ## DHCP -/

/-- `*(unsigned short *)(skb->data+i)` on this machine. -/
def leWord (skb : SkBuff) (i : ℕ) : ℕ := byte skb i+256*byte skb (i+1)

def putLeWord (skb : SkBuff) (i n : ℕ) : SkBuff :=
  put skb i [UInt8.ofNat n, UInt8.ofNat (n/256)]

/-- `while (sum >> 16) sum = (sum & 0xffff) + (sum >> 16)`. Two turns are enough for a sum of two
words. -/
def fold16 (sum : ℕ) : ℕ :=
  let once := if 2^16 ≤ sum then sum % 2^16+sum/2^16 else sum
  if 2^16 ≤ once then once % 2^16+once/2^16 else once

/-- Where the header of UDP begins. -/
def udpAt (skb : SkBuff) : ℕ := 14+4*(byte skb 14 % 16)

/-- A request of DHCP that does not ask for a broadcast. -/
def wantsBroadcast (vif : Vif) (skb : SkBuff) : Bool :=
  let udph := udpAt skb
  let dhcph := udph+8
  !vif.dhcpBcstDisable && protocol skb == ETH_P_IP && byte skb 23 == 17 &&
    word skb udph == 68 && word skb (udph+2) == 67 &&
    skb.slice (dhcph+236) 4 == [0x63, 0x82, 0x53, 0x63] && byte skb (dhcph+10) < 128

def dhcpFlagBcast (vif : Vif) (skb : SkBuff) : SkBuff :=
  if wantsBroadcast vif skb then
    let udph := udpAt skb
    let dhcph := udph+8
    let flagged := put skb (dhcph+10) [skb.data (dhcph+10) ||| 0x80]
    let sum := fold16 (2^16-1-leWord flagged (udph+6)+leWord flagged (dhcph+10))
    putLeWord flagged (udph+6) (2^16-1-sum)
  else skb

/-! ## Both directions -/

section Both

variable (env : Env) (vif : Vif)

/-- What is left of `aic_br_client_tx` at its end. -/
def sentFrom (vif : Vif) (skb : SkBuff) : Program :=
  ended (if skb.slice 6 6 = vif.devAddr.val then 0 else -1) vif skb

/-- The memory in front of a frame, which is overwritten. -/
def frontOf (skb : SkBuff) (i : ℕ) : UInt8 := skb.data i

/-- `aic_br_client_tx` behind `NAT25_INSERT`. -/
def clientTxEnd (original : SkBuff) (tagged : Bool) (vlanHdr : List UInt8) (vif : Vif)
    (skb : SkBuff) : Program :=
  let skb := dhcpFlagBcast vif (put skb 6 vif.devAddr.val)
  sentFrom vif (if tagged then pushTag (frontOf original) vlanHdr skb else skb)

/-- `aic_br_client_tx` with what `NAT25_INSERT` returned. -/
def clientTxInserted (original : SkBuff) (tagged : Bool) (vlanHdr : List UInt8) :
    Option Handled → Program
  | none => .done none
  | some ⟨ret, vif, skb⟩ =>
    if ret = -2 then ended (-1) vif skb
    else if ret < 0 then ended 0 vif skb
    else clientTxEnd original tagged vlanHdr vif skb

/-- The long way of `aic_br_client_tx`, from `if (do_nat25)` on. -/
def clientTxTable (original : SkBuff) (tagged : Bool) (vlanHdr : List UInt8) (vif : Vif)
    (skb : SkBuff) (doNat25 : Bool) : Program :=
  if doNat25 then
    (nat25DbHandle env vif skb .check).bind fun checked =>
      match checked with
      | none => .done none
      | some ⟨ret, vif, skb⟩ =>
        -- A frame that will be changed is copied first, with its tag.
        if ret = 0 && !env.copied then
          ended (-1) vif (if tagged then pushTag (frontOf original) vlanHdr skb else skb)
        else
          let skb := if ret = 0 && tagged then
            pullTag (pushTag (frontOf original) vlanHdr skb) else skb
          if env.linearized then
            (nat25DbHandle env vif skb .insert).bind (clientTxInserted original tagged vlanHdr)
          else ended (-1) vif skb
  else clientTxEnd original tagged vlanHdr vif skb

/-- `aic_br_client_tx` -/
def aicBrClientTx (skb : SkBuff) : Program :=
  let long : Program :=
    let tagged := isTagged skb
    let vlanHdr := skb.slice 14 2
    let inner := if tagged then pullTag skb else skb
    let vif := if inner.slice 6 6 = vif.brMac.val && protocol inner == ETH_P_IP then
      { vif with brIp := inner.slice 26 4 } else vif
    if protocol inner = ETH_P_IP then
      .ask (.cacheSource env.cacheTime (inner.slice 6 6) (inner.slice 26 4)) fun answer =>
        clientTxTable env skb tagged vlanHdr vif inner answer.1
    else clientTxTable env skb tagged vlanHdr vif inner true
  if byte skb 0 % 2 = 0 ∧ env.brPort = true ∧ skb.slice 6 6 ≠ vif.brMac.val ∧
      protocol skb = ETH_P_IP then
    .ask (.shortWay env.cacheTime (skb.slice 6 6)) fun answer =>
      if answer.1 then sentFrom vif (put skb 6 vif.devAddr.val) else long
  else long

/-- `nat25_handle_frame` behind the look-up. -/
def handleFrameEnd (original : SkBuff) (tagged : Bool) (vlanHdr : List UInt8)
    (handled : Handled) : Program :=
  let skb := if tagged then pushTag (frontOf original) vlanHdr handled.skb else handled.skb
  ended (if handled.ret = -1 then -1 else 0) handled.vif skb

/-- `nat25_handle_frame` with what `NAT25_LOOKUP` returned. -/
def handleFrameFound (original : SkBuff) (tagged : Bool) (vlanHdr : List UInt8) :
    Option Handled → Program
  | none => .done none
  | some handled => handleFrameEnd original tagged vlanHdr handled

/-- `nat25_handle_frame` -/
def nat25HandleFrame (skb : SkBuff) : Program :=
  if byte skb 0 % 2 = 0 then
    let tagged := isTagged skb
    let vlanHdr := skb.slice 14 2
    let inner := if tagged then pullTag skb else skb
    let table : Program :=
      (nat25DbHandle env vif inner .lookup).bind (handleFrameFound skb tagged vlanHdr)
    let past : Program := handleFrameEnd skb tagged vlanHdr ⟨0, vif, inner⟩
    if !vif.nat25Disable then
      if !vif.nat25scDisable && protocol inner == ETH_P_IP then
        .ask (.cached (inner.slice 30 4)) fun answer =>
          match answer.2 with
          | some mac => handleFrameEnd skb tagged vlanHdr ⟨0, vif, put inner 0 mac⟩
          | none => table
      else table
    else if (protocol inner == ETH_P_IP && inner.slice 30 4 == vif.brIp) ||
        (protocol inner == ETH_P_ARP && inner.slice 38 4 == vif.brIp) then table
    else past
  else ended 0 vif skb

end Both

end AIC.Nat25Frame
