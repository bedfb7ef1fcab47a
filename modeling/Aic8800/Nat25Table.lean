import Mathlib
import Aic8800.Lib.PointerChain

/-!
# The database of network addresses

What `aic_br_ext.c` keeps of the hosts behind the bridge: the hash table of
`struct nat25_network_db_entry` with its two pointers an entry, and the cache of
the last source. Each function is one section of `br_ext_lock`. There is no
result where freed memory or a null pointer is used or a walk does not end.
-/

set_option autoImplicit false

namespace AIC.Nat25Table
open Lib.PointerChain

def NAT25_IPV4 : UInt8 := 1
def NAT25_IPV6 : UInt8 := 2
def NAT25_IPX : UInt8 := 3
def NAT25_APPLE : UInt8 := 4
def NAT25_PPPOE : UInt8 := 5

def NAT25_AGEING_TIME : UInt32 := 300

/-- `networkAddr[MAX_NETWORK_ADDR_LEN]`, 17 bytes. -/
abbrev NetworkAddr := List UInt8

/-- `struct nat25_network_db_entry` without its two pointers. -/
structure Entry where
  useCount : UInt32
  macAddr : List UInt8
  ageingTimer : UInt32
  networkAddr : NetworkAddr
deriving DecidableEq

/-- `nethash` with the entries, and `scdb_mac`, `scdb_ip` and `scdb_entry`. -/
structure Db where
  links : Links ℕ (Fin 16)
  entry : ℕ → Entry
  scdbMac : List UInt8
  scdbIp : List UInt8
  scdbEntry : Option ℕ

def xorAt (networkAddr : NetworkAddr) (positions : List ℕ) : UInt8 :=
  positions.foldl (fun x i => x ^^^ networkAddr.getD i 0) 0

theorem masked_lt (x : UInt8) : (x &&& 15).toNat < 16 :=
  Nat.lt_of_le_of_lt (by rw [UInt8.toNat_and]; exact Nat.and_le_right) (by decide : 15 < 16)

/-- `__nat25_network_hash` -/
def networkHash (networkAddr : NetworkAddr) : Fin 16 :=
  let type := networkAddr.getD 0 0
  let x :=
    if type = NAT25_IPV4 then xorAt networkAddr [7, 8, 9, 10]
    else if type = NAT25_IPX then xorAt networkAddr [1, 2, 3, 4, 5, 6, 7, 8, 9, 10]
    else if type = NAT25_APPLE then xorAt networkAddr [1, 2, 3]
    else if type = NAT25_PPPOE then xorAt networkAddr [0, 1, 2, 3, 4, 5, 6, 7, 8]
    else if type = NAT25_IPV6 then
      xorAt networkAddr [1, 2, 3, 4, 5, 6, 7, 8, 9, 10, 11, 12, 13, 14, 15, 16]
    else xorAt networkAddr (List.range 17)
  ⟨(x &&& 15).toNat, masked_lt x⟩

/-- `__nat25_generate_ipv4_network_addr` -/
def generateIpv4NetworkAddr (ipAddr : List UInt8) : NetworkAddr :=
  NAT25_IPV4::List.replicate 6 0++ipAddr++List.replicate 6 0

def Db.setEntry (db : Db) (a : ℕ) (e : Entry) : Db :=
  { db with entry := Function.update db.entry a e }

/-- The walk along the chain of the address. No chain has more entries than there are. -/
def Db.find (db : Db) (networkAddr : NetworkAddr) : Option (Option ℕ) :=
  db.links.find (fun a => (db.entry a).networkAddr == networkAddr) db.links.live.length
    (db.links.head (networkHash networkAddr))

/-- The address of a new entry. It is taken from outside, and none that is in use is given. -/
def kmalloc (live : List ℕ) (want : ℕ) : ℕ := if want ∈ live then live.sum+1 else want

section Time

-- `HZ`
variable (hz : UInt32)

def timeout (jiffies : UInt32) : UInt32 := jiffies-NAT25_AGEING_TIME*hz

/-- `time_before_eq(fdb->ageing_timer, __nat25_timeout(vif))`, with the sign bit of the difference
of two words. -/
def hasExpired (jiffies ageingTimer : UInt32) : Bool :=
  decide ((timeout hz jiffies-ageingTimer).toNat < 2^31)

/-- `__nat25_db_network_lookup_and_replace`: the value it returns, and the address that is written
over the destination of the frame. -/
def Db.lookupAndReplace (db : Db) (jiffies : UInt32) (networkAddr : NetworkAddr) :
    Option (Db × Bool × Option (List UInt8)) := do
  match ← db.find networkAddr with
  | none => some (db, false, none)
  | some a =>
    let e := db.entry a
    if hasExpired hz jiffies e.ageingTimer then some (db, true, none)
    else some (db.setEntry a { e with useCount := e.useCount+1 }, true, some e.macAddr)

/-- `__nat25_db_network_insert`. There is memory for a new entry or not. -/
def Db.insert (db : Db) (jiffies : UInt32) (macAddr : List UInt8) (networkAddr : NetworkAddr)
    (room : Bool) (want : ℕ) : Option Db := do
  match ← db.find networkAddr with
  | some a =>
    let e := db.entry a
    some (db.setEntry a { e with macAddr := macAddr, ageingTimer := jiffies })
  | none =>
    if room then
      let a := kmalloc db.links.live want
      let db := { db with links := { db.links with live := a::db.links.live } }
      let db := db.setEntry a ⟨1, macAddr, jiffies, networkAddr⟩
      let links ← db.links.link (networkHash networkAddr) a
      some { db with links := links }
    else some db

/-- The lines that `nat25_db_cleanup` and `nat25_db_expire` have about an entry that goes. -/
def Db.release (db : Db) (f : ℕ) : Option Db := do
  let db := if db.scdbEntry = some f then
      { db with scdbMac := List.replicate 6 0, scdbIp := List.replicate 4 0, scdbEntry := none }
    else db
  let links ← db.links.unlink f
  let links ← links.free f
  some { db with links := links }

/-- `while (f != NULL)`, with the next entry read before the turn. -/
def sweepChain (turn : Db → ℕ → Option Db) : ℕ → Option ℕ → Db → Option Db
  | _, none, db => some db
  | 0, some _, _ => none
  | fuel+1, some f, db =>
    if f ∈ db.links.live then
      (turn db f).bind (sweepChain turn fuel (db.links.next f))
    else none

/-- `for (i = 0; i < NAT25_HASH_SIZE; i++)` -/
def sweep (turn : Db → ℕ → Option Db) (db : Db) : Option Db :=
  (List.finRange 16).foldlM (fun db i =>
    sweepChain turn db.links.live.length (db.links.head i) db) db

def nat25DbCleanup (db : Db) : Option Db := sweep Db.release db

/-- One entry in `nat25_db_expire`. -/
def expireTurn (jiffies : UInt32) (db : Db) (f : ℕ) : Option Db :=
  let e := db.entry f
  if hasExpired hz jiffies e.ageingTimer then
    let db := db.setEntry f { e with useCount := e.useCount-1 }
    if e.useCount-1 = 0 then db.release f else some db
  else some db

def nat25DbExpire (jiffies : UInt32) (db : Db) : Option Db := sweep (expireTurn hz jiffies) db

/-! ## The cache of the last source -/

def scdbFindEntry (db : Db) (ipAddr : List UInt8) : Option (Option ℕ) :=
  db.find (generateIpv4NetworkAddr ipAddr)

/-- `vif->scdb_entry->ageing_timer = jiffies` -/
def Db.touch (db : Db) (jiffies : UInt32) (a : ℕ) : Option Db :=
  if a ∈ db.links.live then
    some (db.setEntry a { db.entry a with ageingTimer := jiffies })
  else none

/-- The short way of `aic_br_client_tx`, and whether it is taken. -/
def Db.shortWay (db : Db) (jiffies : UInt32) (source : List UInt8) : Option (Db × Bool) :=
  match db.scdbEntry with
  | some a => if db.scdbMac = source then (db.touch jiffies a).map (·, true) else some (db, false)
  | none => some (db, false)

/-- What `aic_br_client_tx` does with the cache at an IP frame that went the long way, and
`do_nat25` behind it. -/
def Db.cacheSource (db : Db) (jiffies : UInt32) (source ipAddr : List UInt8) :
    Option (Db × Bool) := do
  if db.scdbMac ≠ source then
    match ← scdbFindEntry db ipAddr with
    | some a =>
      let db := { db with scdbMac := source, scdbIp := ipAddr, scdbEntry := some a }
      (db.touch jiffies a).map (·, false)
    | none => some ({ db with scdbEntry := none }, true)
  else
    match db.scdbEntry with
    | some a => (db.touch jiffies a).map (·, false)
    | none =>
      some ({ db with scdbMac := List.replicate 6 0, scdbIp := List.replicate 4 0 }, true)

/-- The address of the cache for a destination, in `nat25_handle_frame`. -/
def Db.cached (db : Db) (ipAddr : List UInt8) : Option (List UInt8) :=
  if db.scdbIp = ipAddr then some db.scdbMac else none

/-! ## Calls -/

inductive Call where
  | lookup (jiffies : UInt32) (networkAddr : NetworkAddr)
  | insert (jiffies : UInt32) (macAddr : List UInt8) (networkAddr : NetworkAddr) (room : Bool)
      (want : ℕ)
  | cleanup
  | expire (jiffies : UInt32)
  | shortWay (jiffies : UInt32) (source : List UInt8)
  | cacheSource (jiffies : UInt32) (source ipAddr : List UInt8)
  | cached (ipAddr : List UInt8)

/-- What a call tells: a truth value, and an address for the frame. -/
abbrev Answer := Bool × Option (List UInt8)

def Db.call (db : Db) : Call → Option (Db × Answer)
  | .lookup jiffies networkAddr => db.lookupAndReplace hz jiffies networkAddr
  | .insert jiffies macAddr networkAddr room want =>
    (db.insert jiffies macAddr networkAddr room want).map (·, true, none)
  | .cleanup => (nat25DbCleanup db).map (·, true, none)
  | .expire jiffies => (nat25DbExpire hz jiffies db).map (·, true, none)
  | .shortWay jiffies source => (db.shortWay jiffies source).map fun r => (r.1, r.2, none)
  | .cacheSource jiffies source ipAddr =>
    (db.cacheSource jiffies source ipAddr).map fun r => (r.1, r.2, none)
  | .cached ipAddr => some (db, true, db.cached ipAddr)

/-- The calls one after the other, and what they tell. -/
def Db.calls : Db → List Call → Option (Db × List Answer)
  | db, [] => some (db, [])
  | db, c::cs => do
    let (db, answer) ← db.call hz c
    let (db, answers) ← db.calls cs
    some (db, answer::answers)

/-- The table of an interface that was set to zero. -/
def Db.empty : Db :=
  ⟨⟨[], fun _ => none, fun _ => none, fun _ => none⟩, fun _ => ⟨0, [], 0, []⟩,
    List.replicate 6 0, List.replicate 4 0, none⟩

/-! ## The map that the database stands for -/

structure Host where
  mac : List UInt8
  age : UInt32
  used : UInt32

/-- The hosts by their addresses, and the cache, with the address of the host it is about. -/
structure HostMap where
  host : NetworkAddr → Option Host
  mac : List UInt8
  ip : List UInt8
  cacheOf : Option NetworkAddr

def HostMap.put (m : HostMap) (networkAddr : NetworkAddr) (h : Host) : HostMap :=
  { m with host := Function.update m.host networkAddr (some h) }

def HostMap.lookup (m : HostMap) (jiffies : UInt32) (networkAddr : NetworkAddr) :
    HostMap × Answer :=
  match m.host networkAddr with
  | none => (m, false, none)
  | some h =>
    if hasExpired hz jiffies h.age then (m, true, none)
    else (m.put networkAddr { h with used := h.used+1 }, true, some h.mac)

def HostMap.insert (m : HostMap) (jiffies : UInt32) (mac : List UInt8) (networkAddr : NetworkAddr)
    (room : Bool) : HostMap :=
  match m.host networkAddr with
  | some h => m.put networkAddr { h with mac := mac, age := jiffies }
  | none => if room then m.put networkAddr ⟨mac, jiffies, 1⟩ else m

/-- The hosts that are left, with what they are now. The cache of a host that goes is cleared. -/
def HostMap.keep (m : HostMap) (stay : Host → Option Host) : HostMap :=
  let host networkAddr := (m.host networkAddr).bind stay
  if m.cacheOf.any fun networkAddr => (host networkAddr).isNone then
    ⟨host, List.replicate 6 0, List.replicate 4 0, none⟩
  else { m with host := host }

def expired (jiffies : UInt32) (h : Host) : Option Host :=
  if hasExpired hz jiffies h.age then
    if h.used-1 = 0 then none else some { h with used := h.used-1 }
  else some h

def HostMap.touch (m : HostMap) (jiffies : UInt32) (networkAddr : NetworkAddr) : HostMap :=
  { m with
    host := Function.update m.host networkAddr
      ((m.host networkAddr).map fun h => { h with age := jiffies }) }

def HostMap.shortWay (m : HostMap) (jiffies : UInt32) (source : List UInt8) : HostMap × Bool :=
  match m.cacheOf with
  | some networkAddr => if m.mac = source then (m.touch jiffies networkAddr, true) else (m, false)
  | none => (m, false)

def HostMap.cacheSource (m : HostMap) (jiffies : UInt32) (source ipAddr : List UInt8) :
    HostMap × Bool :=
  let networkAddr := generateIpv4NetworkAddr ipAddr
  if m.mac ≠ source then
    if (m.host networkAddr).isSome then
      ({ m.touch jiffies networkAddr with
        mac := source, ip := ipAddr, cacheOf := some networkAddr }, false)
    else ({ m with cacheOf := none }, true)
  else
    match m.cacheOf with
    | some networkAddr => (m.touch jiffies networkAddr, false)
    | none => ({ m with mac := List.replicate 6 0, ip := List.replicate 4 0 }, true)

def HostMap.call (m : HostMap) : Call → HostMap × Answer
  | .lookup jiffies networkAddr => m.lookup hz jiffies networkAddr
  | .insert jiffies macAddr networkAddr room _ =>
    (m.insert jiffies macAddr networkAddr room, true, none)
  | .cleanup => (m.keep fun _ => none, true, none)
  | .expire jiffies => (m.keep (expired hz jiffies), true, none)
  | .shortWay jiffies source => ((m.shortWay jiffies source).1, (m.shortWay jiffies source).2, none)
  | .cacheSource jiffies source ipAddr =>
    ((m.cacheSource jiffies source ipAddr).1, (m.cacheSource jiffies source ipAddr).2, none)
  | .cached ipAddr => (m, true, if m.ip = ipAddr then some m.mac else none)

def HostMap.calls : HostMap → List Call → HostMap × List Answer
  | m, [] => (m, [])
  | m, c::cs =>
    let r := m.call hz c
    let rest := r.1.calls cs
    (rest.1, r.2::rest.2)

def HostMap.empty : HostMap := ⟨fun _ => none, List.replicate 6 0, List.replicate 4 0, none⟩

end Time

end AIC.Nat25Table
