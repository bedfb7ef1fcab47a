import Aic8800.Nat25Frame

/-!
# No frame goes to another host

Each address of the network belongs to one host, and the frames that are sent say
so. Then, in every order in which the sections of the lock of all frames, of a
disconnection and of the expiry follow one another, a frame that comes in for an
address is given to its host, or to no host at all.
-/

set_option autoImplicit false

namespace AIC.Nat25Translation
open Lib.CallProgram Lib.FlatMemory AIC.Nat25Table AIC.Nat25Refines AIC.Nat25Frame

def anyIp : List UInt8 := List.replicate 4 0

/-! ## The map -/

section Map

variable (owner : List UInt8 → Mac)

structure Owned (m : HostMap) : Prop where
  host : ∀ ip h, ip.length = 4 → ip ≠ anyIp → m.host (generateIpv4NetworkAddr ip) = some h →
    h.mac = (owner ip).val
  cache : m.ip ≠ anyIp → m.mac = (owner m.ip).val

/-- The calls of a frame that says to whom its source belongs. -/
def Allowed : Call → Prop
  | .insert _ mac x _ _ => ∀ ip, ip.length = 4 → ip ≠ anyIp → x = generateIpv4NetworkAddr ip →
    mac = (owner ip).val
  | .cacheSource _ source ip => ip ≠ anyIp → source = (owner ip).val
  | _ => True

def Tells : Call → Answer → Prop
  | .lookup _ x, a => ∀ ip mac, ip.length = 4 → ip ≠ anyIp → x = generateIpv4NetworkAddr ip →
    a.2 = some mac → mac = (owner ip).val
  | .cached ip, a => ∀ mac, ip ≠ anyIp → a.2 = some mac → mac = (owner ip).val
  | _, _ => True

variable {owner} {m : HostMap} {x : NetworkAddr}

theorem owned_empty : Owned owner HostMap.empty := by
  constructor
  · intro ip h _ _ hh
    cases hh
  · intro h
    exact absurd rfl h

theorem Owned.put (hm : Owned owner m) {g : Host}
    (hg : ∀ ip, ip.length = 4 → ip ≠ anyIp → x = generateIpv4NetworkAddr ip →
      g.mac = (owner ip).val) : Owned owner (m.put x g) := by
  refine ⟨fun ip h hlen hne hh => ?_, hm.cache⟩
  by_cases hx : generateIpv4NetworkAddr ip = x
  · have hself : (m.put x g).host x = some g := Function.update_self ..
    rw [hx, hself] at hh
    rw [← Option.some.inj hh]
    exact hg ip hlen hne hx.symm
  · exact hm.host ip h hlen hne ((Function.update_of_ne hx _ _).symm.trans hh)

theorem Owned.touch (hm : Owned owner m) (jiffies : UInt32) (x : NetworkAddr) :
    Owned owner (m.touch jiffies x) := by
  refine ⟨fun ip h hlen hne hh => ?_, hm.cache⟩
  by_cases hx : generateIpv4NetworkAddr ip = x
  · have hself : (m.touch jiffies x).host x =
        (m.host x).map fun h => { h with age := jiffies } := Function.update_self ..
    rw [hx, hself, Option.map_eq_some_iff] at hh
    obtain ⟨g, hg, rfl⟩ := hh
    exact hm.host ip g hlen hne (hx ▸ hg)
  · exact hm.host ip h hlen hne ((Function.update_of_ne hx _ _).symm.trans hh)

theorem Owned.keep (hm : Owned owner m) {stay : Host → Option Host}
    (hstay : ∀ g h, stay g = some h → h.mac = g.mac) : Owned owner (m.keep stay) := by
  have hhost : ∀ ip h, ip.length = 4 → ip ≠ anyIp →
      (m.host (generateIpv4NetworkAddr ip)).bind stay = some h → h.mac = (owner ip).val := by
    intro ip h hlen hne hh
    obtain ⟨g, hg, hs⟩ := Option.bind_eq_some_iff.mp hh
    rw [hstay g h hs]
    exact hm.host ip g hlen hne hg
  unfold HostMap.keep
  simp only
  split_ifs
  · exact ⟨hhost, fun h => absurd rfl h⟩
  · exact ⟨hhost, hm.cache⟩

theorem expired_mac {hz jiffies : UInt32} {g h : Host} (hs : expired hz jiffies g = some h) :
    h.mac = g.mac := by
  unfold expired at hs
  split_ifs at hs
  · rw [← Option.some.inj hs]
  · rw [← Option.some.inj hs]

theorem Owned.lookup (hm : Owned owner m) (hz jiffies : UInt32) (x : NetworkAddr) :
    Owned owner (m.lookup hz jiffies x).1 ∧
      Tells owner (.lookup jiffies x) (m.lookup hz jiffies x).2 := by
  unfold HostMap.lookup
  cases hx : m.host x with
  | none => exact ⟨hm, fun _ _ _ _ _ h => by cases h⟩
  | some g =>
    have hg : ∀ ip, ip.length = 4 → ip ≠ anyIp → x = generateIpv4NetworkAddr ip →
        g.mac = (owner ip).val := fun ip hlen hne he => hm.host ip g hlen hne (he ▸ hx)
    by_cases hage : hasExpired hz jiffies g.age = true
    · simp only [if_pos hage]
      exact ⟨hm, fun _ _ _ _ _ h => by cases h⟩
    · simp only [if_neg hage]
      refine ⟨hm.put hg, fun ip mac hlen hne he hmac => ?_⟩
      rw [← Option.some.inj hmac]
      exact hg ip hlen hne he

theorem Owned.insert (hm : Owned owner m) {jiffies : UInt32} {mac : List UInt8} {room : Bool}
    {want : ℕ} (hc : Allowed owner (.insert jiffies mac x room want)) :
    Owned owner (m.insert jiffies mac x room) := by
  unfold HostMap.insert
  cases hx : m.host x with
  | none =>
    cases room with
    | false => exact hm
    | true => exact hm.put hc
  | some g => exact hm.put hc

theorem Owned.shortWay (hm : Owned owner m) (jiffies : UInt32) (source : List UInt8) :
    Owned owner (m.shortWay jiffies source).1 := by
  unfold HostMap.shortWay
  cases m.cacheOf with
  | none => exact hm
  | some x =>
    simp only
    split_ifs
    · exact hm.touch jiffies x
    · exact hm

theorem Owned.cacheSource (hm : Owned owner m) {jiffies : UInt32} {source ip : List UInt8}
    (hc : Allowed owner (.cacheSource jiffies source ip)) :
    Owned owner (m.cacheSource jiffies source ip).1 := by
  unfold HostMap.cacheSource
  simp only
  split_ifs
  · exact ⟨(hm.touch jiffies _).host, hc⟩
  · exact ⟨hm.host, hm.cache⟩
  · cases m.cacheOf with
    | none => exact ⟨hm.host, fun h => absurd rfl h⟩
    | some x => exact hm.touch jiffies x

theorem Owned.call (hm : Owned owner m) (hz : UInt32) {c : Call} (hc : Allowed owner c) :
    Owned owner (m.call hz c).1 ∧ Tells owner c (m.call hz c).2 := by
  cases c with
  | lookup jiffies x => exact hm.lookup hz jiffies x
  | insert jiffies mac x room want => exact ⟨hm.insert hc, trivial⟩
  | cleanup => exact ⟨hm.keep (fun _ _ h => by cases h), trivial⟩
  | expire jiffies => exact ⟨hm.keep (fun _ _ h => expired_mac h), trivial⟩
  | shortWay jiffies source => exact ⟨hm.shortWay jiffies source, trivial⟩
  | cacheSource jiffies source ip => exact ⟨hm.cacheSource hc, trivial⟩
  | cached ip =>
    refine ⟨hm, fun mac hne hmac => ?_⟩
    simp only [HostMap.call] at hmac
    split_ifs at hmac with hip
    · rw [← Option.some.inj hmac, ← hip]
      exact hm.cache (hip ▸ hne)

/-- The table with its pointers answers as the map does. -/
theorem db_serves (hz : UInt32) :
    Serves (Db.call hz) (fun db => ∃ chains m, Stands db chains m ∧ Owned owner m) (Allowed owner)
      (Tells owner) := by
  rintro db c ⟨chains, m, hstands, hm⟩ hc
  obtain ⟨db', chains', hrun, hstands'⟩ := hstands.call hz c
  obtain ⟨hm', htells⟩ := hm.call hz hc
  exact ⟨db', _, hrun, ⟨chains', _, hstands', hm'⟩, htells⟩

end Map

/-! ## The memory of a frame -/

theorem put_outside {skb : SkBuff} {i : ℕ} {bytes : List UInt8} {j : ℕ}
    (h : j < i ∨ i+bytes.length ≤ j) : (put skb i bytes).data j = skb.data j := store_outside h

theorem put_slice {skb : SkBuff} {i n : ℕ} {bytes : List UInt8} (h : bytes.length = n) :
    (put skb i bytes).slice i n = bytes := by
  subst h
  refine List.ext_getElem (by simp [SkBuff.slice]) fun j hj hj' => ?_
  simp only [SkBuff.slice, List.getElem_map, List.getElem_range]
  exact store_inside hj'

theorem put_slice_of_disjoint {skb : SkBuff} {i k n : ℕ} {bytes : List UInt8}
    (h : k+n ≤ i ∨ i+bytes.length ≤ k) : (put skb i bytes).slice k n = skb.slice k n := by
  refine List.map_congr_left fun j hj => ?_
  have hjn : j < n := List.mem_range.mp hj
  exact put_outside (by omega)

theorem slice_length (skb : SkBuff) (i n : ℕ) : (skb.slice i n).length = n := by
  simp [SkBuff.slice]

theorem copyWord_data (dst src : ℕ) (skb : SkBuff) (i : ℕ) :
    (copyWord dst src skb).data i =
      if i = dst then skb.data src else if i = dst+1 then skb.data (src+1) else skb.data i := by
  have htwo : skb.slice src 2 = [skb.data src, skb.data (src+1)] := rfl
  rw [copyWord, put, htwo]
  simp only [store, fill]
  split_ifs <;> first | rfl | omega

theorem pullTag_data (skb : SkBuff) (i : ℕ) :
    (pullTag skb).data i = if i < 12 then skb.data i else skb.data (i+4) := by
  have hturns : ∀ n ≤ 6, ∀ j, ((List.range n).foldl
      (fun skb i => copyWord (14-2*i) (10-2*i) skb) skb).data j =
        if 16-2*n ≤ j ∧ j < 16 then skb.data (j-4) else skb.data j := by
    intro n
    induction n with
    | zero =>
      intro _ j
      rw [if_neg (by omega)]
      rfl
    | succ n ih =>
      intro hn j
      rw [List.range_succ, List.foldl_append, List.foldl_cons, List.foldl_nil, copyWord_data,
        ih (by omega), ih (by omega), ih (by omega)]
      split_ifs <;> first | omega | exact congrArg skb.data (by omega)
  refine (hturns 6 le_rfl (4+i)).trans ?_
  split_ifs <;> first | omega | exact congrArg skb.data (by omega)

theorem pushTag_data (front : ℕ → UInt8) (tci : UInt8 × UInt8) (skb : SkBuff) (i : ℕ) :
    (pushTag front [tci.1, tci.2] skb).data i =
      if i < 12 then skb.data i else if i = 12 then 0x81 else if i = 13 then 0
      else if i = 14 then tci.1 else if i = 15 then tci.2 else skb.data (i-4) := by
  let pushed : SkBuff := ⟨fun i => if i < 4 then front i else skb.data (i-4), skb.len+4⟩
  have hturns : ∀ n ≤ 6, ∀ j, ((List.range n).foldl
      (fun skb i => copyWord (2*i) (4+2*i) skb) pushed).data j =
        if j < 2*n then skb.data j else pushed.data j := by
    intro n
    induction n with
    | zero =>
      intro _ j
      rw [if_neg (by omega)]
      rfl
    | succ n ih =>
      intro hn j
      rw [List.range_succ, List.foldl_append, List.foldl_cons, List.foldl_nil, copyWord_data,
        ih (by omega), ih (by omega), ih (by omega)]
      simp only [pushed]
      split_ifs <;> first | omega | rfl | exact congrArg skb.data (by omega)
  have hmoved := hturns 6 le_rfl i
  have hput : (pushTag front [tci.1, tci.2] skb).data i =
      if i = 15 then tci.2 else if i = 14 then tci.1 else if i = 13 then 0
      else if i = 12 then 0x81 else ((List.range 6).foldl
        (fun skb i => copyWord (2*i) (4+2*i) skb) pushed).data i := by
    simp only [pushTag, put, store, fill]
    split_ifs <;> first | rfl | omega
  rw [hput, hmoved]
  simp only [pushed]
  split_ifs <;> first | omega | rfl

/-- A frame that is given back its tag and stripped of it once more is as it was. -/
theorem pullTag_pushTag (front : ℕ → UInt8) (original skb : SkBuff) :
    (pullTag (pushTag front (original.slice 14 2) skb)).data = skb.data := by
  funext i
  have htci : original.slice 14 2 = [original.data 14, original.data 15] := rfl
  rw [pullTag_data, htci, pushTag_data front (original.data 14, original.data 15),
    pushTag_data front (original.data 14, original.data 15)]
  split_ifs <;> first | omega | rfl

theorem pushTag_dest (front : ℕ → UInt8) (original skb : SkBuff) :
    (pushTag front (original.slice 14 2) skb).slice 0 6 = skb.slice 0 6 := by
  have htci : original.slice 14 2 = [original.data 14, original.data 15] := rfl
  refine List.map_congr_left fun i hi => ?_
  have hi6 : i < 6 := List.mem_range.mp hi
  rw [htci, pushTag_data front (original.data 14, original.data 15), if_pos (by omega)]

/-! ## Addresses -/

theorem ipv4_inj {ip ip' : List UInt8} (hlen : ip.length = 4) (hlen' : ip'.length = 4)
    (h : generateIpv4NetworkAddr ip = generateIpv4NetworkAddr ip') : ip = ip' := by
  simp only [generateIpv4NetworkAddr, List.cons_append, List.append_assoc, List.cons.injEq,
    true_and] at h
  exact (List.append_inj (List.append_cancel_left h) (hlen.trans hlen'.symm)).1

theorem other_type {t : UInt8} (ht : t ≠ NAT25_IPV4) (l ip : List UInt8) :
    t::l ≠ generateIpv4NetworkAddr ip := by
  intro h
  simp only [generateIpv4NetworkAddr, List.cons_append, List.cons.injEq] at h
  exact ht h.1

/-! ## Frames that are sent -/

section Programs

variable {owner : List UInt8 → Mac} {env : Env} {vif : Vif} {skb : SkBuff}
  {post : Option Handled → Prop}

/-- The source of a frame without a tag says to whom its address of the network belongs. -/
structure TellsOwner (owner : List UInt8 → Mac) (skb : SkBuff) : Prop where
  ip : protocol skb = ETH_P_IP → skb.slice 26 4 ≠ anyIp →
    skb.slice 6 6 = (owner (skb.slice 26 4)).val
  arp : protocol skb = ETH_P_ARP → word skb 16 = ETH_P_IP → byte skb 18 = 6 ∧
    (skb.slice 28 4 ≠ anyIp → skb.slice 6 6 = (owner (skb.slice 28 4)).val)

/-- Whatever the program ends with, its calls are allowed. -/
structure Always (owner : List UInt8 → Mac) (p : Program) : Prop where
  ends : Ends (Allowed owner) (Tells owner) (fun _ => True) p

theorem always_ended (ret : ℤ) (vif : Vif) (skb : SkBuff) :
    Always owner (ended ret vif skb) := ⟨True.intro⟩

theorem always_none : Always owner (.done none) := ⟨True.intro⟩

theorem always_ask {c : Call} {next : Answer → Program} (hc : Allowed owner c)
    (hnext : ∀ a, Tells owner c a → Always owner (next a)) : Always owner (.ask c next) :=
  ⟨hc, fun a ha => (hnext a ha).ends⟩

theorem Always.bind {p : Program} {f : Option Handled → Program} (hp : Always owner p)
    (hf : ∀ r, Always owner (f r)) : Always owner (p.bind f) :=
  ⟨Ends.bind (Ends.mono hp.ends fun r _ => (hf r).ends)⟩

theorem always_ite {c : Prop} [Decidable c] {p q : Program} (hp : c → Always owner p)
    (hq : ¬ c → Always owner q) : Always owner (if c then p else q) := by
  split_ifs with h
  · exact hp h
  · exact hq h

theorem insertSource_other {t : UInt8} (ht : t ≠ NAT25_IPV4) (l : List UInt8) {next : Program}
    (hnext : Always owner next) : Always owner (insertSource env skb (t::l) next) :=
  always_ask (fun ip _ _ he => absurd he (other_type ht l ip)) fun _ _ => hnext

theorem insertSource_ip {ip : List UInt8} (hlen : ip.length = 4) {next : Program}
    (hip : ip ≠ anyIp → skb.slice 6 6 = (owner ip).val) (hnext : Always owner next) :
    Always owner (insertSource env skb (generateIpv4NetworkAddr ip) next) :=
  always_ask (fun _ hlen' hne he => ipv4_inj hlen hlen' he ▸ hip (ipv4_inj hlen hlen' he ▸ hne))
    fun _ _ => hnext

theorem replaceDest_always {x : NetworkAddr} {next : Bool → SkBuff → Program}
    (hnext : ∀ found skb', Always owner (next found skb')) :
    Always owner (replaceDest env skb x next) :=
  always_ask trivial fun _ _ => hnext _ _

theorem addRelayTag_always : Always owner (addRelayTag env vif skb) := by
  have htag : ∀ n tag (skb : SkBuff), Always owner (addPppoeTag env vif skb n tag) :=
    fun n tag skb => always_ite (fun _ => always_ended _ _ _) fun _ =>
      always_ite (fun _ => always_none) fun _ => always_ended _ _ _
  unfold addRelayTag
  cases findPppoeTag skb PTT_RELAY_SID (word skb 18+1) 20 with
  | none => exact htag _ _ _
  | some cur =>
    refine always_ite (fun _ => always_ended _ _ _) fun _ => ?_
    cases skbPullAndMerge skb cur (TAG_HDR_LEN+word skb (cur+2)) with
    | none => exact always_ended _ _ _
    | some skb' => exact htag _ _ _

theorem handleIp_insert (hip : skb.slice 26 4 ≠ anyIp →
    skb.slice 6 6 = (owner (skb.slice 26 4)).val) :
    Always owner (handleIp env vif skb .insert) :=
  always_ite (fun _ => always_ended _ _ _) fun _ => always_ite (fun _ => always_ended _ _ _)
    fun _ => insertSource_ip (slice_length skb 26 4) hip (always_ended _ _ _)

theorem handleArp_insert (harp : word skb 16 = ETH_P_IP → byte skb 18 = 6 ∧
    (skb.slice 28 4 ≠ anyIp → skb.slice 6 6 = (owner (skb.slice 28 4)).val)) :
    Always owner (handleArp env vif skb .insert) := by
  refine always_ite (fun _ => always_ended _ _ _) fun hpro => ?_
  obtain ⟨hhln, hip⟩ := harp (not_not.mp hpro)
  have hmac : (put skb 22 vif.devAddr.val).slice 6 6 = skb.slice 6 6 :=
    put_slice_of_disjoint (.inl (by decide))
  have hsender : (put skb 22 vif.devAddr.val).slice (22+byte skb 18) 4 = skb.slice 28 4 := by
    rw [hhln]
    exact put_slice_of_disjoint (.inr (by rw [vif.devAddr.property]))
  change Always owner (insertSource env (put skb 22 vif.devAddr.val) (generateIpv4NetworkAddr
    ((put skb 22 vif.devAddr.val).slice (22+byte skb 18) 4)) _)
  rw [hsender]
  exact insertSource_ip (slice_length skb 28 4) (hmac ▸ hip) (always_ended _ _ _)

theorem handlePppoe_insert : Always owner (handlePppoe env vif skb .insert) := by
  refine always_ite (fun _ => always_ite (fun _ => ?_) fun _ => always_ended _ _ _) fun _ =>
    insertSource_other (by decide) _ (always_ended _ _ _)
  exact always_ite (fun _ => addRelayTag_always) fun _ =>
    always_ite (fun _ => always_ended _ _ _) fun _ => always_ended _ _ _

theorem handleIpv6_insert : Always owner (handleIpv6 env vif skb .insert) := by
  unfold handleIpv6
  refine always_ite (fun _ => always_ended _ _ _) fun _ => ?_
  change Always owner (if _ then _ else _)
  refine always_ite (fun _ => always_ended _ _ _) fun _ => insertSource_other (by decide) _ ?_
  refine always_ite (fun _ => ?_) fun _ => always_ended _ _ _
  cases updateNdLinkLayerAddr skb vif.devAddr.val with
  | none => exact always_none
  | some r => exact always_ended _ _ _

theorem datagram_insert :
    Always owner (match findDatagram skb with
      | some (.ipx off) => handleIpx env vif skb off .insert
      | some (.aarp off) => handleAarp env vif skb off .insert
      | some (.ddp off) => handleDdp env vif skb off .insert
      | none => ended (-1) vif skb) := by
  cases findDatagram skb with
  | none => exact always_ended _ _ _
  | some d =>
    cases d with
    | ipx off =>
      exact always_ite (fun _ => insertSource_other (by decide) _ (always_ended _ _ _)) fun _ =>
        insertSource_other (by decide) _ (always_ended _ _ _)
    | aarp off =>
      exact always_ite (fun _ => always_ended _ _ _) fun _ =>
        insertSource_other (by decide) _ (always_ended _ _ _)
    | ddp off => exact insertSource_other (by decide) _ (always_ended _ _ _)

/-- What `NAT25_INSERT` asks for is allowed. -/
theorem handle_insert (h : TellsOwner owner skb) :
    Always owner (nat25DbHandle env vif skb .insert) := by
  unfold nat25DbHandle
  refine always_ite (fun hip => handleIp_insert (h.ip hip)) fun _ => ?_
  refine always_ite (fun harp => handleArp_insert (h.arp harp)) fun _ => ?_
  refine always_ite (fun _ => datagram_insert) fun _ => ?_
  refine always_ite (fun _ => handlePppoe_insert) fun _ => ?_
  refine always_ite (fun _ => always_ended _ _ _) fun _ => ?_
  exact always_ite (fun _ => handleIpv6_insert) fun _ => always_ended _ _ _

/-- Whatever frame comes in, `NAT25_LOOKUP` only looks up. -/
theorem handle_lookup : Always owner (nat25DbHandle env vif skb .lookup) := by
  have hend : ∀ {x : NetworkAddr} {next : Bool → SkBuff → Program},
      (∀ found skb', Always owner (next found skb')) →
      Always owner (replaceDest env skb x next) := fun h => replaceDest_always h
  have hip : Always owner (handleIp env vif skb .lookup) :=
    always_ite (fun _ => always_ended _ _ _) fun _ => hend fun _ _ =>
      always_ite (fun _ => always_ended _ _ _) fun _ => always_ite (fun _ => always_ended _ _ _)
        fun _ => always_ended _ _ _
  have harp : Always owner (handleArp env vif skb .lookup) :=
    always_ite (fun _ => always_ended _ _ _) fun _ => hend fun _ _ => always_ended _ _ _
  have hgram : Always owner (match findDatagram skb with
      | some (.ipx off) => handleIpx env vif skb off .lookup
      | some (.aarp off) => handleAarp env vif skb off .lookup
      | some (.ddp off) => handleDdp env vif skb off .lookup
      | none => ended (-1) vif skb) := by
    cases findDatagram skb with
    | none => exact always_ended _ _ _
    | some d =>
      cases d with
      | ipx off =>
        exact always_ite (fun _ => hend fun _ _ => always_ended _ _ _) fun _ =>
          hend fun _ _ => always_ended _ _ _
      | aarp off =>
        exact always_ite (fun _ => always_ended _ _ _) fun _ => hend fun _ _ => always_ended _ _ _
      | ddp off =>
        change Always owner (replaceDest env skb _ fun _ skb => ended 0 vif skb)
        exact hend fun _ _ => always_ended _ _ _
  have htake : Always owner (takeRelayTag vif skb) := by
    unfold takeRelayTag
    cases findPppoeTag skb PTT_RELAY_SID (word skb 18+1) 20 with
    | none => exact always_ended _ _ _
    | some cur =>
      refine always_ite (fun _ => always_ended _ _ _) fun _ =>
        always_ite (fun _ => always_ended _ _ _) fun _ => ?_
      dsimp only
      cases skbPullAndMerge _ _ _ <;> exact always_ended _ _ _
  have hppp : Always owner (handlePppoe env vif skb .lookup) :=
    always_ite (fun _ => always_ite (fun _ => htake) fun _ =>
      always_ite (fun _ => always_ended _ _ _) fun _ => always_ended _ _ _) fun _ =>
      always_ite (fun _ => hend fun _ _ => always_ended _ _ _) fun _ => always_ended _ _ _
  have hip6 : Always owner (handleIpv6 env vif skb .lookup) := by
    unfold handleIpv6
    refine always_ite (fun _ => always_ended _ _ _) fun _ => ?_
    exact hend fun _ _ => always_ended _ _ _
  unfold nat25DbHandle
  refine always_ite (fun _ => hip) fun _ => always_ite (fun _ => harp) fun _ => ?_
  refine always_ite (fun _ => hgram) fun _ => always_ite (fun _ => hppp) fun _ => ?_
  refine always_ite (fun _ => always_ended _ _ _) fun _ => ?_
  exact always_ite (fun _ => hip6) fun _ => always_ended _ _ _

/-- `NAT25_CHECK` asks for nothing and changes nothing. -/
theorem handle_check (env : Env) (vif : Vif) (skb : SkBuff) :
    ∃ ret, nat25DbHandle env vif skb .check = ended ret vif skb := by
  have hite : ∀ {c : Prop} [Decidable c] {p q : Program}, (∃ ret, p = ended ret vif skb) →
      (∃ ret, q = ended ret vif skb) → ∃ ret, (if c then p else q) = ended ret vif skb := by
    intro c _ p q hp hq
    split_ifs
    · exact hp
    · exact hq
  have hgram : ∃ ret, (match findDatagram skb with
      | some (.ipx off) => handleIpx env vif skb off .check
      | some (.aarp off) => handleAarp env vif skb off .check
      | some (.ddp off) => handleDdp env vif skb off .check
      | none => ended (-1) vif skb) = ended ret vif skb := by
    cases findDatagram skb with
    | none => exact ⟨_, rfl⟩
    | some d =>
      cases d with
      | ipx off => exact ⟨_, rfl⟩
      | aarp off => exact hite ⟨_, rfl⟩ ⟨_, rfl⟩
      | ddp off => exact ⟨_, rfl⟩
  exact hite (hite ⟨_, rfl⟩ ⟨_, rfl⟩) <| hite (hite ⟨_, rfl⟩ ⟨_, rfl⟩) <| hite hgram <|
    hite ⟨_, rfl⟩ <| hite ⟨_, rfl⟩ <| hite (hite ⟨_, rfl⟩ ⟨_, rfl⟩) ⟨_, rfl⟩

theorem clientTxTable_always {original : SkBuff} {tagged doNat25 : Bool}
    (h : TellsOwner owner skb) :
    Always owner
      (clientTxTable env original tagged (original.slice 14 2) vif skb doNat25) := by
  cases doNat25 with
  | false => exact always_ended _ _ _
  | true =>
    obtain ⟨ret, hcheck⟩ := handle_check env vif skb
    have hinsert : ∀ skb' : SkBuff, skb'.data = skb.data → Always owner
        ((nat25DbHandle env vif skb' .insert).bind
          (clientTxInserted original tagged (original.slice 14 2))) := by
      intro skb' hdata
      have hsame : TellsOwner owner skb' := by
        constructor
        · simpa only [protocol, word, byte, SkBuff.slice, hdata] using h.ip
        · simpa only [protocol, word, byte, SkBuff.slice, hdata] using h.arp
      refine (handle_insert hsame).bind fun r => ?_
      cases r with
      | none => exact always_none
      | some r =>
        exact always_ite (fun _ => always_ended _ _ _) fun _ =>
          always_ite (fun _ => always_ended _ _ _) fun _ => always_ended _ _ _
    unfold clientTxTable
    rw [if_pos rfl, hcheck]
    refine always_ite (fun _ => always_ended _ _ _) fun _ =>
      always_ite (fun _ => hinsert _ ?_) fun _ => always_ended _ _ _
    -- A tag that is put back and taken off again leaves the frame as it was.
    split_ifs
    · exact pullTag_pushTag (frontOf original) original skb
    · rfl

/-- A frame as the long way sees it. -/
def inner (skb : SkBuff) : SkBuff := if isTagged skb then pullTag skb else skb

theorem aicBrClientTx_always (h : TellsOwner owner (inner skb)) :
    Always owner (aicBrClientTx env vif skb) := by
  have hlong : ∀ vif, Always owner (if protocol (inner skb) = ETH_P_IP then
      .ask (.cacheSource env.cacheTime ((inner skb).slice 6 6) ((inner skb).slice 26 4)) fun a =>
        clientTxTable env skb (isTagged skb) (skb.slice 14 2) vif (inner skb) a.1
      else clientTxTable env skb (isTagged skb) (skb.slice 14 2) vif (inner skb) true) :=
    fun vif => always_ite
      (fun hip => always_ask (h.ip hip) fun _ _ => clientTxTable_always h)
      fun _ => clientTxTable_always h
  exact always_ite (fun _ => always_ask trivial fun _ _ =>
    always_ite (fun _ => always_ended _ _ _) fun _ => hlong _) fun _ => hlong _

/-! ## Frames that come in -/

/-- The address of the network that an incoming frame is for. -/
def target (skb : SkBuff) : Option (List UInt8) :=
  if protocol skb = ETH_P_IP then some (skb.slice 30 4)
  else if protocol skb = ETH_P_ARP ∧ word skb 16 = ETH_P_IP ∧ byte skb 18 = 6 ∧
      byte skb 19 = 4 then some (skb.slice 38 4)
  else none

/-- The frame is for its host, for all, for the bridge, or for whom it was before. -/
def Addressed (owner : List UInt8 → Mac) (ip : List UInt8) (skb : SkBuff) (h : Handled) : Prop :=
  h.skb.slice 0 6 = skb.slice 0 6 ∨ h.skb.slice 0 6 = (owner ip).val ∨
    ip.getLast? = some 0xFF ∧ h.skb.slice 0 6 = List.replicate 6 0xFF ∨
    h.skb.slice 0 6 = h.vif.brMac.val

def Kept (skb : SkBuff) (h : Handled) : Prop := ∀ i, 6 ≤ i → h.skb.data i = skb.data i

def Delivered (owner : List UInt8 → Mac) (skb : SkBuff) (h : Handled) : Prop :=
  ∀ ip, target (inner skb) = some ip → ip ≠ anyIp → Addressed owner ip skb h ∧
    (protocol (inner skb) = ETH_P_IP → Kept skb h)

/-- Every result of the program has the property. -/
def Gives (owner : List UInt8 → Mac) (post : Handled → Prop) (p : Program) : Prop :=
  Ends (Allowed owner) (Tells owner) (fun r => ∀ h, r = some h → post h) p

theorem gives_ended {post : Handled → Prop} {ret : ℤ} (h : post ⟨ret, vif, skb⟩) :
    Gives owner post (ended ret vif skb) := fun _ hr => Option.some.inj hr ▸ h

theorem put_dest {mac : List UInt8} (h : mac.length = 6) : (put skb 0 mac).slice 0 6 = mac :=
  put_slice h

theorem put_kept {mac : List UInt8} (h : mac.length = 6) {i : ℕ} (hi : 6 ≤ i) :
    (put skb 0 mac).data i = skb.data i := put_outside (.inr (by omega))

theorem gives_ite {post : Handled → Prop} {c : Prop} [Decidable c] {p q : Program}
    (hp : c → Gives owner post p) (hq : ¬ c → Gives owner post q) :
    Gives owner post (if c then p else q) := by
  split_ifs with h
  · exact hp h
  · exact hq h

theorem mac_length (mac : Mac) : mac.val.length = 6 := mac.property

theorem last_slice (skb : SkBuff) : (skb.slice 30 4).getLast? = some (skb.data 33) := rfl

/-- What a look-up leaves of a frame. -/
def replaced (skb : SkBuff) (a : Answer) : SkBuff :=
  match a.2 with
  | some mac => put skb 0 mac
  | none => skb

theorem replaced_spec (skb : SkBuff) {ip : List UInt8} (hlen : ip.length = 4) (hip : ip ≠ anyIp)
    {jiffies : UInt32} {a : Answer} (ha : Tells owner (.lookup jiffies
      (generateIpv4NetworkAddr ip)) a) :
    ((replaced skb a).slice 0 6 = skb.slice 0 6 ∨ (replaced skb a).slice 0 6 = (owner ip).val) ∧
      ∀ i, 6 ≤ i → (replaced skb a).data i = skb.data i := by
  obtain ⟨found, _ | mac⟩ := a
  · exact ⟨.inl rfl, fun _ _ => rfl⟩
  · have hmac : mac = (owner ip).val := ha ip mac hlen hip rfl rfl
    have hsix : mac.length = 6 := hmac ▸ (owner ip).property
    exact ⟨.inr ((put_dest hsix).trans hmac), fun _ => put_kept hsix⟩

theorem handleIp_gives (hip : skb.slice 30 4 ≠ anyIp) :
    Gives owner (fun h => Addressed owner (skb.slice 30 4) skb h ∧ Kept skb h)
      (handleIp env vif skb .lookup) := by
  unfold handleIp
  simp only
  by_cases hihl : 14+skb.len ≤ 14+4*(byte skb 14 % 16)
  · rw [if_pos hihl]
    exact gives_ended ⟨.inl rfl, fun _ _ => rfl⟩
  rw [if_neg hihl]
  refine ⟨trivial, fun a ha => ?_⟩
  obtain ⟨hdest, hkept⟩ := replaced_spec skb (slice_length skb 30 4) hip ha
  change Gives owner _ (if a.1 = true then ended 0 vif (replaced skb a)
    else if (replaced skb a).data 33 = 0xFF then
      ended 0 vif (put (replaced skb a) 0 (List.replicate 6 0xFF)) else _)
  by_cases hfound : a.1 = true
  · rw [if_pos hfound]
    exact gives_ended ⟨hdest.elim .inl fun h => .inr (.inl h), hkept⟩
  rw [if_neg hfound]
  -- No host has the address. The frame is for all, or for the bridge.
  by_cases hlast : (replaced skb a).data 33 = 0xFF
  · rw [if_pos hlast]
    have hff : (skb.slice 30 4).getLast? = some 0xFF := by
      rw [last_slice, ← hkept 33 (by decide), hlast]
    exact gives_ended ⟨.inr (.inr (.inl ⟨hff, put_dest rfl⟩)),
      fun i hi => (put_kept rfl hi).trans (hkept i hi)⟩
  · rw [if_neg hlast]
    exact gives_ended ⟨.inr (.inr (.inr (put_dest (mac_length _)))),
      fun i hi => (put_kept (mac_length _) hi).trans (hkept i hi)⟩

theorem handleArp_gives (hpro : word skb 16 = ETH_P_IP) (hhln : byte skb 18 = 6)
    (hpln : byte skb 19 = 4) (hip : skb.slice 38 4 ≠ anyIp) :
    Gives owner (Addressed owner (skb.slice 38 4) skb) (handleArp env vif skb .lookup) := by
  unfold handleArp
  simp only [hpro, hhln, hpln, ne_eq, not_true_eq_false, if_false]
  refine ⟨trivial, fun a ha => gives_ended ?_⟩
  obtain ⟨hdest, -⟩ := replaced_spec skb (slice_length skb 38 4) hip ha
  have hput : (put (replaced skb a) 32 ((replaced skb a).slice 0 6)).slice 0 6 =
      (replaced skb a).slice 0 6 := put_slice_of_disjoint (.inl (by decide))
  exact hdest.elim (fun h => .inl (hput.trans h)) fun h => .inr (.inl (hput.trans h))

/-- What `nat25_handle_frame` looks up in the table, for the frame without its tag. -/
theorem handle_gives (skb : SkBuff) :
    Gives owner (fun h => ∀ ip, target skb = some ip → ip ≠ anyIp → Addressed owner ip skb h ∧
      (protocol skb = ETH_P_IP → Kept skb h)) (nat25DbHandle env vif skb .lookup) := by
  have hother : target skb = none → Gives owner (fun h => ∀ ip, target skb = some ip →
      ip ≠ anyIp → Addressed owner ip skb h ∧ (protocol skb = ETH_P_IP → Kept skb h))
      (nat25DbHandle env vif skb .lookup) := fun hnone =>
    Ends.mono handle_lookup.ends fun r _ h _ ip hip => by rw [hnone] at hip; cases hip
  by_cases hp : protocol skb = ETH_P_IP
  · have htarget : target skb = some (skb.slice 30 4) := if_pos hp
    by_cases hip : skb.slice 30 4 = anyIp
    · refine Ends.mono handle_lookup.ends fun r _ h _ ip hip' hne => absurd ?_ hne
      rw [← Option.some.inj (htarget.symm.trans hip'), hip]
    · have hrun : nat25DbHandle env vif skb .lookup = handleIp env vif skb .lookup := if_pos hp
      rw [hrun]
      refine Ends.mono (handleIp_gives hip) fun r hr h hrh ip hip' _ => ?_
      rw [← Option.some.inj (htarget.symm.trans hip')]
      exact ⟨(hr h hrh).1, fun _ => (hr h hrh).2⟩
  · by_cases harp : protocol skb = ETH_P_ARP ∧ word skb 16 = ETH_P_IP ∧ byte skb 18 = 6 ∧
        byte skb 19 = 4
    · have htarget : target skb = some (skb.slice 38 4) := by rw [target, if_neg hp, if_pos harp]
      by_cases hip : skb.slice 38 4 = anyIp
      · refine Ends.mono handle_lookup.ends fun r _ h _ ip hip' hne => absurd ?_ hne
        rw [← Option.some.inj (htarget.symm.trans hip'), hip]
      · have hrun : nat25DbHandle env vif skb .lookup = handleArp env vif skb .lookup := by
          rw [nat25DbHandle, if_neg hp, if_pos harp.1]
        rw [hrun]
        refine Ends.mono (handleArp_gives harp.2.1 harp.2.2.1 harp.2.2.2 hip)
          fun r hr h hrh ip hip' _ => ?_
        rw [← Option.some.inj (htarget.symm.trans hip')]
        exact ⟨hr h hrh, fun h => absurd h hp⟩
    · exact hother (by rw [target, if_neg hp, if_neg harp])

/-! ## The tag around it -/

theorem inner_slice (skb : SkBuff) : (inner skb).slice 0 6 = skb.slice 0 6 := by
  unfold inner
  split_ifs
  · refine List.map_congr_left fun i hi => ?_
    have hi6 : i < 6 := List.mem_range.mp hi
    rw [pullTag_data, if_pos (by omega)]
  · rfl

theorem tagged_bytes (h : isTagged skb = true) : skb.data 12 = 0x81 ∧ skb.data 13 = 0 := by
  have hword : 256*(skb.data 12).toNat+(skb.data 13).toNat = 0x8100 := by
    simpa [isTagged, protocol, word, byte, ETH_P_8021Q] using h
  have h13 : (skb.data 13).toNat < 256 := UInt8.toNat_lt _
  have h12 : (skb.data 12).toNat = 0x81 := by omega
  have h13 : (skb.data 13).toNat = 0 := by omega
  exact ⟨UInt8.toNat_inj.mp h12, UInt8.toNat_inj.mp h13⟩

/-- A frame that went through the table without its tag has it back behind the addresses. -/
theorem pushTag_kept (htag : isTagged skb = true) {h : Handled} (hkept : Kept (pullTag skb) h)
    (i : ℕ) (hi : 6 ≤ i) :
    (pushTag (frontOf skb) (skb.slice 14 2) h.skb).data i = skb.data i := by
  have htci : skb.slice 14 2 = [skb.data 14, skb.data 15] := rfl
  obtain ⟨h12, h13⟩ := tagged_bytes htag
  rw [htci, pushTag_data (frontOf skb) (skb.data 14, skb.data 15)]
  split_ifs with hi12 h12' h13' h14 h15
  · rw [hkept i hi, pullTag_data, if_pos hi12]
  · rw [h12', h12]
  · rw [h13', h13]
  · rw [h14]
  · rw [h15]
  · rw [hkept (i-4) (by omega), pullTag_data, if_neg (by omega)]
    exact congrArg skb.data (by omega)

theorem handleFrameEnd_gives {h : Handled} (hh : ∀ ip, target (inner skb) = some ip →
      ip ≠ anyIp → Addressed owner ip (inner skb) h ∧
        (protocol (inner skb) = ETH_P_IP → Kept (inner skb) h)) :
    Gives owner (Delivered owner skb) (handleFrameEnd skb (isTagged skb) (skb.slice 14 2) h) := by
  refine gives_ended fun ip hip hne => ?_
  obtain ⟨hdest, hkept⟩ := hh ip hip hne
  unfold Addressed at hdest
  rw [inner_slice] at hdest
  by_cases htag : isTagged skb = true
  · simp only [inner, if_pos htag] at hkept
    simp only [Addressed, Kept, if_pos htag, pushTag_dest]
    refine ⟨hdest, fun hip i hi => pushTag_kept htag (hkept ?_) i hi⟩
    simpa only [inner, if_pos htag] using hip
  · simp only [inner, if_neg htag] at hkept
    simp only [Addressed, Kept, if_neg htag]
    refine ⟨hdest, fun hip => hkept ?_⟩
    simpa only [inner, if_neg htag] using hip

theorem nat25HandleFrame_gives :
    Gives owner (Delivered owner skb) (nat25HandleFrame env vif skb) := by
  have htable : Gives owner (Delivered owner skb)
      ((nat25DbHandle env vif (inner skb) .lookup).bind
        (handleFrameFound skb (isTagged skb) (skb.slice 14 2))) := by
    refine Ends.bind (Ends.mono (handle_gives (inner skb)) fun r hr => ?_)
    cases r with
    | none => exact fun _ h => by cases h
    | some h => exact handleFrameEnd_gives (hr h rfl)
  have hpast : Gives owner (Delivered owner skb)
      (handleFrameEnd skb (isTagged skb) (skb.slice 14 2) ⟨0, vif, inner skb⟩) :=
    handleFrameEnd_gives fun _ _ _ => ⟨.inl rfl, fun _ _ _ => rfl⟩
  have hcached : protocol (inner skb) = ETH_P_IP → ∀ a,
      Tells owner (.cached ((inner skb).slice 30 4)) a → ∀ mac, a.2 = some mac →
      Gives owner (Delivered owner skb) (handleFrameEnd skb (isTagged skb) (skb.slice 14 2)
        ⟨0, vif, put (inner skb) 0 mac⟩) := by
    intro hipf a ha mac hmac
    refine handleFrameEnd_gives fun ip hip hne => ?_
    have hmine : (inner skb).slice 30 4 = ip := by
      rw [target, if_pos hipf] at hip
      exact Option.some.inj hip
    have howner : mac = (owner ip).val := hmine ▸ ha mac (hmine ▸ hne) hmac
    have hsix : mac.length = 6 := howner ▸ mac_length _
    exact ⟨.inr (.inl ((put_dest hsix).trans howner)), fun _ _ hi => put_kept hsix hi⟩
  unfold nat25HandleFrame
  refine gives_ite (fun _ => ?_) fun _ => gives_ended fun _ _ _ => ⟨.inl rfl, fun _ _ _ => rfl⟩
  refine gives_ite (fun _ => gives_ite (fun hshort => ⟨trivial, fun a ha => ?_⟩) fun _ => htable)
    fun _ => gives_ite (fun _ => htable) fun _ => hpast
  have hipf : protocol (inner skb) = ETH_P_IP := by
    simpa [inner] using ((Bool.and_eq_true _ _).mp hshort).2
  obtain ⟨found, _ | mac⟩ := a
  · exact htable
  · exact hcached hipf _ ha mac rfl

end Programs

/-! ## All of them together -/

/-- What takes turns at the table of an interface. -/
inductive Thread where
  | tx (env : Env) (vif : Vif) (skb : SkBuff)
  | rx (env : Env) (vif : Vif) (skb : SkBuff)
  | cleanup
  | expire (jiffies : UInt32)

def Thread.program : Thread → Program
  | .tx env vif skb => aicBrClientTx env vif skb
  | .rx env vif skb => nat25HandleFrame env vif skb
  | .cleanup => .ask .cleanup fun _ => .done none
  | .expire jiffies => .ask (.expire jiffies) fun _ => .done none

def Thread.TellsOwner (owner : List UInt8 → Mac) : Thread → Prop
  | .tx _ _ skb => Nat25Translation.TellsOwner owner (inner skb)
  | _ => True

def Thread.post (owner : List UInt8 → Mac) : Thread → Handled → Prop
  | .rx _ _ skb => Delivered owner skb
  | _ => fun _ => True

variable {ι : Type*} [DecidableEq ι]

theorem program_gives {owner : List UInt8 → Mac} (t : Thread) (h : t.TellsOwner owner) :
    Gives owner (t.post owner) t.program := by
  cases t with
  | tx env vif skb => exact Ends.mono (aicBrClientTx_always h).ends fun _ _ _ _ => trivial
  | rx env vif skb => exact nat25HandleFrame_gives
  | cleanup => exact ⟨trivial, fun _ _ _ h => by cases h⟩
  | expire jiffies => exact ⟨trivial, fun _ _ _ h => by cases h⟩

theorem never_misdirected (hz : UInt32) (owner : List UInt8 → Mac) (threads : ι → Thread)
    (h : ∀ i, (threads i).TellsOwner owner) (is : List ι) :
    ∃ st, turns (Db.call hz) (Db.empty, fun i => (threads i).program) is = some st ∧
      ∀ i env vif skb r, threads i = .rx env vif skb → st.2 i = .done (some r) →
        Delivered owner skb r := by
  let st0 : Db × (ι → Program) := (Db.empty, fun i => (threads i).program)
  have hempty : ∃ chains m, Stands st0.1 chains m ∧ Owned owner m :=
    ⟨fun _ => [], HostMap.empty, stands_empty, owned_empty⟩
  have hgives : ∀ i, Ends (Allowed owner) (Tells owner)
      (fun r => ∀ h, r = some h → (threads i).post owner h) (st0.2 i) :=
    fun i => program_gives (threads i) (h i)
  obtain ⟨st, hrun, -, hpost⟩ := turns_keep (db_serves hz) hempty hgives is
  refine ⟨st, hrun, fun i env vif skb r hi hdone => ?_⟩
  have hr := hpost i
  rw [hdone, hi] at hr
  exact hr r rfl

def twoHosts (ip : List UInt8) : Mac := ⟨[2, 0, 0, 0, 0, ip.getD 3 0], rfl⟩

def homeVif : Vif :=
  ⟨⟨[2, 1, 1, 1, 1, 1], rfl⟩, ⟨[2, 9, 9, 9, 9, 9], rfl⟩, [], false, false, false, true, 0, []⟩

def homeEnv : Env := ⟨7, 7, true, 0, true, true, true, none, 0, fun _ _ => []⟩

def ipFrame (dest source : List UInt8) (saddr daddr : List UInt8) : SkBuff :=
  ⟨fun i => (dest++source++[0x08, 0x00, 0x45]++List.replicate 11 0++saddr++daddr).getD i 0, 60⟩

/-- One host sends and is answered. -/
def answered (sends : Bool) : Thread :=
  if sends then .tx homeEnv homeVif
    (ipFrame [2, 7, 7, 7, 7, 7] [2, 0, 0, 0, 0, 5] [10, 0, 0, 5] [10, 0, 0, 7])
  else .rx homeEnv homeVif
    (ipFrame [2, 1, 1, 1, 1, 1] [2, 7, 7, 7, 7, 7] [10, 0, 0, 7] [10, 0, 0, 5])

theorem never_misdirected_answered :
    ∃ st, turns (Db.call 100) (Db.empty, fun i => (answered i).program)
        [true, true, false, true, false] = some st ∧
      ∀ i env vif skb r, answered i = .rx env vif skb → st.2 i = .done (some r) →
        Delivered twoHosts skb r := by
  refine never_misdirected 100 twoHosts answered (fun i => ?_) _
  cases i with
  | false => exact trivial
  | true => exact ⟨fun _ _ => by decide, fun h => absurd h (by decide)⟩

example : ((turns (Db.call 100) (Db.empty, fun i => (answered i).program)
    [true, true, false, true, false]).map fun st => match st.2 false with
      | .done (some r) => r.skb.slice 0 6
      | _ => []) = some [2, 0, 0, 0, 0, 5] := by decide

end AIC.Nat25Translation
