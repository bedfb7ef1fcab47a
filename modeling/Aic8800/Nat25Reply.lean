import Aic8800.Nat25Translation

/-!
# An answer reaches the host

A host that sent a frame of the Internet protocol is known by the table. What comes
in for its address in time is given to it, whichever of the two ways its frame went
and whether the answer is found in the cache or in the table.
-/

set_option autoImplicit false

namespace AIC.Nat25Reply
open Lib.CallProgram AIC.Nat25Table AIC.Nat25Refines AIC.Nat25Frame AIC.Nat25Translation

variable {m : HostMap} {x y : NetworkAddr} {owner : List UInt8 → Mac}

/-! ## The cache -/

/-- The cache with an entry is about the host of its address. -/
def Coherent (m : HostMap) : Prop :=
  ∀ x, m.cacheOf = some x → x = generateIpv4NetworkAddr m.ip ∧ (m.host x).isSome

theorem coherent_empty : Coherent HostMap.empty := fun _ h => by cases h

theorem put_isSome (g : Host) (h : (m.host y).isSome) : ((m.put x g).host y).isSome := by
  by_cases hyx : y = x
  · subst hyx
    simp [HostMap.put]
  · simpa [HostMap.put, hyx] using h

theorem touch_isSome (jiffies : UInt32) :
    ((m.touch jiffies x).host y).isSome = (m.host y).isSome := by
  by_cases hyx : y = x
  · subst hyx
    simp [HostMap.touch]
  · simp [HostMap.touch, hyx]

theorem Coherent.put (h : Coherent m) (g : Host) : Coherent (m.put x g) :=
  fun y hy => ⟨(h y hy).1, put_isSome g (h y hy).2⟩

theorem Coherent.touch (h : Coherent m) (jiffies : UInt32) : Coherent (m.touch jiffies x) :=
  fun y hy => ⟨(h y hy).1, (touch_isSome jiffies).trans (h y hy).2⟩

theorem Coherent.keep (h : Coherent m) (stay : Host → Option Host) : Coherent (m.keep stay) := by
  unfold HostMap.keep
  simp only
  split_ifs with hgone
  · exact fun _ hx => by cases hx
  · intro x hx
    refine ⟨(h x hx).1, ?_⟩
    have hstay : ¬ ((m.host x).bind stay).isNone = true := fun hn => hgone (by rw [hx]; exact hn)
    cases hleft : (m.host x).bind stay with
    | none => exact absurd (by rw [hleft]; rfl) hstay
    | some g => exact congrArg Option.isSome hleft

theorem Coherent.call (h : Coherent m) (hz : UInt32) (c : Call) : Coherent (m.call hz c).1 := by
  cases c with
  | lookup jiffies x =>
    simp only [HostMap.call, HostMap.lookup]
    cases m.host x with
    | none => exact h
    | some g =>
      simp only
      split_ifs
      · exact h
      · exact h.put _
  | insert jiffies mac x room want =>
    simp only [HostMap.call, HostMap.insert]
    cases m.host x with
    | none => cases room; exacts [h, h.put _]
    | some g => exact h.put _
  | cleanup => exact h.keep _
  | expire jiffies => exact h.keep _
  | shortWay jiffies source =>
    simp only [HostMap.call, HostMap.shortWay]
    cases m.cacheOf with
    | none => exact h
    | some x =>
      simp only
      split_ifs
      · exact h.touch jiffies
      · exact h
  | cacheSource jiffies source ip =>
    simp only [HostMap.call, HostMap.cacheSource]
    split_ifs with hmac hhost
    · intro x hx
      obtain rfl : generateIpv4NetworkAddr ip = x := Option.some.inj hx
      exact ⟨rfl, (touch_isSome jiffies).trans hhost⟩
    · exact fun _ hx => by cases hx
    · cases hc : m.cacheOf with
      | none => exact fun x hx => by cases hx
      | some x => exact h.touch jiffies
  | cached ip => exact h

/-! ## The table after a frame was sent -/

/-- The map that the table stands for, as a server. -/
def HostMap.serve (hz : UInt32) (m : HostMap) (c : Call) : Option (HostMap × Answer) :=
  some (m.call hz c)

theorem map_serves (hz : UInt32) :
    Serves (HostMap.serve hz) (fun m => Owned owner m ∧ Coherent m) (Allowed owner)
      (Tells owner) :=
  fun m c hm hc => ⟨(m.call hz c).1, (m.call hz c).2, rfl, ⟨(hm.1.call hz hc).1, hm.2.call hz c⟩,
    (hm.1.call hz hc).2⟩

/-- The host of the address is known since one of the times of the frame. -/
def Known (owner : List UInt8 → Mac) (env : Env) (ip : List UInt8) (m : HostMap) : Prop :=
  ∃ g, m.host (generateIpv4NetworkAddr ip) = some g ∧ g.mac = (owner ip).val ∧
    (g.age = env.cacheTime ∨ g.age = env.tableTime)

variable {hz : UInt32} {env : Env} {vif : Vif} {skb : SkBuff} {ip : List UInt8}

/-- A host in the map that is touched is known. -/
theorem known_touch (hm : Owned owner m) (hlen : ip.length = 4) (hne : ip ≠ anyIp)
    (hx : (m.host (generateIpv4NetworkAddr ip)).isSome) :
    Known owner env ip (m.touch env.cacheTime (generateIpv4NetworkAddr ip)) := by
  obtain ⟨g, hg⟩ := Option.isSome_iff_exists.mp hx
  refine ⟨{ g with age := env.cacheTime }, ?_, hm.host ip g hlen hne hg, .inl rfl⟩
  simp [HostMap.touch, hg]

theorem known_insert (mac : List UInt8) (hmac : mac = (owner ip).val) :
    Known owner env ip (m.insert env.tableTime mac (generateIpv4NetworkAddr ip) true) := by
  unfold HostMap.insert
  cases m.host (generateIpv4NetworkAddr ip) with
  | none => exact ⟨⟨mac, env.tableTime, 1⟩, by simp [HostMap.put], hmac, .inr rfl⟩
  | some g =>
    exact ⟨{ g with mac := mac, age := env.tableTime }, by simp [HostMap.put], hmac, .inr rfl⟩

/-- What a frame of the Internet protocol needs to be registered: an address, a header within the
frame, memory for a new entry and for the buffer in one piece. -/
structure Sent (owner : List UInt8 → Mac) (env : Env) (ip : List UInt8) (skb : SkBuff) : Prop where
  proto : protocol (inner skb) = ETH_P_IP
  saddr : (inner skb).slice 26 4 = ip
  source : (inner skb).slice 6 6 = (owner ip).val
  given : ip ≠ anyIp
  header : 14+4*(byte (inner skb) 14 % 16) < 14+(inner skb).len
  room : env.room = true
  linearized : env.linearized = true

theorem Sent.tells (h : Sent owner env ip skb) : TellsOwner owner (inner skb) where
  ip _ _ := by rw [h.source, h.saddr]
  arp harp := absurd (h.proto.symm.trans harp) (by decide)

theorem clientTxTable_insert (hz : UInt32) (vif : Vif) (h : Sent owner env ip skb)
    (original : SkBuff) (tagged : Bool) (vlanHdr : List UInt8) (m : HostMap) :
    ∃ r, (clientTxTable env original tagged vlanHdr vif (inner skb) true).run (HostMap.serve hz) m =
      some (m.insert env.tableTime (owner ip).val (generateIpv4NetworkAddr ip) true, r) := by
  have hheader : ¬ 14+(inner skb).len ≤ 14+4*(byte (inner skb) 14 % 16) := not_le.mpr h.header
  have hcheck : nat25DbHandle env vif (inner skb) .check = ended (-1) vif (inner skb) := by
    simp only [nat25DbHandle, h.proto, if_true, handleIp, if_neg hheader]
  have hinsert : nat25DbHandle env vif (inner skb) .insert =
      .ask (.insert env.tableTime (owner ip).val (generateIpv4NetworkAddr ip) true env.want)
        fun _ => ended 0 vif (inner skb) := by
    have hgiven : ¬ ip = List.replicate 4 0 := h.given
    simp only [nat25DbHandle, h.proto, if_true, handleIp, if_neg hheader, h.saddr, if_neg hgiven,
      insertSource, h.source, h.room]
  have hprog : clientTxTable env original tagged vlanHdr vif (inner skb) true =
      .ask (.insert env.tableTime (owner ip).val (generateIpv4NetworkAddr ip) true env.want)
        fun _ => clientTxEnd original tagged vlanHdr vif (inner skb) := by
    have hret : ¬ (-1 : ℤ) = 0 := by decide
    simp only [clientTxTable, if_true, hcheck, ended, Prog.bind, hret, decide_false,
      Bool.false_and, Bool.false_eq_true, if_false, h.linearized, hinsert]
    rfl
  rw [hprog]
  exact ⟨_, rfl⟩

theorem known_clientTxTable (h : Sent owner env ip skb) {original : SkBuff} {tagged : Bool}
    {vlanHdr : List UInt8} {doNat25 : Bool} (m : HostMap)
    (hm : doNat25 = false → Known owner env ip m) :
    ∃ m' r, (clientTxTable env original tagged vlanHdr vif (inner skb) doNat25).run
      (HostMap.serve hz) m = some (m', r) ∧ Known owner env ip m' := by
  cases doNat25 with
  | false => exact ⟨m, _, rfl, hm rfl⟩
  | true =>
    obtain ⟨r, hrun⟩ := clientTxTable_insert hz vif h original tagged vlanHdr m
    exact ⟨_, r, hrun, known_insert _ rfl⟩

/-- A cache with the source of the frame is about the address of the frame. -/
theorem cache_mine (hm : Owned owner m) (hco : Coherent m) (hip : m.cacheOf = some x → m.ip ≠ anyIp)
    (honly : ∀ ip', ip' ≠ anyIp → owner ip' = owner ip → ip' = ip) (hx : m.cacheOf = some x)
    (hmac : m.mac = (owner ip).val) :
    x = generateIpv4NetworkAddr ip ∧ (m.host (generateIpv4NetworkAddr ip)).isSome := by
  obtain ⟨haddr, hhost⟩ := hco x hx
  have howner : owner m.ip = owner ip := Subtype.ext ((hm.cache (hip hx)).symm.trans hmac)
  have hmine : m.ip = ip := honly m.ip (hip hx) howner
  rw [← hmine, ← haddr]
  exact ⟨rfl, hhost⟩

theorem known_cacheSource (h : Sent owner env ip skb) (hm : Owned owner m) (hco : Coherent m)
    (hip : ∀ x, m.cacheOf = some x → m.ip ≠ anyIp)
    (honly : ∀ ip', ip' ≠ anyIp → owner ip' = owner ip → ip' = ip)
    (hlong : (m.cacheSource env.cacheTime (owner ip).val ip).2 = false) :
    Known owner env ip (m.cacheSource env.cacheTime (owner ip).val ip).1 := by
  have hlen : ip.length = 4 := h.saddr ▸ slice_length _ _ _
  unfold HostMap.cacheSource at hlong ⊢
  simp only at hlong ⊢
  by_cases hmac : m.mac = (owner ip).val
  · simp only [hmac, ne_eq, not_true_eq_false, if_false] at hlong ⊢
    cases hc : m.cacheOf with
    | none =>
      simp only [hc] at hlong
      cases hlong
    | some x =>
      obtain ⟨rfl, hhost⟩ := cache_mine hm hco (hip x) honly hc hmac
      exact known_touch hm hlen h.given hhost
  · simp only [ne_eq, hmac, not_false_eq_true, if_true] at hlong ⊢
    by_cases hhost : (m.host (generateIpv4NetworkAddr ip)).isSome = true
    · rw [if_pos hhost]
      exact known_touch hm hlen h.given hhost
    · rw [if_neg hhost] at hlong
      cases hlong

/-- `aic_br_client_tx` behind the short way. -/
def longWay (env : Env) (skb : SkBuff) (vif : Vif) : Program :=
  if protocol (inner skb) = ETH_P_IP then
    .ask (.cacheSource env.cacheTime ((inner skb).slice 6 6) ((inner skb).slice 26 4)) fun a =>
      clientTxTable env skb (isTagged skb) (skb.slice 14 2) vif (inner skb) a.1
  else clientTxTable env skb (isTagged skb) (skb.slice 14 2) vif (inner skb) true

theorem tx_ways (env : Env) (vif : Vif) (skb : SkBuff) :
    ∃ vif', aicBrClientTx env vif skb =
      if byte skb 0 % 2 = 0 ∧ env.brPort = true ∧ skb.slice 6 6 ≠ vif.brMac.val ∧
          protocol skb = ETH_P_IP then
        .ask (.shortWay env.cacheTime (skb.slice 6 6)) fun a =>
          if a.1 then sentFrom vif (put skb 6 vif.devAddr.val) else longWay env skb vif'
      else longWay env skb vif' := ⟨_, rfl⟩

theorem shortWay_cases (m : HostMap) (jiffies : UInt32) (source : List UInt8) :
    m.shortWay jiffies source = (m, false) ∨ ∃ x, m.cacheOf = some x ∧ m.mac = source ∧
      m.shortWay jiffies source = (m.touch jiffies x, true) := by
  unfold HostMap.shortWay
  cases m.cacheOf with
  | none => exact .inl rfl
  | some x =>
    simp only
    split_ifs with hmac
    · exact .inr ⟨x, rfl, hmac, rfl⟩
    · exact .inl rfl

theorem tx_known (hz : UInt32) (vif : Vif) (h : Sent owner env ip skb) (hm : Owned owner m) (hco : Coherent m)
    (hip : ∀ x, m.cacheOf = some x → m.ip ≠ anyIp)
    (honly : ∀ ip', ip' ≠ anyIp → owner ip' = owner ip → ip' = ip) :
    ∃ m' r, (aicBrClientTx env vif skb).run (HostMap.serve hz) m = some (m', r) ∧
      Known owner env ip m' := by
  have hlen : ip.length = 4 := h.saddr ▸ slice_length _ _ _
  have hlong : ∀ vif, ∃ m' r, (longWay env skb vif).run (HostMap.serve hz) m = some (m', r) ∧
      Known owner env ip m' := by
    intro vif
    rw [longWay, if_pos h.proto, h.source, h.saddr]
    exact known_clientTxTable h _ (known_cacheSource h hm hco hip honly)
  obtain ⟨vif', hways⟩ := tx_ways env vif skb
  rw [hways]
  split_ifs with hshort
  · -- Only a frame without a tag takes the short way.
    have hinner : inner skb = skb := by
      have htag : isTagged skb = false := by simp [isTagged, hshort.2.2.2, ETH_P_IP, ETH_P_8021Q]
      rw [AIC.Nat25Translation.inner, htag]
      rfl
    have hsource : skb.slice 6 6 = (owner ip).val := by rw [← hinner, h.source]
    rw [hsource]
    rcases shortWay_cases m env.cacheTime (owner ip).val with hnot | ⟨x, hx, hmac, htaken⟩
    · obtain ⟨m', r, hrun, hknown⟩ := hlong vif'
      refine ⟨m', r, ?_, hknown⟩
      simp only [Prog.run, HostMap.serve, HostMap.call, hnot, Option.bind_some, Bool.false_eq_true,
        if_false]
      exact hrun
    · obtain ⟨rfl, hhost⟩ := cache_mine hm hco (hip x) honly hx hmac
      have hend : ∀ m, ∃ r, (sentFrom vif (put skb 6 vif.devAddr.val)).run (HostMap.serve hz) m =
          some (m, r) := fun _ => ⟨_, rfl⟩
      obtain ⟨r, hrun⟩ := hend (m.touch env.cacheTime (generateIpv4NetworkAddr ip))
      refine ⟨_, r, ?_, known_touch hm hlen h.given hhost⟩
      simp only [Prog.run, HostMap.serve, HostMap.call, htaken, Option.bind_some, if_true]
      exact hrun
  · exact hlong vif'

/-! ## The answer -/

/-- What an answer needs to be given to the host: the address of the host, a header within the
frame, and that it comes before an entry of the time when the host sent is too old. -/
structure Answers (hz : UInt32) (env env' : Env) (vif' : Vif) (ip : List UInt8) (skb' : SkBuff) :
    Prop where
  unicast : byte skb' 0 % 2 = 0
  proto : protocol (inner skb') = ETH_P_IP
  daddr : (inner skb').slice 30 4 = ip
  header : 14+4*(byte (inner skb') 14 % 16) < 14+(inner skb').len
  on : vif'.nat25Disable = false
  fresh : hasExpired hz env'.tableTime env.cacheTime = false ∧
    hasExpired hz env'.tableTime env.tableTime = false

variable {env' : Env} {vif' : Vif} {skb' : SkBuff}

theorem handleFrameEnd_dest (vif : Vif) (skb : SkBuff) (mac : Mac) :
    ∃ r, handleFrameEnd skb (isTagged skb) (skb.slice 14 2) ⟨0, vif, put (inner skb) 0 mac.val⟩ =
        .done (some r) ∧
      r.ret = 0 ∧ r.skb.slice 0 6 = mac.val ∧ Kept skb r := by
  by_cases htag : isTagged skb = true
  · refine ⟨⟨0, vif, pushTag (frontOf skb) (skb.slice 14 2) (put (inner skb) 0 mac.val)⟩, ?_, rfl,
      ?_, fun i hi => ?_⟩
    · simp [handleFrameEnd, htag, ended]
    · exact (pushTag_dest _ _ _).trans (put_dest (mac_length mac))
    · refine pushTag_kept htag (h := ⟨0, vif, put (inner skb) 0 mac.val⟩) (fun j hj => ?_) i hi
      simp only [AIC.Nat25Translation.inner, if_pos htag]
      exact put_kept (mac_length mac) hj
  · refine ⟨⟨0, vif, put (inner skb) 0 mac.val⟩, ?_, rfl, put_dest (mac_length mac),
      fun i hi => ?_⟩
    · simp [handleFrameEnd, htag, ended]
    · simp only [AIC.Nat25Translation.inner, if_neg htag]
      exact put_kept (mac_length mac) hi

theorem lookup_found (h : Answers hz env env' vif' ip skb') (hknown : Known owner env ip m) :
    ∃ m', (nat25DbHandle env' vif' (inner skb') .lookup).run (HostMap.serve hz) m =
      some (m', some ⟨0, vif', put (inner skb') 0 (owner ip).val⟩) := by
  obtain ⟨g, hhost, hmac, hage⟩ := hknown
  have hheader : ¬ 14+(inner skb').len ≤ 14+4*(byte (inner skb') 14 % 16) := not_le.mpr h.header
  have hfresh : ¬ hasExpired hz env'.tableTime g.age = true := by
    rcases hage with hage | hage
    · simp [hage, h.fresh.1]
    · simp [hage, h.fresh.2]
  have hmap : m.lookup hz env'.tableTime (generateIpv4NetworkAddr ip) =
      (m.put (generateIpv4NetworkAddr ip) { g with used := g.used+1 }, true,
        some (owner ip).val) := by
    simp only [HostMap.lookup, hhost, if_neg hfresh, hmac]
  refine ⟨m.put (generateIpv4NetworkAddr ip) { g with used := g.used+1 }, ?_⟩
  simp only [nat25DbHandle, h.proto, if_true, handleIp, if_neg hheader, replaceDest, h.daddr,
    Prog.run, HostMap.serve, HostMap.call, hmap, Option.bind_some]
  rfl

/-- `nat25_handle_frame` with the table. -/
def tableWay (env : Env) (vif : Vif) (skb : SkBuff) : Program :=
  (nat25DbHandle env vif (inner skb) .lookup).bind
    (handleFrameFound skb (isTagged skb) (skb.slice 14 2))

theorem rx_ways (hunicast : byte skb 0 % 2 = 0) (hon : vif.nat25Disable = false) :
    nat25HandleFrame env vif skb =
      if (!vif.nat25scDisable && protocol (inner skb) == ETH_P_IP) = true then
        .ask (.cached ((inner skb).slice 30 4)) fun a =>
          match a.2 with
          | some mac => handleFrameEnd skb (isTagged skb) (skb.slice 14 2)
              ⟨0, vif, put (inner skb) 0 mac⟩
          | none => tableWay env vif skb
      else tableWay env vif skb := by
  rw [nat25HandleFrame, if_pos hunicast]
  simp only [hon, Bool.not_false, if_true]
  rfl

theorem rx_delivers (h : Answers hz env env' vif' ip skb') (hip : ip ≠ anyIp)
    (hm : Owned owner m) (hknown : Known owner env ip m) :
    ∃ m' r, (nat25HandleFrame env' vif' skb').run (HostMap.serve hz) m = some (m', some r) ∧
      r.ret = 0 ∧ r.skb.slice 0 6 = (owner ip).val ∧ Kept skb' r := by
  obtain ⟨r, hend, hr⟩ := handleFrameEnd_dest vif' skb' (owner ip)
  obtain ⟨m', hfound⟩ := lookup_found h hknown
  have htable : (tableWay env' vif' skb').run (HostMap.serve hz) m = some (m', some r) := by
    rw [tableWay, run_bind, hfound]
    exact congrArg (fun p => p.run (HostMap.serve hz) m') hend
  rw [rx_ways h.unicast h.on]
  split_ifs
  · by_cases hcache : m.ip = ip
    · -- The cache is about this host.
      have hmac : m.mac = (owner ip).val := hcache ▸ hm.cache (hcache ▸ hip)
      refine ⟨m, r, ?_, hr⟩
      simp only [Prog.run, HostMap.serve, HostMap.call, h.daddr, hcache, if_true, hmac,
        Option.bind_some]
      exact congrArg (fun p => p.run (HostMap.serve hz) m) hend
    · refine ⟨m', r, ?_, hr⟩
      simp only [Prog.run, HostMap.serve, HostMap.call, h.daddr, hcache, if_false,
        Option.bind_some]
      exact htable
  · exact ⟨m', r, htable, hr⟩

/-! ## On the table with its pointers -/

/-- The database is as the calls of frames that say to whom their sources belong leave it. -/
def Reached (owner : List UInt8 → Mac) (hz : UInt32) (db : Db) : Prop :=
  ∃ cs answers, (∀ c ∈ cs, Allowed owner c) ∧ Db.empty.calls hz cs = some (db, answers)

theorem calls_keep (hz : UInt32) {cs : List Call} (hcs : ∀ c ∈ cs, Allowed owner c)
    (hm : Owned owner m) (hco : Coherent m) :
    Owned owner (m.calls hz cs).1 ∧ Coherent (m.calls hz cs).1 := by
  induction cs generalizing m with
  | nil => exact ⟨hm, hco⟩
  | cons c cs ih =>
    exact ih (fun c hc => hcs c (.tail _ hc)) (hm.call hz (hcs c (.head _))).1 (hco.call hz c)

theorem Reached.stands {db : Db} (h : Reached owner hz db) :
    ∃ chains m, Stands db chains m ∧ Owned owner m ∧ Coherent m := by
  obtain ⟨cs, answers, hcs, hrun⟩ := h
  obtain ⟨db', chains, hrun', hstands⟩ := calls_refine hz cs
  obtain rfl : db' = db := congrArg Prod.fst (Option.some.inj (hrun'.symm.trans hrun))
  obtain ⟨hm, hco⟩ := calls_keep hz hcs owned_empty coherent_empty
  exact ⟨chains, _, hstands, hm, hco⟩

theorem db_serve_same (hz : UInt32) (db : Db) (m : HostMap) (c : Call)
    (h : ∃ chains, Stands db chains m) :
    ∃ db' m' a, db.call hz c = some (db', a) ∧ HostMap.serve hz m c = some (m', a) ∧
      ∃ chains, Stands db' chains m' := by
  obtain ⟨chains, hstands⟩ := h
  obtain ⟨db', chains', hrun, hstands'⟩ := hstands.call hz c
  exact ⟨db', _, _, hrun, rfl, chains', hstands'⟩

/-- The frame of a host and the answer to it, on every table that frames of the network left. A
cache for the address 0.0.0.0 is left out: its host would take the short way with every address. -/
theorem reply_delivered {db : Db} (hdb : Reached owner hz db)
    (hcache : db.scdbEntry.isSome → db.scdbIp ≠ anyIp)
    (honly : ∀ ip', ip' ≠ anyIp → owner ip' = owner ip → ip' = ip)
    (hsent : Sent owner env ip skb) (hanswers : Answers hz env env' vif' ip skb') :
    ∃ db1 sent db2 r, (aicBrClientTx env vif skb).run (Db.call hz) db = some (db1, sent) ∧
      (nat25HandleFrame env' vif' skb').run (Db.call hz) db1 = some (db2, some r) ∧
      r.ret = 0 ∧ r.skb.slice 0 6 = (owner ip).val ∧ Kept skb' r := by
  obtain ⟨chains, m, hstands, hm, hco⟩ := hdb.stands
  have hip : ∀ x, m.cacheOf = some x → m.ip ≠ anyIp := by
    intro x hx
    rw [hstands.ip]
    refine hcache ?_
    rw [hstands.cache] at hx
    obtain ⟨a, ha, -⟩ := Option.map_eq_some_iff.mp hx
    exact Option.isSome_of_eq_some ha
  obtain ⟨m1, sent, hmap, hknown⟩ := tx_known hz vif hsent hm hco hip honly
  have hm1 : Owned owner m1 := by
    have halways : Always owner (aicBrClientTx env vif skb) := aicBrClientTx_always hsent.tells
    obtain ⟨m1', sent', hmap', ⟨hm1, -⟩, -⟩ := halways.ends.run (map_serves hz) ⟨hm, hco⟩
    obtain rfl : m1' = m1 := congrArg Prod.fst (Option.some.inj (hmap'.symm.trans hmap))
    exact hm1
  obtain ⟨db1, m1', r1, hrun1, hmap1, hstands1⟩ := run_same (db_serve_same hz)
    (aicBrClientTx env vif skb) ⟨chains, hstands⟩
  obtain rfl : m1' = m1 := congrArg Prod.fst (Option.some.inj (hmap1.symm.trans hmap))
  obtain ⟨m2, r, hmap2, hr⟩ := rx_delivers hanswers hsent.given hm1 hknown
  obtain ⟨db2, m2', r2, hrun2, hmap2', -⟩ := run_same (db_serve_same hz)
    (nat25HandleFrame env' vif' skb') hstands1
  obtain rfl : r2 = some r := congrArg Prod.snd (Option.some.inj (hmap2'.symm.trans hmap2))
  exact ⟨db1, r1, db2, r, hrun1, hrun2, hr⟩

def oneHost (ip : List UInt8) : Mac :=
  if ip = [10, 0, 0, 5] then ⟨[2, 0, 0, 0, 0, 5], rfl⟩ else ⟨[2, 0, 0, 0, 0, 0], rfl⟩

def asks : SkBuff := ipFrame [2, 7, 7, 7, 7, 7] [2, 0, 0, 0, 0, 5] [10, 0, 0, 5] [10, 0, 0, 7]

def reply : SkBuff := ipFrame [2, 1, 1, 1, 1, 1] [2, 7, 7, 7, 7, 7] [10, 0, 0, 7] [10, 0, 0, 5]

theorem reply_delivered_once :
    ∃ db1 sent db2 r, (aicBrClientTx homeEnv homeVif asks).run (Db.call 100) Db.empty =
        some (db1, sent) ∧
      (nat25HandleFrame homeEnv homeVif reply).run (Db.call 100) db1 = some (db2, some r) ∧
      r.ret = 0 ∧ r.skb.slice 0 6 = (oneHost [10, 0, 0, 5]).val ∧ Kept reply r := by
  refine reply_delivered ⟨[], [], fun _ h => absurd h List.not_mem_nil, rfl⟩
    (fun h => by cases h) ?_
    ⟨by decide, by decide, by decide, by decide, by decide, rfl, rfl⟩
    ⟨by decide, by decide, by decide, by decide, rfl, by decide, by decide⟩
  intro ip' _ h
  by_contra hne
  rw [oneHost, if_neg hne] at h
  exact absurd (congrArg Subtype.val h) (by decide)

end AIC.Nat25Reply
