import Aic8800.Nat25Table

/-!
# The database of network addresses is a map

In every run of calls the pointers of the hash table keep their chains, each
entry hangs once in the chain of its address, none is lost and the cache is about
an entry that is there. The answers are those of a map from addresses to hosts.
-/

set_option autoImplicit false

namespace AIC.Nat25Refines
open Lib.PointerChain AIC.Nat25Table

def hostOf (e : Entry) : Host := ⟨e.macAddr, e.ageingTimer, e.useCount⟩

/-- The table with these chains stands for the map. -/
structure Stands (db : Db) (chains : Fin 16 → List ℕ) (m : HostMap) : Prop where
  linked : Linked db.links chains
  covered : ∀ a ∈ db.links.live, ∃ b, a ∈ chains b
  nodup : db.links.live.Nodup
  hash : ∀ {b a}, a ∈ chains b → networkHash (db.entry a).networkAddr = b
  unique : ∀ a ∈ db.links.live, ∀ c ∈ db.links.live,
    (db.entry a).networkAddr = (db.entry c).networkAddr → a = c
  host : ∀ a ∈ db.links.live, m.host (db.entry a).networkAddr = some (hostOf (db.entry a))
  known : ∀ x h, m.host x = some h → ∃ a ∈ db.links.live, (db.entry a).networkAddr = x
  mac : m.mac = db.scdbMac
  ip : m.ip = db.scdbIp
  cache : m.cacheOf = db.scdbEntry.map fun a => (db.entry a).networkAddr
  cacheLive : ∀ a, db.scdbEntry = some a → a ∈ db.links.live

variable {db : Db} {chains : Fin 16 → List ℕ} {m : HostMap} {a f : ℕ} {b : Fin 16}
  {x : NetworkAddr}

theorem stands_empty : Stands Db.empty (fun _ => []) HostMap.empty where
  linked := ⟨fun _ => ⟨trivial, rfl⟩, fun _ => List.nodup_nil,
    fun ha _ => absurd ha List.not_mem_nil⟩
  covered _ ha := absurd ha List.not_mem_nil
  nodup := List.nodup_nil
  hash ha := absurd ha List.not_mem_nil
  unique _ ha := absurd ha List.not_mem_nil
  host _ ha := absurd ha List.not_mem_nil
  known _ _ h := by cases h
  mac := rfl
  ip := rfl
  cache := rfl
  cacheLive _ h := by cases h

/-! ## Entries that stay -/

theorem setEntry_addr {e : Entry} (he : e.networkAddr = (db.entry a).networkAddr) (c : ℕ) :
    ((db.setEntry a e).entry c).networkAddr = (db.entry c).networkAddr := by
  by_cases hc : c = a
  · subst hc
    exact (congrArg Entry.networkAddr (Function.update_self ..)).trans he
  · exact congrArg Entry.networkAddr (Function.update_of_ne hc _ _)

/-- The walk finds the host of the map, or none. -/
theorem Stands.find (h : Stands db chains m) (x : NetworkAddr) :
    (db.find x = some none ∧ m.host x = none) ∨
      ∃ a ∈ db.links.live, db.find x = some (some a) ∧ (db.entry a).networkAddr = x ∧
        m.host x = some (hostOf (db.entry a)) := by
  have hwalk := h.linked.find (fun a => (db.entry a).networkAddr == x) (networkHash x)
  cases hr : (chains (networkHash x)).find? fun a => (db.entry a).networkAddr == x with
  | none =>
    refine .inl ⟨hwalk.trans (congrArg some hr), ?_⟩
    cases hm : m.host x with
    | none => rfl
    | some g =>
      obtain ⟨a, ha, hax⟩ := h.known x g hm
      obtain ⟨b, hab⟩ := h.covered a ha
      have hb : networkHash x = b := by rw [← h.hash hab, hax]
      have hne := List.find?_eq_none.mp hr a (hb ▸ hab)
      exact absurd (beq_iff_eq.mpr hax) hne
  | some a =>
    have hmem := List.mem_of_find?_eq_some hr
    have hax : (db.entry a).networkAddr = x := by simpa using List.find?_some hr
    have hlive := h.linked.live hmem
    exact .inr ⟨a, hlive, hwalk.trans (congrArg some hr), hax, hax ▸ h.host a hlive⟩

theorem Stands.setEntry (h : Stands db chains m) (ha : a ∈ db.links.live) {e : Entry}
    (he : e.networkAddr = (db.entry a).networkAddr) :
    Stands (db.setEntry a e) chains (m.put (db.entry a).networkAddr (hostOf e)) where
  linked := h.linked
  covered := h.covered
  nodup := h.nodup
  hash hc := by
    rw [setEntry_addr he]
    exact h.hash hc
  unique c hc d hd hcd := by
    rw [setEntry_addr he, setEntry_addr he] at hcd
    exact h.unique c hc d hd hcd
  host c hc := by
    rw [setEntry_addr he]
    by_cases hca : c = a
    · subst hca
      refine (Function.update_self ..).trans (congrArg (some <| hostOf ·) ?_)
      exact (Function.update_self c e db.entry).symm
    · have hne : (db.entry c).networkAddr ≠ (db.entry a).networkAddr :=
        fun hsame => hca (h.unique c hc a ha hsame)
      refine (Function.update_of_ne hne _ _).trans ((h.host c hc).trans ?_)
      exact congrArg (some <| hostOf ·) (Function.update_of_ne hca _ _).symm
  known y g hg := by
    by_cases hy : y = (db.entry a).networkAddr
    · exact ⟨a, ha, by rw [setEntry_addr he, hy]⟩
    · obtain ⟨c, hc, hcy⟩ := h.known y g ((Function.update_of_ne hy _ _).symm.trans hg)
      exact ⟨c, hc, by rw [setEntry_addr he, hcy]⟩
  mac := h.mac
  ip := h.ip
  cache := by
    refine h.cache.trans (Option.map_congr fun c _ => ?_)
    exact (setEntry_addr he c).symm
  cacheLive := h.cacheLive

theorem touch_put {jiffies : UInt32} {g : Host} (hx : m.host x = some g) :
    m.touch jiffies x = m.put x { g with age := jiffies } := by
  rw [HostMap.touch, hx]
  rfl

theorem Stands.touch (h : Stands db chains m) (ha : a ∈ db.links.live) (jiffies : UInt32) :
    ∃ db', db.touch jiffies a = some db' ∧
      Stands db' chains (m.touch jiffies (db.entry a).networkAddr) := by
  refine ⟨_, if_pos ha, ?_⟩
  rw [touch_put (h.host a ha)]
  exact h.setEntry ha rfl

theorem kmalloc_new (live : List ℕ) (want : ℕ) : kmalloc live want ∉ live := by
  unfold kmalloc
  split_ifs with h
  · intro hmem
    have := List.single_le_sum (fun _ _ => Nat.zero_le _) _ hmem
    omega
  · exact h

theorem Stands.insert_new (h : Stands db chains m) (ha : a ∉ db.links.live) {e : Entry}
    (hx : m.host e.networkAddr = none) :
    ∃ links chains', (({ db with links := { db.links with live := a::db.links.live } } :
        Db).setEntry a e).links.link (networkHash e.networkAddr) a = some links ∧
      Stands { db.setEntry a e with links := links } chains' (m.put e.networkAddr (hostOf e)) := by
  have hout : ∀ b, a ∉ chains b := fun b hab => ha (h.linked.live hab)
  obtain ⟨links, hrun, hlive, hlinked⟩ :=
    (h.linked.add a).link List.mem_cons_self hout (networkHash e.networkAddr)
  have hself : (db.setEntry a e).entry a = e := Function.update_self ..
  have hother : ∀ {c}, c ≠ a → (db.setEntry a e).entry c = db.entry c :=
    fun hc => Function.update_of_ne hc _ _
  have hold : ∀ {c}, c ∈ db.links.live → c ≠ a := by
    rintro c hc rfl
    exact ha hc
  have hfree : ∀ c ∈ db.links.live, (db.entry c).networkAddr ≠ e.networkAddr := by
    intro c hc he
    have hhost := h.host c hc
    rw [he, hx] at hhost
    cases hhost
  refine ⟨links, _, hrun, hlinked, ?_, ?_, ?_, ?_, ?_, ?_, h.mac, h.ip, ?_, ?_⟩
  · intro c hc
    rw [hlive] at hc
    rcases List.mem_cons.mp hc with rfl | hc
    · exact ⟨networkHash e.networkAddr, by rw [Function.update_self]; exact List.mem_cons_self⟩
    · obtain ⟨b, hb⟩ := h.covered c hc
      refine ⟨b, ?_⟩
      by_cases hbe : b = networkHash e.networkAddr
      · rw [hbe, Function.update_self]
        exact List.mem_cons_of_mem _ (hbe ▸ hb)
      · rwa [Function.update_of_ne hbe]
  · rw [hlive]
    exact List.nodup_cons.mpr ⟨ha, h.nodup⟩
  · intro b c hc
    by_cases hb : b = networkHash e.networkAddr
    · rw [hb, Function.update_self] at hc
      rcases List.mem_cons.mp hc with rfl | hc
      · rw [hb, hself]
      · rw [hother (hold (h.linked.live hc)), h.hash hc, hb]
    · rw [Function.update_of_ne hb] at hc
      rw [hother (hold (h.linked.live hc)), h.hash hc]
  · intro c hc d hd hcd
    rw [hlive] at hc hd
    rcases List.mem_cons.mp hc with rfl | hc' <;> rcases List.mem_cons.mp hd with rfl | hd'
    · rfl
    · rw [hself, hother (hold hd')] at hcd
      exact absurd hcd.symm (hfree d hd')
    · rw [hself, hother (hold hc')] at hcd
      exact absurd hcd (hfree c hc')
    · rw [hother (hold hc'), hother (hold hd')] at hcd
      exact h.unique c hc' d hd' hcd
  · intro c hc
    rw [hlive] at hc
    rcases List.mem_cons.mp hc with rfl | hc
    · rw [hself]
      exact Function.update_self ..
    · rw [hother (hold hc)]
      exact (Function.update_of_ne (hfree c hc) _ _).trans (h.host c hc)
  · intro y g hg
    rw [hlive]
    by_cases hy : y = e.networkAddr
    · exact ⟨a, List.mem_cons_self, by rw [hself, hy]⟩
    · obtain ⟨c, hc, hcy⟩ := h.known y g ((Function.update_of_ne hy _ _).symm.trans hg)
      exact ⟨c, List.mem_cons_of_mem _ hc, by rw [hother (hold hc), hcy]⟩
  · refine h.cache.trans (Option.map_congr fun c hc => ?_)
    rw [hother (hold (h.cacheLive c hc))]
  · intro c hc
    rw [hlive]
    exact List.mem_cons_of_mem _ (h.cacheLive c hc)

/-! ## Entries that go -/

/-- The map where only hosts of the listed addresses can go or change. -/
def HostMap.keepOn (m : HostMap) (l : List NetworkAddr) (stay : Host → Option Host) : HostMap :=
  let host y := if y ∈ l then (m.host y).bind stay else m.host y
  if m.cacheOf.any fun y => decide (y ∈ l) && (host y).isNone then
    ⟨host, List.replicate 6 0, List.replicate 4 0, none⟩
  else { m with host := host }

theorem keepOn_nil (stay : Host → Option Host) : HostMap.keepOn m [] stay = m := by
  obtain ⟨host, mac, ip, cacheOf⟩ := m
  cases cacheOf <;> simp [HostMap.keepOn]

theorem keepOn_append {l l' : List NetworkAddr} {stay : Host → Option Host}
    (h : ∀ y ∈ l, y ∉ l') :
    HostMap.keepOn (HostMap.keepOn m l stay) l' stay = HostMap.keepOn m (l++l') stay := by
  have hhost : ∀ y, (if y ∈ l' then (if y ∈ l then (m.host y).bind stay else m.host y).bind stay
      else if y ∈ l then (m.host y).bind stay else m.host y) =
        if y ∈ l++l' then (m.host y).bind stay else m.host y := by
    intro y
    by_cases hy : y ∈ l <;> by_cases hy' : y ∈ l'
    · exact absurd hy' (h y hy)
    all_goals simp [hy, hy']
  cases hc : m.cacheOf with
  | none => simp [HostMap.keepOn, hc, hhost]
  | some c =>
    have hcc := hhost c
    by_cases hy : c ∈ l
    · have hy' : c ∉ l' := h c hy
      cases hs : (m.host c).bind stay <;> simp [HostMap.keepOn, hc, hhost, hy, hy', hs]
    · cases hs : (m.host c).bind stay <;> simp [HostMap.keepOn, hc, hhost, hy, hs]

theorem keepOn_put {stay : Host → Option Host} {g g' : Host} (hx : m.host x = some g)
    (hs : stay g = some g') : HostMap.keepOn m [x] stay = m.put x g' := by
  have hhost : (fun y => if y ∈ [x] then (m.host y).bind stay else m.host y) =
      Function.update m.host x (some g') := by
    funext y
    by_cases hy : y = x
    · subst hy
      simp [hx, hs]
    · simp [hy]
  have hkeep : (m.cacheOf.any fun y => decide (y ∈ [x]) &&
      (Function.update m.host x (some g') y).isNone) = false := by
    cases m.cacheOf with
    | none => rfl
    | some c =>
      by_cases hc : c = x
      · simp [hc]
      · simp [hc]
  rw [HostMap.keepOn, hhost]
  exact if_neg (by rw [hkeep]; simp)

theorem put_same {g : Host} (hx : m.host x = some g) : m.put x g = m := by
  rw [HostMap.put, Function.update_eq_self_iff.mpr hx.symm]

theorem keepOn_gone {stay : Host → Option Host} {g : Host} (hx : m.host x = some g)
    (hs : stay g = none) (g' : Host) :
    HostMap.keepOn m [x] stay = HostMap.keepOn (m.put x g') [x] fun _ => none := by
  have hhost : (fun y => if y ∈ [x] then (m.host y).bind stay else m.host y) =
      fun y => if y ∈ [x] then ((m.put x g').host y).bind fun _ => none
        else (m.put x g').host y := by
    funext y
    by_cases hy : y = x
    · subst hy
      simp [hx, hs]
    · simp [hy, HostMap.put]
  rw [HostMap.keepOn, HostMap.keepOn, hhost]
  rfl

/-- An entry is taken out of its chain and freed. -/
theorem Stands.release (h : Stands db chains m) (hf : f ∈ chains b) :
    ∃ db', db.release f = some db' ∧ db'.entry = db.entry ∧
      Stands db' (Function.update chains b ((chains b).erase f))
        (HostMap.keepOn m [(db.entry f).networkAddr] fun _ => none) := by
  have hlive := h.linked.live hf
  obtain ⟨links1, hrun1, hlive1, hlinked1⟩ := h.linked.unlink hf
  have hout : ∀ b', f ∉ Function.update chains b ((chains b).erase f) b' := by
    intro b' hb'
    by_cases hbb : b' = b
    · rw [hbb, Function.update_self] at hb'
      exact (h.linked.nodup b).not_mem_erase hb'
    · rw [Function.update_of_ne hbb] at hb'
      exact hbb (h.linked.apart hb' hf)
  obtain ⟨links2, hrun2, hlive2, hlinked2⟩ := hlinked1.free (hlive1 ▸ hlive) hout
  rw [hlive1] at hlive2
  have hmem : ∀ {c}, c ∈ links2.live ↔ c ≠ f ∧ c ∈ db.links.live := by
    intro c
    rw [hlive2]
    exact h.nodup.mem_erase_iff
  have hchain : ∀ {b' c}, c ∈ Function.update chains b ((chains b).erase f) b' → c ∈ chains b' := by
    intro b' c hc
    by_cases hbb : b' = b
    · rw [hbb, Function.update_self] at hc
      exact hbb ▸ List.mem_of_mem_erase hc
    · rwa [Function.update_of_ne hbb] at hc
  have hfree : ∀ {c}, c ≠ f → c ∈ db.links.live →
      (db.entry c).networkAddr ∉ [(db.entry f).networkAddr] := by
    intro c hne hc he
    exact hne (h.unique c hc f hlive (List.mem_singleton.mp he))
  have hcovered : ∀ c ∈ links2.live,
      ∃ b', c ∈ Function.update chains b ((chains b).erase f) b' := by
    intro c hc
    obtain ⟨hne, hcl⟩ := hmem.mp hc
    obtain ⟨b', hb'⟩ := h.covered c hcl
    refine ⟨b', ?_⟩
    by_cases hbb : b' = b
    · rw [hbb, Function.update_self]
      exact (List.mem_erase_of_ne hne).mpr (hbb ▸ hb')
    · rwa [Function.update_of_ne hbb]
  have hhost : ∀ c ∈ links2.live, (if (db.entry c).networkAddr ∈ [(db.entry f).networkAddr] then
      (m.host (db.entry c).networkAddr).bind (fun _ => none)
      else m.host (db.entry c).networkAddr) = some (hostOf (db.entry c)) := by
    intro c hc
    obtain ⟨hne, hcl⟩ := hmem.mp hc
    rw [if_neg (hfree hne hcl)]
    exact h.host c hcl
  have hknown : ∀ y g, (if y ∈ [(db.entry f).networkAddr] then
      (m.host y).bind (fun _ => none) else m.host y) = some g →
        ∃ c ∈ links2.live, (db.entry c).networkAddr = y := by
    intro y g hg
    by_cases hy : y ∈ [(db.entry f).networkAddr]
    · rw [if_pos hy] at hg
      cases hm : m.host y <;> rw [hm] at hg <;> cases hg
    · rw [if_neg hy] at hg
      obtain ⟨c, hc, hcy⟩ := h.known y g hg
      refine ⟨c, hmem.mpr ⟨?_, hc⟩, hcy⟩
      rintro rfl
      exact hy (List.mem_singleton.mpr hcy.symm)
  by_cases hcache : db.scdbEntry = some f
  · refine ⟨⟨links2, db.entry, List.replicate 6 0, List.replicate 4 0, none⟩, ?_, rfl, ?_⟩
    · simp only [Db.release, if_pos hcache, hrun1, hrun2, Option.bind_eq_bind, Option.bind_some]
    · have hkeep : HostMap.keepOn m [(db.entry f).networkAddr] (fun _ => none) =
          ⟨fun y => if y ∈ [(db.entry f).networkAddr] then (m.host y).bind (fun _ => none)
            else m.host y, List.replicate 6 0, List.replicate 4 0, none⟩ := by
        have hc := h.cache
        rw [hcache] at hc
        simp [HostMap.keepOn, hc]
      rw [hkeep]
      exact ⟨hlinked2, hcovered, hlive2 ▸ h.nodup.erase f, fun hc => h.hash (hchain hc),
        fun c hc d hd => h.unique c (hmem.mp hc).2 d (hmem.mp hd).2, hhost, hknown, rfl, rfl, rfl,
        fun _ hc => by cases hc⟩
  · refine ⟨{ db with links := links2 }, ?_, rfl, ?_⟩
    · simp only [Db.release, if_neg hcache, hrun1, hrun2, Option.bind_eq_bind, Option.bind_some]
    · have hkeep : HostMap.keepOn m [(db.entry f).networkAddr] (fun _ => none) =
          { m with host := fun y => if y ∈ [(db.entry f).networkAddr] then
              (m.host y).bind (fun _ => none) else m.host y } := by
        refine if_neg ?_
        rw [h.cache]
        cases hc : db.scdbEntry with
        | none => simp
        | some c =>
          have hne : c ≠ f := fun he => hcache (by rw [hc, he])
          have hnot := hfree hne (h.cacheLive c hc)
          rw [List.mem_singleton] at hnot
          simp [hnot]
      rw [hkeep]
      exact ⟨hlinked2, hcovered, hlive2 ▸ h.nodup.erase f, fun hc => h.hash (hchain hc),
        fun c hc d hd => h.unique c (hmem.mp hc).2 d (hmem.mp hd).2, hhost, hknown, h.mac, h.ip,
        h.cache, fun c hc => hmem.mpr ⟨fun he => hcache (by rw [hc, he]), h.cacheLive c hc⟩⟩

/-! ## The two sweeps -/

/-- A turn does to the entry what `stay` says about its host. -/
def Respects (turn : Db → ℕ → Option Db) (stay : Host → Option Host) : Prop :=
  ∀ {db chains m f b}, Stands db chains m → f ∈ chains b →
    ∃ db' chains', turn db f = some db' ∧
      Stands db' chains' (HostMap.keepOn m [(db.entry f).networkAddr] stay) ∧
      (chains' = chains ∨ chains' = Function.update chains b ((chains b).erase f)) ∧
      ∀ c, (db'.entry c).networkAddr = (db.entry c).networkAddr

theorem release_respects : Respects Db.release fun _ => none := by
  intro db chains m f b h hf
  obtain ⟨db', hrun, hentry, hstands⟩ := h.release hf
  exact ⟨db', _, hrun, hstands, .inr rfl, fun c => by rw [hentry]⟩

theorem expire_respects (hz jiffies : UInt32) :
    Respects (expireTurn hz jiffies) (expired hz jiffies) := by
  intro db chains m f b h hf
  have hlive := h.linked.live hf
  have hhost := h.host f hlive
  unfold expireTurn
  by_cases hage : hasExpired hz jiffies (db.entry f).ageingTimer = true
  · have hage' : hasExpired hz jiffies (hostOf (db.entry f)).age = true := hage
    have hset := h.setEntry hlive (e := { db.entry f with
      useCount := (db.entry f).useCount-1 }) rfl
    have haddr := @setEntry_addr db f
      { db.entry f with useCount := (db.entry f).useCount-1 } rfl
    by_cases hlast : (db.entry f).useCount-1 = 0
    · obtain ⟨db', hrun, hentry, hstands⟩ := hset.release hf
      have hgone : expired hz jiffies (hostOf (db.entry f)) = none := by
        rw [expired, if_pos hage']
        exact if_pos hlast
      refine ⟨db', _, ?_, ?_, .inr rfl, fun c => ?_⟩
      · simp only [if_pos hage, if_pos hlast]
        exact hrun
      · rw [haddr] at hstands
        rw [keepOn_gone hhost hgone]
        exact hstands
      · rw [hentry, haddr]
    · have hstay : expired hz jiffies (hostOf (db.entry f)) =
          some (hostOf { db.entry f with useCount := (db.entry f).useCount-1 }) := by
        rw [expired, if_pos hage']
        exact if_neg hlast
      refine ⟨_, chains, ?_, ?_, .inl rfl, haddr⟩
      · simp only [if_pos hage, if_neg hlast]
      · rw [keepOn_put hhost hstay]
        exact hset
  · have hstay : expired hz jiffies (hostOf (db.entry f)) = some (hostOf (db.entry f)) :=
      if_neg hage
    refine ⟨db, chains, ?_, ?_, .inl rfl, fun _ => rfl⟩
    · simp only [if_neg hage]
    · rw [keepOn_put hhost hstay, put_same hhost]
      exact h

theorem sweepChain_spec {turn : Db → ℕ → Option Db} {stay : Host → Option Host}
    (hturn : Respects turn stay) {rest kept : List ℕ} {fuel : ℕ} (h : Stands db chains m)
    (hl : chains b = kept++rest) (hfuel : rest.length ≤ fuel) :
    ∃ db' chains', sweepChain turn fuel rest.head? db = some db' ∧
      Stands db' chains' (HostMap.keepOn m (rest.map fun c => (db.entry c).networkAddr) stay) ∧
      (∀ b', b' ≠ b → chains' b' = chains b') ∧
      ∀ c, (db'.entry c).networkAddr = (db.entry c).networkAddr := by
  induction rest generalizing db chains m kept fuel with
  | nil =>
    refine ⟨db, chains, ?_, ?_, fun _ _ => rfl, fun _ => rfl⟩
    · cases fuel <;> rfl
    · rw [List.map_nil, keepOn_nil]
      exact h
  | cons f rest ih =>
    obtain ⟨n, rfl⟩ : ∃ n, fuel = n+1 := Nat.exists_eq_succ_of_ne_zero (by
      rw [List.length_cons] at hfuel
      omega)
    have hf : f ∈ chains b := by
      rw [hl]
      exact List.mem_append_right _ List.mem_cons_self
    have hnext := h.linked.next hl
    obtain ⟨hnodupk, hnodup, hapart⟩ := List.nodup_append.mp (hl ▸ h.linked.nodup b)
    have hnotr : f ∉ rest := (List.nodup_cons.mp hnodup).1
    have hnotk : f ∉ kept := fun hk => hapart f hk f List.mem_cons_self rfl
    obtain ⟨db1, chains1, hrun1, hstands1, hchains1, haddr1⟩ := hturn h hf
    -- The entry is in the part that was walked, or gone.
    have hl1 : ∃ kept1, chains1 b = kept1++rest := by
      rcases hchains1 with rfl | rfl
      · exact ⟨kept++[f], by rw [hl, List.append_assoc]; rfl⟩
      · refine ⟨kept, ?_⟩
        rw [Function.update_self, hl, List.erase_append_right _ hnotk, List.erase_cons_head]
    have hother1 : ∀ b', b' ≠ b → chains1 b' = chains b' := by
      intro b' hb'
      rcases hchains1 with rfl | rfl
      · rfl
      · exact Function.update_of_ne hb' _ _
    obtain ⟨kept1, hl1⟩ := hl1
    obtain ⟨db2, chains2, hrun2, hstands2, hother2, haddr2⟩ :=
      ih hstands1 hl1 (Nat.le_of_succ_le_succ hfuel)
    refine ⟨db2, chains2, ?_, ?_, fun b' hb' => (hother2 b' hb').trans (hother1 b' hb'),
      fun c => (haddr2 c).trans (haddr1 c)⟩
    · rw [List.head?_cons, sweepChain, if_pos (h.linked.live hf), hrun1, hnext]
      exact hrun2
    · have hmap : (rest.map fun c => (db1.entry c).networkAddr) =
          rest.map fun c => (db.entry c).networkAddr :=
        List.map_congr_left fun c _ => haddr1 c
      rw [hmap, keepOn_append] at hstands2
      · exact hstands2
      · intro y hy hy'
        obtain ⟨c, hc, hcy⟩ := List.mem_map.mp hy'
        have hcl : c ∈ chains b := by
          rw [hl]
          exact List.mem_append_right _ (List.mem_cons_of_mem _ hc)
        have hcf := h.unique c (h.linked.live hcl) f (h.linked.live hf)
          (hcy.trans (List.mem_singleton.mp hy))
        exact hnotr (hcf ▸ hc)

/-- The addresses of the entries in these chains. -/
def addresses (db : Db) (chains : Fin 16 → List ℕ) (js : List (Fin 16)) : List NetworkAddr :=
  js.flatMap fun j => (chains j).map fun c => (db.entry c).networkAddr

theorem sweep_spec {turn : Db → ℕ → Option Db} {stay : Host → Option Host}
    (hturn : Respects turn stay) {js : List (Fin 16)} (hjs : js.Nodup) (h : Stands db chains m) :
    ∃ db' chains', (js.foldlM (fun db i =>
        sweepChain turn db.links.live.length (db.links.head i) db) db) = some db' ∧
      Stands db' chains' (HostMap.keepOn m (addresses db chains js) stay) := by
  induction js generalizing db chains m with
  | nil =>
    exact ⟨db, chains, rfl, by rwa [addresses, List.flatMap_nil, keepOn_nil]⟩
  | cons j js ih =>
    obtain ⟨hj, hjs⟩ := List.nodup_cons.mp hjs
    obtain ⟨db1, chains1, hrun1, hstands1, hother1, haddr1⟩ :=
      sweepChain_spec hturn h (List.nil_append (chains j)).symm (h.linked.length_le j)
    obtain ⟨db2, chains2, hrun2, hstands2⟩ := ih hjs hstands1
    refine ⟨db2, chains2, ?_, ?_⟩
    · rw [List.foldlM_cons, h.linked.head, hrun1]
      exact hrun2
    · have hsame : addresses db1 chains1 js = addresses db chains js := by
        refine List.flatMap_congr fun i hi => ?_
        rw [hother1 i fun he => hj (he ▸ hi)]
        exact List.map_congr_left fun c _ => haddr1 c
      rw [hsame, keepOn_append] at hstands2
      · exact hstands2
      · intro y hy hy'
        obtain ⟨c, hc, hcy⟩ := List.mem_map.mp hy
        obtain ⟨i, hi, hyi⟩ := List.mem_flatMap.mp hy'
        obtain ⟨d, hd, hdy⟩ := List.mem_map.mp hyi
        have hcd := h.unique c (h.linked.live hc) d (h.linked.live hd) (hcy.trans hdy.symm)
        rw [hcd] at hc
        exact hj (h.linked.apart hc hd ▸ hi)

theorem keepOn_all (h : Stands db chains m) (stay : Host → Option Host) :
    HostMap.keepOn m (addresses db chains (List.finRange 16)) stay = m.keep stay := by
  have hmem : ∀ c ∈ db.links.live,
      (db.entry c).networkAddr ∈ addresses db chains (List.finRange 16) := by
    intro c hc
    obtain ⟨b, hb⟩ := h.covered c hc
    exact List.mem_flatMap.mpr ⟨b, List.mem_finRange b, List.mem_map.mpr ⟨c, hb, rfl⟩⟩
  have hhost : (fun y => if y ∈ addresses db chains (List.finRange 16) then
      (m.host y).bind stay else m.host y) = fun y => (m.host y).bind stay := by
    funext y
    by_cases hy : y ∈ addresses db chains (List.finRange 16)
    · exact if_pos hy
    · cases hm : m.host y with
      | none => simp
      | some g =>
        obtain ⟨c, hc, hcy⟩ := h.known y g hm
        exact absurd (hcy ▸ hmem c hc) hy
  have hcache : (m.cacheOf.any fun y => decide (y ∈ addresses db chains (List.finRange 16)) &&
      ((m.host y).bind stay).isNone) = m.cacheOf.any fun y => ((m.host y).bind stay).isNone := by
    rw [h.cache]
    cases hc : db.scdbEntry with
    | none => rfl
    | some c => simp [hmem c (h.cacheLive c hc)]
  rw [HostMap.keepOn, HostMap.keep, hhost, hcache]

theorem Stands.sweep {turn : Db → ℕ → Option Db} {stay : Host → Option Host}
    (hturn : Respects turn stay) (h : Stands db chains m) :
    ∃ db' chains', sweep turn db = some db' ∧ Stands db' chains' (m.keep stay) := by
  obtain ⟨db', chains', hrun, hstands⟩ := sweep_spec hturn (List.nodup_finRange 16) h
  exact ⟨db', chains', hrun, keepOn_all h stay ▸ hstands⟩

/-! ## Calls -/

theorem Stands.lookup (h : Stands db chains m) (hz jiffies : UInt32) (x : NetworkAddr) :
    ∃ db' chains', db.lookupAndReplace hz jiffies x = some (db', (m.lookup hz jiffies x).2) ∧
      Stands db' chains' (m.lookup hz jiffies x).1 := by
  rcases h.find x with ⟨hfind, hnone⟩ | ⟨a, ha, hfind, hax, hhost⟩
  · refine ⟨db, chains, ?_, ?_⟩
    · simp [Db.lookupAndReplace, hfind, HostMap.lookup, hnone]
    · simpa [HostMap.lookup, hnone] using h
  · by_cases hage : hasExpired hz jiffies (db.entry a).ageingTimer = true
    · refine ⟨db, chains, ?_, ?_⟩
      · simp [Db.lookupAndReplace, hfind, HostMap.lookup, hhost, hostOf, hage]
      · simpa [HostMap.lookup, hhost, hostOf, hage] using h
    · have hset := h.setEntry ha (e := { db.entry a with
        useCount := (db.entry a).useCount+1 }) rfl
      rw [hax] at hset
      refine ⟨db.setEntry a { db.entry a with useCount := (db.entry a).useCount+1 }, chains, ?_, ?_⟩
      · simp [Db.lookupAndReplace, hfind, HostMap.lookup, hhost, hostOf, hage]
      · simpa [HostMap.lookup, hhost, hostOf, hage] using hset

theorem Stands.insert (h : Stands db chains m) (jiffies : UInt32) (mac : List UInt8)
    (x : NetworkAddr) (room : Bool) (want : ℕ) :
    ∃ db' chains', db.insert jiffies mac x room want = some db' ∧
      Stands db' chains' (m.insert jiffies mac x room) := by
  rcases h.find x with ⟨hfind, hnone⟩ | ⟨a, ha, hfind, hax, hhost⟩
  · cases room with
    | false =>
      refine ⟨db, chains, ?_, ?_⟩
      · simp [Db.insert, hfind]
      · simpa [HostMap.insert, hnone] using h
    | true =>
      obtain ⟨links, chains', hlink, hstands⟩ := h.insert_new (kmalloc_new db.links.live want)
        (e := ⟨1, mac, jiffies, x⟩) hnone
      refine ⟨{ db.setEntry (kmalloc db.links.live want) ⟨1, mac, jiffies, x⟩ with
        links := links }, chains', ?_, ?_⟩
      · simp only [Db.insert, hfind, Option.bind_eq_bind, Option.bind_some, if_true, hlink]
        rfl
      · simpa [HostMap.insert, hnone, Db.setEntry, hostOf] using hstands
  · have hset := h.setEntry ha (e := { db.entry a with macAddr := mac, ageingTimer := jiffies }) rfl
    rw [hax] at hset
    refine ⟨db.setEntry a { db.entry a with macAddr := mac, ageingTimer := jiffies }, chains,
      ?_, ?_⟩
    · simp [Db.insert, hfind]
    · simpa [HostMap.insert, hhost, hostOf] using hset

theorem Stands.shortWay (h : Stands db chains m) (jiffies : UInt32) (source : List UInt8) :
    ∃ db' chains', db.shortWay jiffies source = some (db', (m.shortWay jiffies source).2) ∧
      Stands db' chains' (m.shortWay jiffies source).1 := by
  unfold Db.shortWay HostMap.shortWay
  rw [h.cache, h.mac]
  cases hc : db.scdbEntry with
  | none => exact ⟨db, chains, rfl, h⟩
  | some a =>
    by_cases hmac : db.scdbMac = source
    · obtain ⟨db', hrun, hstands⟩ := h.touch (h.cacheLive a hc) jiffies
      exact ⟨db', chains, by simp [hmac, hrun], by simpa [hmac] using hstands⟩
    · exact ⟨db, chains, by simp [hmac], by simpa [hmac] using h⟩

theorem Stands.cacheSource (h : Stands db chains m) (jiffies : UInt32)
    (source ipAddr : List UInt8) :
    ∃ db' chains', db.cacheSource jiffies source ipAddr =
        some (db', (m.cacheSource jiffies source ipAddr).2) ∧
      Stands db' chains' (m.cacheSource jiffies source ipAddr).1 := by
  by_cases hmac : db.scdbMac = source
  · have hmac' : m.mac = source := h.mac.trans hmac
    cases hc : db.scdbEntry with
    | none =>
      have hnone : m.cacheOf = none := by rw [h.cache, hc]; rfl
      have hmap : m.cacheSource jiffies source ipAddr =
          ({ m with mac := List.replicate 6 0, ip := List.replicate 4 0 }, true) := by
        simp [HostMap.cacheSource, hmac', hnone]
      rw [hmap]
      exact ⟨{ db with scdbMac := List.replicate 6 0, scdbIp := List.replicate 4 0 }, chains,
        by simp [Db.cacheSource, hmac, hc], h.linked, h.covered, h.nodup, h.hash, h.unique, h.host,
        h.known, rfl, rfl, h.cache, h.cacheLive⟩
    | some a =>
      have hsome : m.cacheOf = some (db.entry a).networkAddr := by rw [h.cache, hc]; rfl
      obtain ⟨db', hrun, hstands⟩ := h.touch (h.cacheLive a hc) jiffies
      have hmap : m.cacheSource jiffies source ipAddr =
          (m.touch jiffies (db.entry a).networkAddr, false) := by
        simp [HostMap.cacheSource, hmac', hsome]
      rw [hmap]
      exact ⟨db', chains, by simp [Db.cacheSource, hmac, hc, hrun], hstands⟩
  · have hmac' : m.mac ≠ source := fun he => hmac (h.mac.symm.trans he)
    rcases h.find (generateIpv4NetworkAddr ipAddr) with ⟨hfind, hnone⟩ | ⟨a, ha, hfind, hax, hhost⟩
    · have hmap : m.cacheSource jiffies source ipAddr = ({ m with cacheOf := none }, true) := by
        simp [HostMap.cacheSource, hmac', hnone]
      rw [hmap]
      exact ⟨{ db with scdbEntry := none }, chains,
        by simp [Db.cacheSource, hmac, scdbFindEntry, hfind], h.linked, h.covered, h.nodup, h.hash,
        h.unique, h.host, h.known, h.mac, h.ip, rfl, fun _ hc => by cases hc⟩
    · have hnew : Stands { db with scdbMac := source, scdbIp := ipAddr, scdbEntry := some a } chains
          { m with mac := source, ip := ipAddr
                   cacheOf := some (generateIpv4NetworkAddr ipAddr) } :=
        ⟨h.linked, h.covered, h.nodup, h.hash, h.unique, h.host, h.known, rfl, rfl,
          congrArg some hax.symm, fun c hc => by cases hc; exact ha⟩
      obtain ⟨db', hrun, hstands⟩ := hnew.touch ha jiffies
      have hmap : m.cacheSource jiffies source ipAddr = ({ m.touch jiffies
          (generateIpv4NetworkAddr ipAddr) with
            mac := source, ip := ipAddr
            cacheOf := some (generateIpv4NetworkAddr ipAddr) }, false) := by
        simp [HostMap.cacheSource, hmac', hhost]
      have haddr : (({ db with scdbMac := source, scdbIp := ipAddr, scdbEntry := some a } :
          Db).entry a).networkAddr = generateIpv4NetworkAddr ipAddr := hax
      rw [haddr] at hstands
      rw [hmap]
      exact ⟨db', chains, by simp [Db.cacheSource, hmac, scdbFindEntry, hfind, hrun], hstands⟩

theorem Stands.call (h : Stands db chains m) (hz : UInt32) (c : Call) :
    ∃ db' chains', db.call hz c = some (db', (m.call hz c).2) ∧
      Stands db' chains' (m.call hz c).1 := by
  cases c with
  | lookup jiffies x => exact h.lookup hz jiffies x
  | insert jiffies mac x room want =>
    obtain ⟨db', chains', hrun, hstands⟩ := h.insert jiffies mac x room want
    exact ⟨db', chains', by rw [Db.call, hrun]; rfl, hstands⟩
  | cleanup =>
    obtain ⟨db', chains', hrun, hstands⟩ := h.sweep release_respects
    exact ⟨db', chains', by rw [Db.call, nat25DbCleanup, hrun]; rfl, hstands⟩
  | expire jiffies =>
    obtain ⟨db', chains', hrun, hstands⟩ := h.sweep (expire_respects hz jiffies)
    exact ⟨db', chains', by rw [Db.call, nat25DbExpire, hrun]; rfl, hstands⟩
  | shortWay jiffies source =>
    obtain ⟨db', chains', hrun, hstands⟩ := h.shortWay jiffies source
    exact ⟨db', chains', by rw [Db.call, hrun]; rfl, hstands⟩
  | cacheSource jiffies source ipAddr =>
    obtain ⟨db', chains', hrun, hstands⟩ := h.cacheSource jiffies source ipAddr
    exact ⟨db', chains', by rw [Db.call, hrun]; rfl, hstands⟩
  | cached ipAddr =>
    refine ⟨db, chains, ?_, h⟩
    rw [Db.call, Db.cached, HostMap.call, h.ip, h.mac]

theorem Stands.calls (h : Stands db chains m) (hz : UInt32) (cs : List Call) :
    ∃ db' chains', db.calls hz cs = some (db', (m.calls hz cs).2) ∧
      Stands db' chains' (m.calls hz cs).1 := by
  induction cs generalizing db chains m with
  | nil => exact ⟨db, chains, rfl, h⟩
  | cons c cs ih =>
    obtain ⟨db1, chains1, hrun1, hstands1⟩ := h.call hz c
    obtain ⟨db2, chains2, hrun2, hstands2⟩ := ih hstands1
    refine ⟨db2, chains2, ?_, hstands2⟩
    simp only [Db.calls, hrun1, hrun2, Option.bind_eq_bind, Option.bind_some, HostMap.calls]

/-- Every run of calls ends without a use of freed memory, the table that is left is well linked
and holds each entry once, and the answers are those of the map. -/
theorem calls_refine (hz : UInt32) (cs : List Call) :
    ∃ db chains, Db.empty.calls hz cs = some (db, (HostMap.empty.calls hz cs).2) ∧
      Stands db chains (HostMap.empty.calls hz cs).1 :=
  stands_empty.calls hz cs

end AIC.Nat25Refines
