import Aic8800.Lib.GreedyShares
import Aic8800.TxqAccounting
import Aic8800.TxqMembership
import Mathlib.Algebra.Order.BigOperators.Group.List

/-!
# The dispatch of a service period

`rwnx_ps_bh_traffic_req` shares a request out between the data txqs of a sleeping
station, in the order of their priority, each as far as its buffers and its credits
go.
-/

set_option autoImplicit false

namespace AIC.TxqServicePeriod
open AIC.TxqMachine AIC.TxqAccounting AIC.TxqMembership
open Lib.GuardedRun Lib.Tally Lib.GreedyShares

/-- In the order of `foreach_sta_txq_prio`. -/
def dataTxqs : StaId → List TxqId
  | .unicast i => nxTidPrio.map (StaId.unicast i).txqGet
  | .multicast vif => [.bcmc vif]

/-- What a txq can send in a service period. -/
def available (hw : Hw) (p : PsId) (k : TxqId) : ℕ :=
  if (hw.txq k).psId = p then min (hw.txq k).skList.length (hw.txq k).credits.toNat else 0

def limit (hw : Hw) (p : PsId) (k : TxqId) : ℕ :=
  if (hw.txq k).psId = p then (hw.txq k).pushLimit else 0

def OnList (hw : Hw) (k : TxqId) : Prop := ∃ q, (hw.txq k).hwq = some q ∧ k ∈ (hw.hwq q).list

/-- The status of a txq says whether it is in the list of its hardware queue. -/
def Linked (hw : Hw) (k : TxqId) : Prop :=
  ∃ q, (hw.txq k).hwq = some q ∧ (k ∈ (hw.hwq q).list ↔ (hw.txq k).inHwqList = true)

/-- A station in power save with consistent counters and no service period under way. -/
structure Waiting (hw : Hw) (s : StaId) (p : PsId) : Prop where
  asleep : (hw.sta s).psActive = true
  accounts : Accounts hw s
  word : (hw.sta s).pktReady p < 2^16
  idle : (hw.sta s).spCnt p = 0
  credits : ∀ k ∈ dataTxqs s, 0 ≤ (hw.txq k).credits ∧ (hw.txq k).credits ≤ 127
  linked : ∀ k ∈ dataTxqs s, (hw.txq k).skList ≠ [] → Linked hw k

/-- The limits add up to the counter, which is what is requested, or all that can be sent when that
is less. A limit stands behind full ones only, a txq with a limit is listed, and nothing else
changes. -/
structure Dispatched (hw hw' : Hw) (s : StaId) (p : PsId) (req : ℕ) : Prop where
  sum : ((dataTxqs s).map (limit hw' p)).sum = (hw'.sta s).spCnt p
  amount : (hw'.sta s).spCnt p = min (if req = 0 then (hw.sta s).pktReady p else req)
    ((dataTxqs s).map (available hw p)).sum
  order : ∀ (i j : ℕ) (k k' : TxqId), i < j → (dataTxqs s)[i]? = some k →
    (dataTxqs s)[j]? = some k' → limit hw' p k' ≠ 0 → limit hw' p k = available hw p k
  listed : ∀ k ∈ dataTxqs s, limit hw' p k ≠ 0 → OnList hw' k
  others : ∀ k, k ∉ dataTxqs s ∨ (hw.txq k).psId ≠ p → hw'.txq k = hw.txq k
  stations : ∀ j, j ≠ s → hw'.sta j = hw.sta j

/-! ## One txq -/

/-- What the dispatch needs of a txq. -/
structure Fit (hw : Hw) (p : PsId) (k : TxqId) : Prop where
  credits : 0 ≤ (hw.txq k).credits ∧ (hw.txq k).credits ≤ 127
  word : (hw.txq k).psId = p → (hw.txq k).skList.length < 2^16
  zero : (hw.txq k).psId = p → (hw.txq k).pushLimit = 0
  linked : (hw.txq k).skList ≠ [] → Linked hw k

variable {hw hw' : Hw} {s : StaId} {p : PsId} {k : TxqId}

theorem Fit.spLen (h : Fit hw p k) (hid : (hw.txq k).psId = p) :
    (hw.txq k).spLen = available hw p k := by
  have hcred := h.credits
  have hword := h.word hid
  unfold Txq.spLen available
  rw [if_pos hid]
  split <;> omega

theorem Fit.congr {j : TxqId} (h : Fit hw p j) (htxq : hw'.txq j = hw.txq j)
    (hlists : ∀ q, j ∈ (hw'.hwq q).list ↔ j ∈ (hw.hwq q).list) : Fit hw' p j := by
  refine ⟨htxq ▸ h.credits, htxq ▸ h.word, htxq ▸ h.zero, fun hne => ?_⟩
  obtain ⟨q, hq, hin⟩ := h.linked (htxq ▸ hne)
  refine ⟨q, htxq ▸ hq, ?_⟩
  rw [hlists q, htxq]
  exact hin

/-- A txq goes to its list, where it may be already. -/
theorem add_linked (h : Linked hw k) : ∃ hw', hw.addToHwList k = some hw' ∧ OnList hw' k ∧
    ∀ q j, j ∈ (hw'.hwq q).list ↔ j ∈ (hw.hwq q).list ∨ (j = k ∧ (hw.txq k).hwq = some q) := by
  obtain ⟨q, hq, hin⟩ := h
  unfold Hw.addToHwList
  by_cases hbit : (hw.txq k).inHwqList = true
  · rw [if_pos hbit]
    refine ⟨hw, rfl, ⟨q, hq, hin.mpr hbit⟩, fun r j => ?_⟩
    constructor
    · exact .inl
    · rintro (hj | ⟨rfl, hr⟩)
      · exact hj
      · obtain rfl := Option.some.inj (hq.symm.trans hr)
        exact hin.mpr hbit
  · have hout : k ∉ (hw.hwq q).list := fun hk => hbit (hin.mp hk)
    simp only [if_neg hbit, hq, dif_neg hout]
    refine ⟨_, rfl, ⟨q, ?_, ?_⟩, fun r j => ?_⟩
    · show (Function.update hw.txq k _ k).hwq = some q
      rw [Function.update_self]
    · show k ∈ (Function.update hw.hwq q _ q).list
      rw [Function.update_self]
      exact List.mem_append_right _ (List.mem_singleton_self k)
    · show j ∈ (Function.update hw.hwq q _ r).list ↔ _
      by_cases hr : r = q
      · subst hr
        rw [Function.update_self]
        simp [Hwq.addTail]
      · rw [Function.update_of_ne hr]
        simp [Ne.symm hr]

/-- A txq gets a limit, its station counts it, and it is listed. -/
structure Granted (hw hw' : Hw) (s : StaId) (p : PsId) (k : TxqId) (n : ℕ) : Prop where
  onList : OnList hw' k
  pushLimit : (hw'.txq k).pushLimit = n
  psId : (hw'.txq k).psId = (hw.txq k).psId
  txqs : ∀ j, j ≠ k → hw'.txq j = hw.txq j
  sta : hw'.sta s = (hw.sta s).grant p n
  stations : ∀ j, j ≠ s → hw'.sta j = hw.sta j
  subset : ∀ q, (hw.hwq q).list ⊆ (hw'.hwq q).list
  lists : ∀ q j, j ≠ k → (j ∈ (hw'.hwq q).list ↔ j ∈ (hw.hwq q).list)

theorem grant_linked (h : Linked hw k) {n : ℕ} (hn : n < 2^8) :
    ∃ hw', (hw.spGrant s p k n).addToHwList k = some hw' ∧ Granted hw hw' s p k n := by
  have hat : (hw.spGrant s p k n).txq k = { hw.txq k with pushLimit := n % 2^8 } :=
    Function.update_self ..
  have hgrant : Linked (hw.spGrant s p k n) k := by
    obtain ⟨q, hq, hin⟩ := h
    refine ⟨q, ?_, ?_⟩
    · rw [hat]
      exact hq
    · rw [hat]
      exact hin
  obtain ⟨hw', hadd, hon, hlists⟩ := add_linked hgrant
  have hch := addToHwList_changes hadd
  refine ⟨hw', hadd, hon, ?_, ?_, ?_, ?_, ?_, ?_, ?_⟩
  · rw [hch.at, hat]
    exact Nat.mod_eq_of_lt hn
  · rw [hch.at, hat]
  · intro j hj
    rw [hch.off hj]
    exact Function.update_of_ne hj ..
  · rw [hch.sta]
    exact Function.update_self ..
  · intro j hj
    rw [hch.sta]
    exact Function.update_of_ne hj ..
  · exact fun q j hj => (hlists q j).mpr (.inl hj)
  · intro q j hj
    rw [hlists q j]
    exact or_iff_left fun hk => hj hk.1

/-! ## The loop -/

/-- What the dispatch does to the txqs that it walks over. -/
structure Spread (hw hw' : Hw) (s : StaId) (p : PsId) (req : ℕ) (ks : List TxqId) : Prop where
  limits : ks.map (limit hw' p) = shares req (ks.map (available hw p))
  count : (hw'.sta s).spCnt p = (hw.sta s).spCnt p+min req (ks.map (available hw p)).sum
  listed : ∀ k ∈ ks, limit hw' p k ≠ 0 → OnList hw' k
  others : ∀ k, k ∉ ks ∨ (hw.txq k).psId ≠ p → hw'.txq k = hw.txq k
  stations : ∀ j, j ≠ s → hw'.sta j = hw.sta j
  lists : ∀ q, (hw.hwq q).list ⊆ (hw'.hwq q).list

theorem available_congr {j : TxqId} (h : hw'.txq j = hw.txq j) :
    available hw' p j = available hw p j := by
  rw [available, available, h]

theorem limit_congr {j : TxqId} (h : hw'.txq j = hw.txq j) : limit hw' p j = limit hw p j := by
  rw [limit, limit, h]

theorem spread_nil (req : ℕ) : Spread hw hw s p req [] where
  limits := rfl
  count := by rw [List.map_nil, List.sum_nil, Nat.min_zero, Nat.add_zero]
  listed _ hk := absurd hk List.not_mem_nil
  others _ _ := rfl
  stations _ _ := rfl
  lists _ := List.Subset.refl _

/-- Nothing is left to be shared out. -/
theorem spread_zero {ks : List TxqId} (h : ∀ k ∈ ks, limit hw p k = 0) :
    Spread hw hw s p 0 ks where
  limits := by
    rw [shares_zero, List.map_map]
    exact List.map_congr_left h
  count := by rw [Nat.zero_min, Nat.add_zero]
  listed k hk hne := absurd (h k hk) hne
  others _ _ := rfl
  stations _ _ := rfl
  lists _ := List.Subset.refl _

/-- A txq that is passed over. -/
theorem Spread.skip {req : ℕ} {ks : List TxqId} (h : Spread hw hw' s p req ks) (hk : k ∉ ks)
    (hzero : limit hw p k = 0) (hnone : available hw p k = 0) : Spread hw hw' s p req (k::ks) := by
  have hsame : hw'.txq k = hw.txq k := h.others k (.inl hk)
  have hlimit : limit hw' p k = 0 := (limit_congr hsame).trans hzero
  constructor
  · rw [List.map_cons, List.map_cons, shares, hnone, hlimit, Nat.min_zero, Nat.sub_zero, h.limits]
  · rw [List.map_cons, List.sum_cons, hnone, Nat.zero_add, h.count]
  · intro j hj hne
    rcases List.mem_cons.mp hj with rfl | hj
    · exact absurd hlimit hne
    · exact h.listed j hj hne
  · intro j hj
    rcases hj with hj | hj
    · exact h.others j (.inl fun hmem => hj (List.mem_cons_of_mem k hmem))
    · exact h.others j (.inr hj)
  · exact h.stations
  · exact h.lists

/-- A txq that gets its part before the others. -/
theorem Spread.cons {hw₁ : Hw} {req n : ℕ} {ks : List TxqId} (h : Spread hw₁ hw' s p (req-n) ks)
    (hk : k ∉ ks) (hid : (hw.txq k).psId = p) (hg : Granted hw hw₁ s p k n)
    (hn : n = min req (available hw p k)) (hword : (hw.sta s).spCnt p+n < 2^16) :
    Spread hw hw' s p req (k::ks) := by
  have hsame : hw'.txq k = hw₁.txq k := h.others k (.inl hk)
  have hne : ∀ j ∈ ks, j ≠ k := by
    rintro j hj rfl
    exact hk hj
  have hrest : ks.map (available hw₁ p) = ks.map (available hw p) :=
    List.map_congr_left fun j hj => available_congr (hg.txqs j (hne j hj))
  have hlimit : limit hw' p k = n := by
    rw [limit_congr hsame, limit, if_pos (hg.psId.trans hid), hg.pushLimit]
  have hcnt : (hw₁.sta s).spCnt p = (hw.sta s).spCnt p+n := by
    rw [hg.sta]
    exact (Function.update_self ..).trans (Nat.mod_eq_of_lt hword)
  constructor
  · have hleft : req-n = req-available hw p k := by omega
    rw [List.map_cons, List.map_cons, shares, hlimit, h.limits, hrest, hleft, hn]
  · rw [List.map_cons, List.sum_cons, h.count, hcnt, hrest]
    omega
  · intro j hj hne'
    rcases List.mem_cons.mp hj with rfl | hj
    · obtain ⟨q, hq, hmem⟩ := hg.onList
      exact ⟨q, hsame ▸ hq, h.lists q hmem⟩
    · exact h.listed j hj hne'
  · intro j hj
    have hjk : j ≠ k := by
      rintro rfl
      rcases hj with hj | hj
      · exact hj List.mem_cons_self
      · exact hj hid
    rw [← hg.txqs j hjk]
    rcases hj with hj | hj
    · exact h.others j (.inl fun hmem => hj (List.mem_cons_of_mem k hmem))
    · exact h.others j (.inr (hg.txqs j hjk ▸ hj))
  · exact fun j hj => (h.stations j hj).trans (hg.stations j hj)
  · exact fun q => List.Subset.trans (hg.subset q) (h.lists q)

/-- The limits that the txqs have before are none. -/
theorem Fit.limit (h : Fit hw p k) : limit hw p k = 0 := by
  unfold TxqServicePeriod.limit
  split
  · rename_i hid
    exact h.zero hid
  · rfl

theorem available_le (hcred : (hw.txq k).credits ≤ 127) : available hw p k < 2^8 := by
  unfold available
  split <;> omega

theorem dispatch_spread {req : ℕ} {ks : List TxqId} (hreq : 0 < req)
    (hword : (hw.sta s).spCnt p+req < 2^16) (hnodup : ks.Nodup) (hfit : ∀ k ∈ ks, Fit hw p k) :
    ∃ hw', Hw.dispatch s p hw req ks = some hw' ∧ Spread hw hw' s p req ks := by
  induction ks generalizing hw req with
  | nil => exact ⟨hw, rfl, spread_nil req⟩
  | cons k ks ih =>
    obtain ⟨hk, hnodup⟩ := List.nodup_cons.mp hnodup
    have hfitk := hfit k List.mem_cons_self
    have hrest : ∀ j ∈ ks, Fit hw p j := fun j hj => hfit j (List.mem_cons_of_mem k hj)
    have hne : ∀ j ∈ ks, j ≠ k := by
      rintro j hj rfl
      exact hk hj
    unfold Hw.dispatch
    dsimp only
    split
    · -- the txq is of the other kind, or has nothing to send
      rename_i hskip
      obtain ⟨hw', hs, hspread⟩ := ih hreq hword hnodup hrest
      refine ⟨hw', hs, hspread.skip hk hfitk.limit ?_⟩
      by_cases hid : (hw.txq k).psId = p
      · rw [← hfitk.spLen hid]
        exact hskip.resolve_left (not_not_intro hid)
      · exact if_neg hid
    · rename_i hgo
      push Not at hgo
      have hlen := hfitk.spLen hgo.1
      have hav := available_le (p := p) hfitk.credits.2
      have hlinked : Linked hw k := by
        apply hfitk.linked
        intro hnil
        apply hgo.2
        rw [hlen, available, if_pos hgo.1, hnil, List.length_nil, Nat.zero_min]
      rw [hlen] at hgo ⊢
      split
      · -- it is emptied, and the others get the rest
        rename_i hlt
        obtain ⟨hw₁, hs₁, hg⟩ := grant_linked (s := s) (p := p) hlinked hav
        have hcnt : (hw₁.sta s).spCnt p = (hw.sta s).spCnt p+available hw p k := by
          rw [hg.sta]
          exact (Function.update_self ..).trans (Nat.mod_eq_of_lt (by omega))
        have hnext : ∀ j ∈ ks, Fit hw₁ p j := fun j hj =>
          (hrest j hj).congr (hg.txqs j (hne j hj)) fun q => hg.lists q j (hne j hj)
        obtain ⟨hw', hs, hspread⟩ : ∃ hw', Hw.dispatch s p hw₁ (req-available hw p k) ks = some hw' ∧
            Spread hw₁ hw' s p (req-available hw p k) ks :=
          ih (by omega) (by omega) hnodup hnext
        rw [hs₁]
        exact ⟨hw', hs, hspread.cons hk hgo.1 hg (Nat.min_eq_right hlt.le).symm (by omega)⟩
      · -- it takes all that is left
        rename_i hle
        obtain ⟨hw₁, hs₁, hg⟩ := grant_linked (s := s) (p := p) hlinked (n := req) (by omega)
        have hnone : ∀ j ∈ ks, limit hw₁ p j = 0 := fun j hj =>
          (limit_congr (hg.txqs j (hne j hj))).trans (hrest j hj).limit
        have hspread : Spread hw₁ hw₁ s p (req-req) ks := by
          rw [Nat.sub_self]
          exact spread_zero hnone
        exact ⟨hw₁, hs₁, hspread.cons hk hgo.1 hg (Nat.min_eq_left (not_lt.mp hle)).symm (by omega)⟩

/-! ## The station -/

theorem dataTxqs_owner (hk : k ∈ dataTxqs s) : k ∈ s.txqs := by
  cases s with
  | unicast i =>
    obtain ⟨tid, -, rfl⟩ := List.mem_map.mp hk
    exact mem_txqs_iff.mpr (txqGet_owner _ tid)
  | multicast vif => exact hk

theorem dataTxqs_nodup (s : StaId) : (dataTxqs s).Nodup := by
  cases s with
  | unicast i => exact prio_nodup i
  | multicast vif => exact List.nodup_singleton _

theorem available_le_share (hw : Hw) (p : PsId) (k : TxqId) :
    available hw p k ≤ share Txq.psId (fun t => t.skList.length) p (hw.txq k) := by
  unfold available share
  split
  · exact Nat.min_le_left ..
  · exact le_rfl

theorem Waiting.available_le (h : Waiting hw s p) :
    ((dataTxqs s).map (available hw p)).sum ≤ (hw.sta s).pktReady p := by
  obtain ⟨l, hperm, hsub⟩ := (dataTxqs_nodup s).subperm fun _ => dataTxqs_owner
  calc ((dataTxqs s).map (available hw p)).sum
      = (l.map (available hw p)).sum := ((hperm.map _).sum_eq).symm
    _ ≤ (s.txqs.map (available hw p)).sum :=
        (hsub.map _).sum_le_sum fun _ _ => Nat.zero_le _
    _ ≤ total hw s p := List.sum_le_sum fun k _ => available_le_share hw p k
    _ = (hw.sta s).pktReady p := (h.accounts.ready p).symm

theorem Waiting.fit (h : Waiting hw s p) (hk : k ∈ dataTxqs s) : Fit hw p k := by
  refine ⟨h.credits k hk, fun hid => ?_, fun hid => ?_, h.linked k hk⟩
  · have hle := h.accounts.length_le_pktReady (dataTxqs_owner hk)
    rw [hid] at hle
    exact hle.trans_lt h.word
  · have hle := h.accounts.limit_le_spCnt (dataTxqs_owner hk)
    rw [hid, h.idle] at hle
    exact Nat.le_zero.mp hle

theorem Waiting.spStarts (h : Waiting hw s p) : hw.spStarts s p ↔ 0 < (hw.sta s).pktReady p := by
  unfold Hw.spStarts Hw.readyAll
  rw [h.asleep, h.idle]
  constructor
  · rintro ⟨-, -, hpos⟩
    omega
  · exact fun hpos => ⟨rfl, rfl, by omega⟩

theorem Waiting.adaptReq (h : Waiting hw s p) (req : ℕ) : hw.adaptReq s p req =
    if req = 0 ∨ (hw.sta s).pktReady p < req then (hw.sta s).pktReady p else req := by
  unfold Hw.adaptReq Hw.readyAll
  rw [h.idle, Nat.cast_zero, sub_zero, Int.toNat_natCast]
  simp only [Nat.cast_lt]

/-- What is spread over the txqs is what is requested. -/
theorem Spread.dispatched {req : ℕ} (h : Spread hw hw' s p (hw.adaptReq s p req) (dataTxqs s))
    (hw₀ : Waiting hw s p) : Dispatched hw hw' s p req := by
  have hcnt := h.count
  rw [hw₀.idle, Nat.zero_add] at hcnt
  constructor
  · rw [h.limits, sum_shares, hcnt]
  · have hle := hw₀.available_le
    rw [hcnt, hw₀.adaptReq]
    split_ifs <;> omega
  · intro i j k k' hij hk hk' hne
    have hlim : ∀ {n : ℕ} {m : TxqId}, (dataTxqs s)[n]? = some m →
        (shares (hw.adaptReq s p req) ((dataTxqs s).map (available hw p)))[n]? =
          some (limit hw' p m) := by
      intro n m hm
      rw [← h.limits, List.getElem?_map, hm, Option.map_some]
    have hj : j < ((dataTxqs s).map (available hw p)).length := by
      rw [List.length_map]
      exact (List.getElem?_eq_some_iff.mp hk').1
    have hserved : (shares (hw.adaptReq s p req) ((dataTxqs s).map (available hw p)))[i]? =
        ((dataTxqs s).map (available hw p))[i]? :=
      served_before hij (fun hno => hne (Option.some.inj ((hlim hk').symm.trans hno))) hj
    rw [hlim hk, List.getElem?_map, hk, Option.map_some] at hserved
    exact Option.some.inj hserved
  · exact h.listed
  · exact h.others
  · exact h.stations

/-- There is nothing to dispatch. -/
theorem Waiting.nothing (h : Waiting hw s p) (hready : (hw.sta s).pktReady p = 0) (req : ℕ) :
    Dispatched hw hw s p req := by
  have hnone : ∀ k ∈ dataTxqs s, limit hw p k = 0 := fun k hk => (h.fit hk).limit
  have hle := h.available_le
  constructor
  · rw [h.idle]
    apply List.sum_eq_zero
    intro n hn
    obtain ⟨k, hk, rfl⟩ := List.mem_map.mp hn
    exact hnone k hk
  · rw [h.idle]
    omega
  · exact fun i j k k' _ _ hk' hne => absurd (hnone k' (List.mem_of_getElem? hk')) hne
  · exact fun k hk hne => absurd (hnone k hk) hne
  · exact fun _ _ => rfl
  · exact fun _ _ => rfl

/-- The txq of group addressed frames takes the whole request, within its credits. -/
theorem Waiting.dispatchMulticast {vif req : ℕ} (h : Waiting hw (.multicast vif) p)
    (hpos : 0 < (hw.sta (.multicast vif)).pktReady p)
    (hreq : req ≤ (hw.sta (.multicast vif)).pktReady p) :
    ∃ hw', hw.dispatchMulticast vif p req = some hw' ∧
      Spread hw hw' (.multicast vif) p req (dataTxqs (.multicast vif)) := by
  have hmem : TxqId.bcmc vif ∈ dataTxqs (.multicast vif) := List.mem_singleton_self _
  have hfit := h.fit hmem
  have hready := h.accounts.ready p
  rw [group_total] at hready
  have hid : (hw.txq (.bcmc vif)).psId = p := by
    by_contra hno
    rw [share_ne hno] at hready
    omega
  rw [share_eq hid] at hready
  have hlinked : Linked hw (.bcmc vif) := by
    apply hfit.linked
    intro hnil
    rw [hnil, List.length_nil] at hready
    omega
  have hcred := hfit.credits
  unfold Hw.dispatchMulticast
  extract_lets k s n
  have hn : n = min req (available hw p (.bcmc vif)) := by
    show (if (hw.txq (.bcmc vif)).credits < req then
      ((hw.txq (.bcmc vif)).credits % 2^16).toNat else req) = _
    rw [available, if_pos hid]
    split <;> omega
  have hav := TxqServicePeriod.available_le (p := p) hcred.2
  have hsame := spGrant_idle (s := s) (n := n) hw k h.idle (by omega)
  obtain ⟨hw', hs, hg⟩ := grant_linked (s := s) (p := p) (n := n) hlinked (by omega)
  rw [← hsame]
  have hend : Spread hw' hw' s p (req-n) [] := spread_nil _
  refine ⟨hw', hs, hend.cons List.not_mem_nil hid hg hn ?_⟩
  rw [h.idle]
  omega

/-! ## Runs -/

/-- In the runs in which the checks hold and the counters agree, a sleeping station without a
service period is as the dispatch needs it. -/
theorem run_waiting {acts : List Act} (hacc : Meets step Accountable init acts)
    (hord : Meets step Orderly init acts) (hrun : exec step init acts = some hw)
    (hps : (hw.sta s).psActive = true) (hidle : (hw.sta s).spCnt p = 0) : Waiting hw s p := by
  have hsound := (run_sound hacc hrun).1
  have hsched : Sched hw := by
    refine exec_invariant (fun hw a t ho hs hi => ?_) init_sched hord hrun
    obtain ⟨u, hu, hsched⟩ := step_sched ho hi
    rwa [Option.some.inj (hs.symm.trans hu)]
  have hledger := hsound.ledger s hps
  refine ⟨hps, hledger.toAccounts, hledger.word p, hidle, fun k _ => ?_, fun k _ hne => ?_⟩
  · have hcred := (hsound.entry k).credits
    exact ⟨hcred.1, Int.le_of_lt_add_one hcred.2⟩
  · have hact : (hw.txq k).active = true := by
      by_contra hno
      exact hne ((hsched.txqs k).idle (Bool.eq_false_iff.mpr hno))
    have hhome := (hsched.txqs k).housed hact
    exact ⟨k.home, hhome, (hsched.lists k.home k).trans (and_iff_left hhome)⟩

/-- Three buffers wait for a sleeping station, two of them on the txq of higher priority. -/
def asleepRun : List Act :=
  [.smConnectInd 0 0 ∅ false, .psBhEnable (.unicast 0) true,
    .xmit (.sta (.unicast 0) 0) false false, .xmit (.sta (.unicast 0) 5) false false,
    .xmit (.sta (.unicast 0) 5) false false]

end AIC.TxqServicePeriod
