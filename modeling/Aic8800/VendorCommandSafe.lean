import Aic8800.VendorCommand
import Mathlib.Data.List.GetD

/-!
# When a vendor command is safe

Each loop owns what its state has to give back. The handlers without allocations in their loop are
safe as far as their attributes are; a packet that a second one replaces is lost.
-/

set_option autoImplicit false

namespace AIC.VendorCommand
open Lib.ByteText Lib.ResourceRun

section Strings

variable {l : List UInt8}

theorem strEnd_le (n : ℕ) : strEnd l ≤ n ∧ strEnd l ≤ l.length ↔ 0 ∈ l.take n := by
  unfold strEnd cString
  induction l generalizing n with
  | nil => simp
  | cons b l ih =>
    cases n with
    | zero => simp
    | succ n =>
      by_cases hb : b = 0
      · simp [hb]
      · have hrest := ih n
        simp only [List.takeWhile_cons, bne_iff_ne, ne_eq, hb, not_false_eq_true, if_true,
          List.length_cons, List.take_succ_cons, List.mem_cons, Ne.symm hb, false_or]
        rw [← hrest]
        omega

theorem strEnd_le_length : strEnd l ≤ l.length ↔ 0 ∈ l := by
  have h := strEnd_le (l := l) l.length
  rwa [and_self, List.take_length] at h

end Strings

/-! ## Events -/

section Events

variable {d : Device} {h h' : List Ptr} {es : List Event} {p : Ptr} {n : ℕ}

@[simp] theorem clean_alloc : Clean (Allowed d) Event.change h h' (.alloc p::es) ↔
    Clean (Allowed d) Event.change (p::h) h' es := by
  have hc : (Event.alloc p).change = .take p := rfl
  rw [clean_take hc]
  exact and_iff_right trivial

theorem clean_free (hp : p ∈ h) : Clean (Allowed d) Event.change h h' (.free p::es) ↔
    Clean (Allowed d) Event.change (h.erase p) h' es := by
  have hc : (Event.free p).change = .give p := rfl
  rw [clean_give hc hp]
  exact and_iff_right trivial

@[simp] theorem clean_free_last : Clean (Allowed d) Event.change (p::h) h' (.free p::es) ↔
    Clean (Allowed d) Event.change h h' es := by
  rw [clean_free List.mem_cons_self, List.erase_cons_head]

@[simp] theorem clean_reply : Clean (Allowed d) Event.change (.reply n::h) h' (.reply n::es) ↔
    Clean (Allowed d) Event.change h h' es := by
  have hc : (Event.reply n).change = .give (.reply n) := rfl
  rw [clean_give hc List.mem_cons_self, List.erase_cons_head]
  exact and_iff_right trivial

@[simp] theorem clean_read {upTo size : ℕ} :
    Clean (Allowed d) Event.change h h' (.read upTo size::es) ↔
      upTo ≤ size ∧ Clean (Allowed d) Event.change h h' es := by
  have hc : (Event.read upTo size).change = .keep := rfl
  exact clean_keep hc

@[simp] theorem clean_write {upTo size : ℕ} :
    Clean (Allowed d) Event.change h h' (.write upTo size::es) ↔
      upTo ≤ size ∧ Clean (Allowed d) Event.change h h' es := by
  have hc : (Event.write upTo size).change = .keep := rfl
  exact clean_keep hc

@[simp] theorem clean_use {isSet : Bool} :
    Clean (Allowed d) Event.change h h' (.use isSet::es) ↔
      isSet = true ∧ Clean (Allowed d) Event.change h h' es := by
  have hc : (Event.use isSet).change = .keep := rfl
  exact clean_keep hc

@[simp] theorem clean_put {type : ℕ} {v : Payload} :
    Clean (Allowed d) Event.change h h' (.put type v::es) ↔
      Allowed d (.put type v) ∧ Clean (Allowed d) Event.change h h' es := by
  have hc : (Event.put type v).change = .keep := rfl
  exact clean_keep hc

@[simp] theorem clean_done : Clean (Allowed d) Event.change h h' [] ↔ h = h' := clean_nil

/-- Every allocation is given back exactly once. -/
theorem safe_freed (hes : Safe d es) (p : Ptr) :
    es.countP (fun e => e.change = .take p) = es.countP fun e => e.change = .give p := by
  have hcount := held_count p hes.balance
  simpa using hcount

end Events

/-! ## Replies -/

section Replies

variable {d : Device} {k : Kernel} {n : ℕ} {attrs : List (ℕ × Payload)} {h : List Ptr}

def putEvents (attrs : List (ℕ × Payload)) : List Event := attrs.map fun p => .put p.1 p.2

variable (k n) in
/-- All attributes are put, or some of them before one that fails. -/
theorem putAll_cases (j : ℕ) (attrs : List (ℕ × Payload)) :
    (∃ done, done <+: attrs ∧ putAll k n j attrs = (putEvents done, .putFailed)) ∨
      putAll k n j attrs = (putEvents attrs++[.reply n], .sent (k.send n)) := by
  induction attrs generalizing j with
  | nil => exact .inr rfl
  | cons p attrs ih =>
    obtain ⟨type, v⟩ := p
    rw [putAll]
    by_cases hput : k.put n j = true
    · rw [if_pos hput]
      rcases ih (j+1) with ⟨done, hdone, hrun⟩ | hrun
      · exact .inl ⟨(type, v)::done, List.cons_prefix_cons.mpr ⟨rfl, hdone⟩, by rw [hrun]; rfl⟩
      · exact .inr (by rw [hrun]; rfl)
    · rw [if_neg hput]
      exact .inl ⟨[], List.nil_prefix, rfl⟩

theorem putEvents_keep : ∀ e ∈ putEvents attrs, e.change = .keep := by
  intro e he
  obtain ⟨p, -, rfl⟩ := List.mem_map.mp he
  rfl

/-- A handler that only replies is safe if what it puts is right. -/
theorem replyOnly_safe (hputs : ∀ e ∈ putEvents attrs, Allowed d e) :
    Safe d (replyOnly k attrs).1 := by
  unfold Safe replyOnly sendReply
  by_cases hreply : k.reply 0 = true
  · rw [if_pos hreply]
    rcases putAll_cases k 0 0 attrs with ⟨done, hdone, hrun⟩ | hrun
    · rw [hrun]
      have hheld : held Event.change [.reply 0] (putEvents done) = some [.reply 0] :=
        held_keep putEvents_keep
      have hall : ∀ e ∈ putEvents done, Allowed d e := fun e he =>
        hputs e ((hdone.map _).subset he)
      have hend : Clean (Allowed d) Event.change [.reply 0] [] [.free (.reply 0)] := by simp
      exact clean_alloc.mpr ((clean_append hheld).mpr ⟨hall, hend⟩)
    · rw [hrun]
      have hheld : held Event.change [.reply 0] (putEvents attrs) = some [.reply 0] :=
        held_keep putEvents_keep
      have hend : Clean (Allowed d) Event.change [.reply 0] [] [.reply 0] := by simp
      exact clean_alloc.mpr ((clean_append hheld).mpr ⟨hputs, hend⟩)
  · rw [if_neg hreply]
    exact clean_nil.mpr rfl

end Replies

/-! ## Loops without allocations -/

section Plain

variable {d : Device} {attrs : List Attr} {σ ρ : Type*} {step : σ → Attr → List Event × (σ ⊕ ρ)}
  {after : σ → List Event × ρ}

variable (d) in
/-- A loop that allocates nothing. -/
theorem plain_loop_iff (Fine : σ → List Attr → Prop) (Inv : σ → Prop) (Reached : Attr → Prop)
    (hafter : ∀ s, Inv s → (Safe d (after s).1 ↔ Fine s []))
    (hstop : ∀ s a as es r, Inv s → Reached a → step s a = (es, .inr r) →
      (Safe d es ↔ Fine s (a::as)))
    (hnext : ∀ s a as es s', Inv s → Reached a → step s a = (es, .inl s') → Inv s' ∧
      (∀ e ∈ es, e.change = .keep) ∧
      (Fine s (a::as) ↔ (∀ e ∈ es, Allowed d e) ∧ Fine s' as))
    {s : σ} (hs : Inv s) (has : ∀ a ∈ attrs, Reached a) :
    Safe d (loop step after s attrs).1 ↔ Fine s attrs := by
  refine loop_clean_iff (fun _ => []) Fine Inv Reached hafter hstop ?_ hs has
  intro s a as es s' hs ha hstep
  obtain ⟨hs', hkeep, hfine⟩ := hnext s a as es s' hs ha hstep
  exact ⟨hs', .inl ⟨held_keep hkeep, hfine⟩⟩

theorem safe_nil : Safe d [] := clean_nil.mpr rfl

theorem stop_safe (has : ∀ a ∈ attrs, (aicwfCfg80211MkeepAlivePolicy a.type).allows a.len = true) :
    Safe d (aicwfVendorStopMkeepAlive d attrs).1 := by
  refine (plain_loop_iff d (fun _ _ => True) (fun _ => True)
    (fun a => (aicwfCfg80211MkeepAlivePolicy a.type).allows a.len = true) ?_ ?_ ?_ trivial has).mpr
    trivial
  · exact fun _ _ => iff_of_true safe_nil trivial
  · intro id a as es r _ _ hs
    unfold stopStep at hs
    split at hs <;> cases hs
  · intro id a as es s' _ ha hs
    unfold stopStep at hs
    split at hs
    · rename_i ht
      cases hs
      have hlen : a.len = 1 := by simpa [aicwfCfg80211MkeepAlivePolicy, ht, Policy.allows] using ha
      exact ⟨trivial, by simp [Event.change], by simp [Allowed, hlen]⟩
    · cases hs
      exact ⟨trivial, by simp, by simp⟩

theorem mac_safe (has : ∀ a ∈ attrs, (aicwfCfg80211SubcmdSetMacPolicy a.type).allows a.len = true) :
    Safe d (aicwfVendorSubCmdSetMac attrs).1 := by
  refine (plain_loop_iff d (fun _ _ => True) (fun _ => True)
    (fun a => (aicwfCfg80211SubcmdSetMacPolicy a.type).allows a.len = true) ?_ ?_ ?_ trivial
    has).mpr trivial
  · exact fun _ _ => iff_of_true safe_nil trivial
  · intro _ a as es r _ _ hs
    unfold macStep at hs
    split_ifs at hs with ht
    · cases hs
    · cases hs
      exact iff_of_true safe_nil trivial
  · intro _ a as es s' _ ha hs
    unfold macStep at hs
    split_ifs at hs with ht
    · cases hs
      have hlen : ETH_ALEN ≤ a.len := by
        simpa [aicwfCfg80211SubcmdSetMacPolicy, ht, Policy.allows, ETH_ALEN] using ha
      exact ⟨trivial, by simp [Event.change], by simp [Allowed, hlen]⟩
    · cases hs

theorem country_safe_iff :
    Safe d (aicwfVendorSubcmdSetCountryCode attrs).1 ↔ CountryFine attrs := by
  refine plain_loop_iff d (fun _ as => CountryFine as) (fun _ => True) (fun _ => True)
    ?_ ?_ ?_ trivial fun _ _ => trivial
  · exact fun _ _ => iff_of_true safe_nil trivial
  · intro _ a as es r _ _ hs
    unfold countryStep at hs
    split_ifs at hs with ha
    · cases hs
    · cases hs
      exact iff_of_true safe_nil fun h => absurd h ha
  · intro _ a as es s' _ _ hs
    unfold countryStep at hs
    split_ifs at hs with ha
    · cases hs
      refine ⟨trivial, by simp [Event.change], ?_⟩
      simp only [CountryFine, ha, forall_const, List.mem_singleton, forall_eq, Allowed]
      rw [Attr.len, strEnd_le_length]
    · cases hs

theorem ring_safe_iff (words : List LoggerAttribute)
    (hwords : ∀ t ∈ words, t ≠ .driverVer ∧ t ≠ .fwVer)
    (has : ∀ a ∈ attrs, (aicwfCfg80211LoggerPolicy a.type).allows a.len = true) :
    Safe d (loop (ringStep words) ringAfter none attrs).1 ↔ RingFine words false attrs := by
  refine plain_loop_iff d (fun (s : Option (List UInt8)) as => RingFine words s.isSome as)
    (fun _ => True) (fun a => (aicwfCfg80211LoggerPolicy a.type).allows a.len = true) ?_ ?_ ?_ trivial has
  · intro s _
    simp [Safe, ringAfter, RingFine]
  · intro s a as es r _ _ hs
    unfold ringStep at hs
    split at hs
    · rename_i ht
      cases hs
      exact iff_of_true safe_nil (by simp [RingFine, ht])
    · rename_i t ht
      split_ifs at hs with hname hword
      · cases hs
      · cases hs
      · cases hs
        exact iff_of_true safe_nil (by simp [RingFine, ht, hname, hword])
  · intro s a as es s' _ ha hs
    unfold ringStep at hs
    split at hs
    · cases hs
    · rename_i t ht
      split_ifs at hs with hname hword
      · cases hs
        refine ⟨trivial, by simp [Event.change], ?_⟩
        simp only [RingFine, ht, hname, Option.some.injEq, forall_eq', if_true, Option.isSome_some]
        rw [← strEnd_le]
        simp [Allowed, Attr.len, and_comm]
      · cases hs
        obtain ⟨hdriver, hfw⟩ := hwords t hword
        have hlen : a.len = 4 := by
          cases t <;> simp_all [aicwfCfg80211LoggerPolicy, Policy.allows]
        exact ⟨trivial, by simp [Event.change], by simp [RingFine, ht, hname, hword, Allowed, hlen]⟩
      · cases hs

/-- A firmware text without an end is left with the end of the banner, if that was there before. -/
theorem ver_safe_iff (k : Kernel) : Safe d (aicwfVendorGetVer d k attrs).1 ↔ VerFine d attrs := by
  have hrule : Safe d (aicwfVendorGetVer d k attrs).1 ↔ 0 ∈ d.fwVersion ∨
      0 ∈ (VerState.mk [] 0 none).version.drop 32 ∨
      ∀ a as, attrs = a::as → LoggerAttribute.ofType a.type ≠ some .fwVer := by
    refine plain_loop_iff d (fun (s : VerState) as => 0 ∈ d.fwVersion ∨ 0 ∈ s.version.drop 32 ∨
      ∀ a as', as = a::as' → LoggerAttribute.ofType a.type ≠ some .fwVer) (fun _ => True)
      (fun _ => True) ?_ ?_ ?_ trivial fun _ _ => trivial
    · intro s _
      refine iff_of_true ?_ (.inr (.inr fun a as' h => by cases h))
      unfold verAfter
      cases s.attr with
      | none => exact safe_nil
      | some attr => exact replyOnly_safe (by simp [putEvents, Allowed])
    · intro s a as es r _ _ hs
      unfold verStep at hs
      split at hs
      · cases hs
      · cases hs
      · rename_i hdriver hfw
        cases hs
        refine iff_of_true safe_nil (.inr (.inr fun b bs h => ?_))
        cases h
        exact hfw
    · intro s a as es s' _ _ hs
      unfold verStep at hs
      split at hs
      · rename_i ht
        cases hs
        have hend : 0 ∈ RWNX_VERS_BANNER.drop 32 := by decide
        have hmem : 0 ∈ RWNX_VERS_BANNER := by decide
        have hlen : RWNX_VERS_BANNER.length = 36 := by decide
        refine ⟨trivial, by simp [Event.change],
          iff_of_true (.inr (.inr fun b bs h => ?_)) ⟨?_, ?_⟩⟩
        · cases h
          simp [ht]
        · simp [Allowed, hmem, hlen]
        · rw [List.drop_append_of_le_length (by omega)]
          exact .inr (.inl (List.mem_append_left _ hend))
      · rename_i ht
        cases hs
        have hkept : (d.fwVersion++s.version.drop d.fwVersion.length).drop 32 =
            s.version.drop 32 := by
          rw [d.fwVersionSize, List.drop_append_of_le_length d.fwVersionSize.ge,
            List.drop_of_length_le d.fwVersionSize.le, List.nil_append]
        refine ⟨trivial, by simp [Event.change], ?_⟩
        simp only [hkept]
        simp [Allowed, d.fwVersionSize, ht]
        tauto
      · cases hs
  rw [hrule]
  simp [VerFine]

end Plain

/-! ## The list of channels -/

section Channels

variable {d : Device} {k : Kernel} {attrs : List Attr}

theorem fill_keep {b : Band} {num start count : ℕ} :
    ∀ e ∈ fillEvents b num start count, e.change = .keep := by
  intro e he
  obtain ⟨i, -, hi⟩ := List.mem_flatMap.mp he
  simp only [List.mem_cons, List.not_mem_nil, or_false] at hi
  rcases hi with rfl | rfl <;> rfl

/-- A loop over channels stays inside if its last turn does. -/
theorem fill_allowed {b : Band} {num start count : ℕ} (hnum : start+count ≤ num) :
    (∀ e ∈ fillEvents b num start count, Allowed d e) ↔
      (count ≠ 0 → start+count ≤ b.table.length) := by
  constructor
  · intro h hcount
    have hlast := h (.read (start+count-1+1) b.table.length)
      (List.mem_flatMap.mpr ⟨start+count-1, List.mem_range'_1.mpr (by omega), List.mem_cons_self⟩)
    have hin : start+count-1+1 ≤ b.table.length := hlast
    omega
  · intro h e he
    obtain ⟨i, hi, he⟩ := List.mem_flatMap.mp he
    have hrange := List.mem_range'_1.mp hi
    have hin := h (by omega)
    simp only [List.mem_cons, List.not_mem_nil, or_false] at he
    rcases he with rfl | rfl
    · exact (by omega : i+1 ≤ b.table.length)
    · exact (by omega : i+1 ≤ num)

theorem deviceFill_keep : ∀ e ∈ d.fill, e.change = .keep := by
  intro e he
  unfold Device.fill at he
  rcases List.mem_append.mp he with he | he
  · exact fill_keep e he
  · split at he
    · exact fill_keep e he
    · exact absurd he List.not_mem_nil

theorem deviceFill_allowed : (∀ e ∈ d.fill, Allowed d e) ↔
    (d.band5gSupport = true → d.band5GHz.nChannels ≠ 0 →
      d.band2GHz.nChannels+d.band5GHz.nChannels ≤ d.band5GHz.table.length) := by
  have hfirst : ∀ e ∈ fillEvents d.band2GHz d.numChannels 0 d.band2GHz.nChannels, Allowed d e := by
    refine (fill_allowed ?_).mpr fun _ => ?_
    · rw [Device.numChannels]
      omega
    · rw [Nat.zero_add]
      exact d.band2GHz.holds
  unfold Device.fill
  rw [List.forall_mem_append, and_iff_right hfirst]
  by_cases h5 : d.band5gSupport = true
  · rw [if_pos h5, fill_allowed (by rw [Device.numChannels, if_pos h5])]
    exact ⟨fun h _ => h, fun h => h h5⟩
  · rw [if_neg h5]
    exact iff_of_true (fun e he => absurd he List.not_mem_nil) fun h => absurd h h5

theorem served_loop_iff : Clean (Allowed d) Event.change [.channelList] []
    (loop (listStep d k) listAfter (0, 0) attrs).1 ↔ Served d k 0 attrs := by
  refine loop_clean_iff (fun _ => [Ptr.channelList]) (fun (s : ℕ × ℤ) as => Served d k s.1 as)
    (fun _ => True) (fun _ => True) ?_ ?_ ?_ trivial fun _ _ => trivial
  · intro s _
    simp [listAfter, Served]
  · rintro ⟨n, ret⟩ a as es r _ _ hs
    unfold listStep sendReply at hs
    by_cases ha : a.type = GSCAN_ATTRIBUTE_BAND
    · cases hreply : k.reply n <;> cases h0 : k.put n 0 <;> cases h1 : k.put n 1 <;>
        simp only [ha, hreply, h0, h1, putAll, if_true, if_false, Bool.false_eq_true,
          Prod.mk.injEq, reduceCtorEq, and_false, List.nil_append, List.cons_append] at hs
      all_goals
        obtain ⟨rfl, -⟩ := hs
        simp [Served, ha, hreply, h0, h1, clean_free, Allowed]
    · rw [if_neg ha] at hs
      cases hs
      simp [Served, ha]
  · rintro ⟨n, ret⟩ a as es ⟨n', ret'⟩ _ _ hs
    unfold listStep sendReply at hs
    by_cases ha : a.type = GSCAN_ATTRIBUTE_BAND
    · cases hreply : k.reply n <;> cases h0 : k.put n 0 <;> cases h1 : k.put n 1 <;>
        simp only [ha, hreply, h0, h1, putAll, if_true, if_false, Bool.false_eq_true,
          Prod.mk.injEq, reduceCtorEq, and_false, Sum.inl.injEq] at hs
      obtain ⟨rfl, rfl, -⟩ := hs
      have hheld : held Event.change [Ptr.channelList]
          [.alloc (.reply n), .put GSCAN_ATTRIBUTE_NUM_CHANNELS (.word d.numChannels),
            .put GSCAN_ATTRIBUTE_CHANNEL_LIST (.list d.channelList), .reply n] =
          some [.channelList] := by simp [held, Event.change, Change.apply]
      refine ⟨trivial, .inl ⟨hheld, ?_⟩⟩
      simp [Served, ha, hreply, h0, h1, Allowed]
    · rw [if_neg ha] at hs
      cases hs

theorem list_safe_iff :
    Safe d (aicwfVendorSubcmdGetChannelList d k attrs).1 ↔ ListFine d k attrs := by
  unfold aicwfVendorSubcmdGetChannelList ListFine
  by_cases halloc : k.kzalloc 0 = true
  · rw [if_pos halloc]
    simp only [halloc, forall_const]
    rw [← deviceFill_allowed, ← served_loop_iff, Safe, List.cons_append, clean_alloc]
    exact clean_append (held_keep deviceFill_keep)
  · rw [if_neg halloc]
    exact iff_of_true (clean_nil.mpr rfl) fun h => absurd h halloc

end Channels

/-! ## Keep alive packets -/

section Keep

variable {d : Device} {k : Kernel} {attrs : List Attr}

def KeepState.own (s : KeepState) : List Ptr :=
  match s.ipPkt with
  | none => []
  | some (n, _) => [.ipPkt n]

/-- The packet that is there is an earlier one. -/
def KeepState.Earlier (s : KeepState) : Prop := ∀ n size, s.ipPkt = some (n, size) → n < s.allocs

def KeepState.Fine (k : Kernel) (s : KeepState) (as : List Attr) : Prop :=
  KeepFine k s.allocs s.ipPktLen (s.ipPkt.map Prod.snd) s.srcMac.isSome s.dstMac.isSome as

theorem exit_clean (s : KeepState) : Clean (Allowed d) Event.change s.own [] s.exit := by
  unfold KeepState.own KeepState.exit
  cases s.ipPkt with
  | none => exact clean_nil.mpr rfl
  | some p => simp

theorem keep_len {a : Attr} {t : MkeepAliveAttribute}
    (ha : (aicwfCfg80211MkeepAlivePolicy a.type).allows a.len = true)
    (ht : MkeepAliveAttribute.ofType a.type = some t) :
    (t = .id → a.len = 1) ∧ (t = .ipPktLen → a.len = 2) ∧ (t = .periodMsec → a.len = 4) ∧
      (t = .srcMacAddr ∨ t = .dstMacAddr → 6 ≤ a.len) := by
  rw [aicwfCfg80211MkeepAlivePolicy, ht] at ha
  cases t <;> simp_all [Policy.allows, ETH_ALEN]

/-- How the loop can be left. -/
theorem keepStep_stop {s : KeepState} {a : Attr} {es : List Event} {r : ℤ}
    (h : keepStep k s a = (es, .inr r)) :
    (MkeepAliveAttribute.ofType a.type = none ∧ es = s.exit) ∨
    (MkeepAliveAttribute.ofType a.type = some .ipPktLen ∧ MKEEP_ALIVE_IP_PKT_MAX < a.value 2 ∧
      es = .read 2 a.len::s.exit) ∨
    (MkeepAliveAttribute.ofType a.type = some .ipPkt ∧
      (s.ipPktLen = 0 ∧ es = s.exit ∨
        s.ipPktLen ≠ 0 ∧ k.kzalloc s.allocs = false ∧ es = [])) := by
  unfold keepStep at h
  split at h
  · cases h
  · rename_i ht
    split_ifs at h with hlong
    · cases h
      exact .inr (.inl ⟨ht, hlong, rfl⟩)
    · cases h
  · rename_i ht
    split_ifs at h with hzero halloc
    · cases h
      exact .inr (.inr ⟨ht, .inl ⟨hzero, rfl⟩⟩)
    · cases h
    · cases h
      exact .inr (.inr ⟨ht, .inr ⟨hzero, Bool.eq_false_iff.mpr halloc, rfl⟩⟩)
  · cases h
  · cases h
  · cases h
  · rename_i ht
    cases h
    exact .inl ⟨ht, rfl⟩

/-- A step of the loop takes a packet, or leaves the one that is there. -/
theorem keepStep_next {s s' : KeepState} {a : Attr} {es : List Event}
    (h : keepStep k s a = (es, .inl s')) :
    (MkeepAliveAttribute.ofType a.type = some .ipPkt ∧ s.ipPktLen ≠ 0 ∧
      k.kzalloc s.allocs = true ∧
      es = [.alloc (.ipPkt s.allocs), .read s.ipPktLen a.len, .write s.ipPktLen s.ipPktLen] ∧
      s' = { s with allocs := s.allocs+1, ipPkt := some (s.allocs, s.ipPktLen) }) ∨
    (s'.ipPkt = s.ipPkt ∧ s'.allocs = s.allocs ∧ (∀ e ∈ es, e.change = .keep) ∧
      ((aicwfCfg80211MkeepAlivePolicy a.type).allows a.len = true →
        (∀ (d : Device), ∀ e ∈ es, Allowed d e) ∧ ∀ as, s.Fine k (a::as) ↔ s'.Fine k as)) := by
  unfold keepStep at h
  split at h
  · rename_i ht
    cases h
    refine .inr ⟨rfl, rfl, by simp [Event.change], fun ha => ?_⟩
    obtain ⟨hid, -⟩ := keep_len ha ht
    exact ⟨by simp [Allowed, hid rfl], by simp [KeepState.Fine, KeepFine, ht]⟩
  · rename_i ht
    split_ifs at h with hlong
    · cases h
    · cases h
      refine .inr ⟨rfl, rfl, by simp [Event.change], fun ha => ?_⟩
      obtain ⟨-, hlen, -⟩ := keep_len ha ht
      exact ⟨by simp [Allowed, hlen rfl],
        by simp [KeepState.Fine, KeepFine, ht, Nat.not_lt.mp hlong]⟩
  · rename_i ht
    split_ifs at h with hzero halloc
    · cases h
    · cases h
      exact .inl ⟨ht, hzero, halloc, rfl, rfl⟩
    · cases h
  · rename_i ht
    cases h
    refine .inr ⟨rfl, rfl, by simp [Event.change], fun ha => ?_⟩
    obtain ⟨-, -, -, hmac⟩ := keep_len ha ht
    exact ⟨by simp [Allowed, hmac], by simp [KeepState.Fine, KeepFine, ht]⟩
  · rename_i ht
    cases h
    refine .inr ⟨rfl, rfl, by simp [Event.change], fun ha => ?_⟩
    obtain ⟨-, -, -, hmac⟩ := keep_len ha ht
    exact ⟨by simp [Allowed, hmac], by simp [KeepState.Fine, KeepFine, ht]⟩
  · rename_i ht
    cases h
    refine .inr ⟨rfl, rfl, by simp [Event.change], fun ha => ?_⟩
    obtain ⟨-, -, hperiod, -⟩ := keep_len ha ht
    exact ⟨by simp [Allowed, hperiod rfl], by simp [KeepState.Fine, KeepFine, ht]⟩
  · cases h

theorem keepAfter_iff (s : KeepState) :
    Clean (Allowed d) Event.change s.own [] (keepAfter k s).1 ↔ s.Fine k [] := by
  unfold KeepState.Fine KeepFine keepAfter
  cases hpkt : s.ipPkt with
  | none =>
    simp [KeepState.own, hpkt]
  | some p =>
    obtain ⟨n, size⟩ := p
    have hexit := exit_clean (d := d) s
    unfold aicDevStartMkeepAlive
    by_cases halloc : k.kzalloc s.allocs = true
    · simp [halloc, hexit, Nat.add_comm 14 s.ipPktLen]
      tauto
    · simp [halloc, hexit]

/-- The packet `n` is an earlier one, and not the one that the state has. -/
def KeepState.Forgot (n : ℕ) (s : KeepState) : Prop :=
  n < s.allocs ∧ ∀ size, s.ipPkt ≠ some (n, size)

theorem exit_forgot {n : ℕ} {s : KeepState} (hs : s.Forgot n) :
    ∀ e ∈ s.exit, e.change ≠ .give (.ipPkt n) := by
  intro e he
  unfold KeepState.exit at he
  cases hpkt : s.ipPkt with
  | none =>
    rw [hpkt] at he
    exact absurd he List.not_mem_nil
  | some p =>
    obtain ⟨m, size⟩ := p
    have hne : m ≠ n := fun h => hs.2 size (h ▸ hpkt)
    rw [hpkt] at he
    rw [List.mem_singleton.mp he]
    simpa [Event.change] using hne

theorem start_forgot {n : ℕ} (s : KeepState) (size : ℕ) :
    ∀ e ∈ (aicDevStartMkeepAlive k s size).1, e.change ≠ .give (.ipPkt n) := by
  intro e he
  unfold aicDevStartMkeepAlive at he
  split at he
  · simp only [List.mem_cons, List.not_mem_nil, or_false] at he
    rcases he with rfl | rfl | rfl | rfl | rfl | rfl | rfl | rfl | rfl <;> simp [Event.change]
  · exact absurd he List.not_mem_nil

/-- A packet that the state has forgotten is not given back any more. -/
theorem lost_kept {n : ℕ} {s : KeepState} (hs : s.Forgot n) (as : List Attr) :
    ∀ e ∈ (loop (keepStep k) (keepAfter k) s as).1, e.change ≠ .give (.ipPkt n) := by
  refine loop_each (fun e : Event => e.change ≠ .give (.ipPkt n)) (KeepState.Forgot n)
    ?_ ?_ ?_ hs as
  · intro s hs e he
    unfold keepAfter at he
    cases hpkt : s.ipPkt with
    | none =>
      rw [hpkt] at he
      exact absurd he List.not_mem_nil
    | some p =>
      rw [hpkt] at he
      exact (List.mem_append.mp he).elim (start_forgot s p.2 e) (exit_forgot hs e)
  · intro s a es r hs hstep e he
    rcases keepStep_stop hstep with ⟨-, rfl⟩ | ⟨-, -, rfl⟩ | ⟨-, ⟨-, rfl⟩ | ⟨-, -, rfl⟩⟩
    · exact exit_forgot hs e he
    · rcases List.mem_cons.mp he with rfl | he
      · simp [Event.change]
      · exact exit_forgot hs e he
    · exact exit_forgot hs e he
    · exact absurd he List.not_mem_nil
  · intro s a es s' hs hstep
    rcases keepStep_next hstep with ⟨-, -, -, rfl, rfl⟩ | ⟨hpkt, hallocs, hkeep, -⟩
    · refine ⟨⟨Nat.lt_succ_of_lt hs.1, fun size h => ?_⟩, by simp [Event.change]⟩
      have hsame : s.allocs = n := congrArg Prod.fst (Option.some.inj h)
      exact absurd hsame.symm hs.1.ne
    · unfold KeepState.Forgot
      rw [hpkt, hallocs]
      exact ⟨hs, fun e he => by simp [hkeep e he]⟩

theorem keep_stops (s : KeepState) (a : Attr) (as : List Attr) (es : List Event) (r : ℤ)
    (_ : s.Earlier) (ha : (aicwfCfg80211MkeepAlivePolicy a.type).allows a.len = true)
    (hstep : keepStep k s a = (es, .inr r)) :
    Clean (Allowed d) Event.change s.own [] es ↔ s.Fine k (a::as) := by
  rcases keepStep_stop hstep with
    ⟨ht, rfl⟩ | ⟨ht, hlong, rfl⟩ | ⟨ht, ⟨hzero, rfl⟩ | ⟨hlen, halloc, rfl⟩⟩
  · exact iff_of_true (exit_clean s) (by simp [KeepState.Fine, KeepFine, ht])
  · have htwo : a.len = 2 := (keep_len ha ht).2.1 rfl
    exact iff_of_true (clean_read.mpr ⟨htwo.ge, exit_clean s⟩)
      (by simp [KeepState.Fine, KeepFine, ht, Nat.not_le.mpr hlong])
  · exact iff_of_true (exit_clean s) (by simp [KeepState.Fine, KeepFine, ht, hzero])
  · unfold KeepState.own KeepState.Fine
    cases hpkt : s.ipPkt with
    | none => simp [KeepFine, ht, hlen, halloc]
    | some p => simp [KeepFine, ht, hlen]

theorem keep_goes_on (s : KeepState) (a : Attr) (as : List Attr) (es : List Event)
    (s' : KeepState) (hs : s.Earlier)
    (ha : (aicwfCfg80211MkeepAlivePolicy a.type).allows a.len = true)
    (hstep : keepStep k s a = (es, .inl s')) :
    s'.Earlier ∧ (held Event.change s.own es = some s'.own ∧
        (s.Fine k (a::as) ↔ (∀ e ∈ es, Allowed d e) ∧ s'.Fine k as) ∨
      ¬ s.Fine k (a::as) ∧ ¬ Clean (Allowed d) Event.change s.own []
        (es++(loop (keepStep k) (keepAfter k) s' as).1)) := by
  rcases keepStep_next hstep with ⟨ht, hlen, halloc, rfl, rfl⟩ | ⟨hpkt, hallocs, hkeep, hfine⟩
  · refine ⟨fun n size h => ?_, ?_⟩
    · have hsame : s.allocs = n := congrArg Prod.fst (Option.some.inj h)
      rw [← hsame]
      exact Nat.lt_succ_self _
    · cases hpkt : s.ipPkt with
      | none =>
        refine .inl ⟨by simp [KeepState.own, hpkt, held, Event.change, Change.apply], ?_⟩
        simp [KeepState.Fine, KeepFine, ht, hlen, halloc, hpkt, Allowed]
      | some p =>
        obtain ⟨n, size⟩ := p
        refine .inr ⟨by simp [KeepState.Fine, KeepFine, ht, hlen, hpkt], fun hclean => ?_⟩
        have hown : s.own = [.ipPkt n] := by rw [KeepState.own, hpkt]
        have hboth : held Event.change s.own [.alloc (.ipPkt s.allocs),
            .read s.ipPktLen a.len, .write s.ipPktLen s.ipPktLen] =
            some [.ipPkt s.allocs, .ipPkt n] := by
          simp [hown, held, Event.change, Change.apply]
        have hrest := ((clean_append hboth).mp hclean).2.balance
        have hn : n < s.allocs := hs n size hpkt
        have hother : ∀ size', some (s.allocs, s.ipPktLen) ≠ some (n, size') := fun size' h =>
          hn.ne (congrArg Prod.fst (Option.some.inj h)).symm
        exact List.not_mem_nil
          (held_kept (by simp) (lost_kept ⟨Nat.lt_succ_of_lt hn, hother⟩ as) hrest)
  · obtain ⟨hallowed, hiff⟩ := hfine ha
    refine ⟨fun n size h => ?_, .inl ⟨?_, ?_⟩⟩
    · rw [hpkt] at h
      rw [hallocs]
      exact hs n size h
    · unfold KeepState.own
      rw [hpkt]
      exact held_keep hkeep
    · rw [hiff]
      exact (and_iff_right (hallowed d)).symm

theorem keep_safe_iff
    (has : ∀ a ∈ attrs, (aicwfCfg80211MkeepAlivePolicy a.type).allows a.len = true) :
    Safe d (aicwfVendorStartMkeepAlive k attrs).1 ↔ KeepFine k 0 0 none false false attrs := by
  have hinit : KeepState.init.Earlier := fun n size h => by cases h
  have hrule : Clean (Allowed d) Event.change KeepState.init.own []
      (loop (keepStep k) (keepAfter k) .init attrs).1 ↔ KeepState.init.Fine k attrs :=
    loop_clean_iff KeepState.own (KeepState.Fine k) KeepState.Earlier
    (fun a => (aicwfCfg80211MkeepAlivePolicy a.type).allows a.len = true)
    (fun s _ => keepAfter_iff s) keep_stops keep_goes_on hinit has
  exact hrule

end Keep

/-! ## All commands -/

/-- A packet of 8 bytes under a length of 256. -/
def shortPacket : Received Command.startMkeepAlive.policy where
  attrs := [⟨3, [0, 1]⟩, ⟨2, List.replicate 8 0⟩]
  allowed := by decide

def askForBand : Received Command.getChannelList.policy where
  attrs := [⟨GSCAN_ATTRIBUTE_BAND, [0, 0, 0, 0]⟩]
  allowed := by decide

/-- Every call succeeds. -/
def willing : Kernel := ⟨fun _ => true, fun _ => true, fun _ _ => true, fun _ => 0⟩

/-- One channel in each band, and an extra one in each table. -/
def twoBands : Device where
  fwVersion := List.replicate 32 0
  fwVersionSize := rfl
  band2GHz := ⟨[2412, 2484], 1, by decide⟩
  band5GHz := ⟨[5180, 5190], 1, by decide⟩
  band5gSupport := true
  interfaceModes := 0
  iftype := NL80211_IFTYPE_STATION

end AIC.VendorCommand
