import Aic8800.RxAggregate

/-!
# When the splitting of a buffer ends

The loop trusts the length in each record. It ends inside the buffer exactly
when every record with its padding is there: a record that overruns is read
past the end, or `skb_pull` leaves it in place and the loop meets it again. The
same happens when the 16-bit length wraps to nothing.
-/

set_option autoImplicit false

namespace AIC.RxAggregateTotal
open AIC.RxAggregate Lib.LoopRun

/-- Whole records, each with its padding, up to the end or a length of zero. -/
inductive WholeRecords : List UInt8 → Prop
  | done {skb : List UInt8} (last : aicwfAnotherPtk skb = some false) : WholeRecords skb
  | data {lo hi type : UInt8} {rest : List UInt8} (another : pktLen lo hi ≠ 0)
      (kind : type &&& SDIO_TYPE_CFG ≠ SDIO_TYPE_CFG)
      (pos : 0 < adjustLen (u16 (pktLen lo hi+RX_HWHRD_LEN)))
      (fits : adjustLen (u16 (pktLen lo hi+RX_HWHRD_LEN)) ≤ (lo::hi::type::rest).length)
      (more : WholeRecords
        ((lo::hi::type::rest).drop (adjustLen (u16 (pktLen lo hi+RX_HWHRD_LEN))))) :
      WholeRecords (lo::hi::type::rest)
  | config {lo hi type : UInt8} {rest : List UInt8} (another : pktLen lo hi ≠ 0)
      (kind : type &&& SDIO_TYPE_CFG = SDIO_TYPE_CFG)
      (reads : pktLen lo hi+4 ≤ (lo::hi::type::rest).length)
      (fits : adjustLen (pktLen lo hi)+4 ≤ (lo::hi::type::rest).length)
      (more : WholeRecords ((lo::hi::type::rest).drop (adjustLen (pktLen lo hi)+4))) :
      WholeRecords (lo::hi::type::rest)

/-- Whatever the allocations give, the loop comes to the end of the buffer, or
returns early for want of memory, and reads nothing outside. -/
def Deaggregates (skb : List UInt8) : Prop :=
  ∀ busDown alloc : ℕ → Bool, ∃ fuel r out, loop (skbTurn busDown alloc) fuel 0 skb = (some r, out) ∧
    (r = .done ∨ r = .ebade ∧ ∃ k, alloc k = false)

theorem adjustLen_eq (n : ℕ) : adjustLen n = u16 ((n+3)/4*4) := by
  have hand : n &&& (RX_ALIGNMENT-1) = n % 4 := Nat.and_two_pow_sub_one_eq_mod n 2
  rw [adjustLen, hand, roundup, RX_ALIGNMENT]
  split_ifs with h
  · rfl
  · congr 1
    omega

/-- The padded length covers the record unless it wraps to zero. -/
theorem le_adjustLen {n : ℕ} (hn : n < 65536) (hpos : 0 < adjustLen n) : n ≤ adjustLen n := by
  rw [adjustLen_eq, u16] at hpos ⊢
  omega

theorem u16_lt (n : ℕ) : u16 n < 65536 := Nat.mod_lt n (by decide)

theorem another_cons {lo hi type : UInt8} {rest : List UInt8} (h : pktLen lo hi ≠ 0) :
    aicwfAnotherPtk (lo::hi::type::rest) = some true := by
  simp [aicwfAnotherPtk, h]

theorem skbPull_fits {skb : List UInt8} {n : ℕ} (h : n ≤ skb.length) :
    skbPull skb n = skb.drop n := if_neg (by omega)

/-! ## One turn -/

section
variable (busDown alloc : ℕ → Bool) (k : ℕ) {lo hi type : UInt8} {rest : List UInt8}

theorem turn_data (h : pktLen lo hi ≠ 0) (hkind : type &&& SDIO_TYPE_CFG ≠ SDIO_TYPE_CFG) :
    skbTurn busDown alloc k (lo::hi::type::rest) =
      if alloc k = true then
        if (lo::hi::type::rest).length < u16 (pktLen lo hi+RX_HWHRD_LEN) then .stop .fault
        else .next (skbPull (lo::hi::type::rest) (adjustLen (u16 (pktLen lo hi+RX_HWHRD_LEN))))
          [.rwnxRxdataind ((lo::hi::type::rest).take (u16 (pktLen lo hi+RX_HWHRD_LEN)))]
      else .next (skbPull (lo::hi::type::rest)
        (adjustLen (u16 (pktLen lo hi+RX_HWHRD_LEN)))) [] := by
  simp only [skbTurn, another_cons h, record, if_pos hkind]

theorem turn_config (h : pktLen lo hi ≠ 0) (hkind : type &&& SDIO_TYPE_CFG = SDIO_TYPE_CFG) :
    skbTurn busDown alloc k (lo::hi::type::rest) =
      if alloc k = true then
        if (lo::hi::type::rest).length < pktLen lo hi+4 then .stop .fault
        else .next (skbPull (lo::hi::type::rest) (adjustLen (pktLen lo hi)+4))
          (configDispatch (busDown k) ((lo::hi::type::rest).take (pktLen lo hi+4)) (pktLen lo hi))
      else .stop .ebade := by
  simp only [skbTurn, another_cons h, record, if_neg (not_not.mpr hkind)]

theorem data_moves (h : pktLen lo hi ≠ 0) (hkind : type &&& SDIO_TYPE_CFG ≠ SDIO_TYPE_CFG)
    (hread : u16 (pktLen lo hi+RX_HWHRD_LEN) ≤ (lo::hi::type::rest).length) :
    ∃ out, skbTurn busDown alloc k (lo::hi::type::rest) =
      .next (skbPull (lo::hi::type::rest) (adjustLen (u16 (pktLen lo hi+RX_HWHRD_LEN)))) out := by
  rw [turn_data busDown alloc k h hkind, if_neg (not_lt.mpr hread)]
  split_ifs
  · exact ⟨_, rfl⟩
  · exact ⟨_, rfl⟩

theorem config_moves (h : pktLen lo hi ≠ 0) (hkind : type &&& SDIO_TYPE_CFG = SDIO_TYPE_CFG)
    (hread : pktLen lo hi+4 ≤ (lo::hi::type::rest).length) (ha : alloc k = true) :
    ∃ out, skbTurn busDown alloc k (lo::hi::type::rest) =
      .next (skbPull (lo::hi::type::rest) (adjustLen (pktLen lo hi)+4)) out := by
  rw [turn_config busDown alloc k h hkind, if_neg (not_lt.mpr hread), if_pos ha]
  exact ⟨_, rfl⟩

end

/-! ## Whole records are enough -/

theorem whole_ends {skb : List UInt8} (h : WholeRecords skb) (busDown alloc : ℕ → Bool) (k : ℕ) :
    ∃ r out, Ends (skbTurn busDown alloc) k skb r out ∧
      (r = .done ∨ r = .ebade ∧ ∃ k, alloc k = false) := by
  induction h generalizing k with
  | done last => exact ⟨.done, [], .stop (by simp only [skbTurn, last]), Or.inl rfl⟩
  | data another kind pos fits _ ih =>
    have hmoves := data_moves busDown alloc k another kind ((le_adjustLen (u16_lt _) pos).trans fits)
    rw [skbPull_fits fits] at hmoves
    obtain ⟨out, hturn⟩ := hmoves
    obtain ⟨r, rest, hends, hr⟩ := ih (k+1)
    exact ⟨r, _, .next hturn hends, hr⟩
  | config another kind reads fits _ ih =>
    cases ha : alloc k with
    | false =>
      exact ⟨.ebade, [], .stop (by rw [turn_config busDown alloc k another kind, ha]; rfl), Or.inr ⟨rfl, k, ha⟩⟩
    | true =>
      have hmoves := config_moves busDown alloc k another kind reads ha
      rw [skbPull_fits fits] at hmoves
      obtain ⟨out, hturn⟩ := hmoves
      obtain ⟨r, rest, hends, hr⟩ := ih (k+1)
      exact ⟨r, _, .next hturn hends, hr⟩

/-! ## Whole records are needed -/

/-- A record that moves nothing is met again for ever. -/
theorem pull_stays {skb : List UInt8} {n : ℕ} (h : ¬ (0 < n ∧ n ≤ skb.length)) :
    skbPull skb n = skb := by
  unfold skbPull
  split_ifs with hlt
  · rfl
  · have hn : n = 0 := by omega
    rw [hn, List.drop_zero]

theorem stop_whole {busDown : ℕ → Bool} {k : ℕ} {skb : List UInt8} {r : Ending}
    (here : skbTurn busDown (fun _ => true) k skb = .stop r) (hr : r ≠ .fault) :
    WholeRecords skb := by
  cases ha : aicwfAnotherPtk skb with
  | none =>
    simp only [skbTurn, ha, Turn.stop.injEq] at here
    exact absurd here.symm hr
  | some another =>
    cases another with
    | false => exact .done ha
    | true =>
      simp only [skbTurn, ha, record, if_true] at here
      split at here
      · split_ifs at here <;> cases here <;> exact absurd rfl hr
      · cases here
        exact absurd rfl hr

theorem ends_whole {busDown : ℕ → Bool} {k : ℕ} {skb : List UInt8} {r : Ending}
    {out : List Dispatch} (h : Ends (skbTurn busDown (fun _ => true)) k skb r out)
    (hr : r ≠ .fault) : WholeRecords skb := by
  induction h with
  | stop here => exact stop_whole here hr
  | @next k skb s' r out rest here more ih =>
    have hwhole := ih hr
    match skb, here with
    | [], here => simp [skbTurn, aicwfAnotherPtk] at here
    | [_], here => simp [skbTurn, aicwfAnotherPtk] at here
    | [lo, hi], here =>
      simp only [skbTurn, aicwfAnotherPtk, record] at here
      split at here <;> cases here
    | lo::hi::type::tail, here =>
      by_cases hz : pktLen lo hi = 0
      · simp [skbTurn, aicwfAnotherPtk, hz] at here
      by_cases hkind : type &&& SDIO_TYPE_CFG = SDIO_TYPE_CFG
      · have hread : pktLen lo hi+4 ≤ (lo::hi::type::tail).length := by
          by_contra hlt
          rw [turn_config _ _ _ hz hkind, if_pos rfl, if_pos (not_le.mp hlt)] at here
          cases here
        have hturn : ∀ j, ∃ out, skbTurn busDown (fun _ => true) j (lo::hi::type::tail) =
            .next (skbPull (lo::hi::type::tail) (adjustLen (pktLen lo hi)+4)) out :=
          fun j => config_moves _ _ j hz hkind hread rfl
        obtain ⟨o, ho⟩ := hturn k
        rw [ho] at here
        injection here with hs
        by_cases hfit : adjustLen (pktLen lo hi)+4 ≤ (lo::hi::type::tail).length
        · rw [skbPull_fits hfit] at hs
          exact .config hz hkind hread hfit (hs ▸ hwhole)
        · rw [pull_stays (by omega)] at hs hturn
          exact absurd (hs ▸ more) (stuck_not_ends hturn)
      · have hread : u16 (pktLen lo hi+RX_HWHRD_LEN) ≤ (lo::hi::type::tail).length := by
          by_contra hlt
          rw [turn_data _ _ _ hz hkind, if_pos rfl, if_pos (not_le.mp hlt)] at here
          cases here
        have hturn : ∀ j, ∃ out, skbTurn busDown (fun _ => true) j (lo::hi::type::tail) =
            .next (skbPull (lo::hi::type::tail)
              (adjustLen (u16 (pktLen lo hi+RX_HWHRD_LEN)))) out :=
          fun j => data_moves _ _ j hz hkind hread
        obtain ⟨o, ho⟩ := hturn k
        rw [ho] at here
        injection here with hs
        by_cases hfit : 0 < adjustLen (u16 (pktLen lo hi+RX_HWHRD_LEN)) ∧
            adjustLen (u16 (pktLen lo hi+RX_HWHRD_LEN)) ≤ (lo::hi::type::tail).length
        · rw [skbPull_fits hfit.2] at hs
          exact .data hz hkind hfit.1 hfit.2 (hs ▸ hwhole)
        · rw [pull_stays hfit] at hs hturn
          exact absurd (hs ▸ more) (stuck_not_ends hturn)

/-- The splitting ends inside the buffer exactly when every record is whole. -/
theorem deaggregates_iff (skb : List UInt8) : Deaggregates skb ↔ WholeRecords skb := by
  constructor
  · intro h
    obtain ⟨fuel, r, out, hloop, hr⟩ := h (fun _ => false) (fun _ => true)
    have hne : r ≠ .fault := by
      rintro rfl
      simp at hr
    exact ends_whole (ends_of_loop hloop) hne
  · intro h busDown alloc
    obtain ⟨r, out, hends, hr⟩ := whole_ends h busDown alloc 0
    obtain ⟨fuel, hloop⟩ := loop_of_ends hends
    exact ⟨fuel, r, out, hloop, hr⟩

/-- A length field of 65476 wraps to a record of no bytes. -/
theorem wrapped_length_stuck :
    ¬ Deaggregates (0xC4::0xFF::0::List.replicate 509 0) := by
  intro h
  obtain ⟨fuel, r, out, hloop, -⟩ := h (fun _ => false) (fun _ => true)
  apply stuck_not_ends _ (ends_of_loop hloop)
  intro k
  have hzero : ¬ 0 < adjustLen (u16 (pktLen 0xC4 0xFF+RX_HWHRD_LEN)) := by decide
  have hmoves := data_moves (fun _ => false) (fun _ => true) k
    (show pktLen 0xC4 0xFF ≠ 0 by decide) (show 0 &&& SDIO_TYPE_CFG ≠ SDIO_TYPE_CFG by decide)
    (Nat.zero_le (0xC4::0xFF::0::List.replicate 509 0).length)
  rwa [pull_stays (fun h => absurd h.1 hzero)] at hmoves

end AIC.RxAggregateTotal
