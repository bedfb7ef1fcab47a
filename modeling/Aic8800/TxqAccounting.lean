import Aic8800.Lib.Tally
import Aic8800.TxqWork

/-!
# The counters of power save

While a station sleeps its counters say how many packets wait on its txqs and
how many of them a service period may take. A service period is paid for when it
is granted, and each push takes from both counters what it takes from a txq.
-/

set_option autoImplicit false

namespace AIC.TxqAccounting
open AIC.TxqMachine AIC.TxqLists AIC.TxqWork Lib.GuardedRun Lib.Tally

/-- The packets that wait on the txqs of a station. -/
def total (hw : Hw) (s : StaId) (p : PsId) : ℕ :=
  tally Txq.psId (fun t => t.skList.length) s.txqs hw.txq p

def granted (hw : Hw) (s : StaId) (p : PsId) : ℕ := tally Txq.psId Txq.pushLimit s.txqs hw.txq p

structure Accounts (hw : Hw) (s : StaId) : Prop where
  ready : ∀ p, (hw.sta s).pktReady p = total hw s p
  period : ∀ p, (hw.sta s).spCnt p = granted hw s p
  limit : ∀ k ∈ s.txqs, (hw.txq k).pushLimit ≤ (hw.txq k).skList.length

structure Balanced (hw : Hw) : Prop where
  accounts : ∀ s, (hw.sta s).psActive = true → Accounts hw s
  noUnderflow : ∀ s, (hw.sta s).underflow = false

/-- One packet more is no more than the counter of its station can hold. -/
def Room (hw : Hw) (k : TxqId) : Prop :=
  ∀ s ∈ k.owner, (hw.sta s).psActive = true → total hw s (hw.txq k).psId < 2^16-1

/-- What is linked for a sleeping station is linked for a service period. -/
def Limited (hw : Hw) (q : HwqId) : Prop :=
  ∀ k ∈ (hw.hwq q).list, (hw.txq k).active = true → sleeps hw k = true → (hw.txq k).pushLimit ≠ 0

/-- A station goes to sleep with no service period under way and is not initialised or given up in
its sleep, an interruption meets no service period of legacy power save, and what is queued,
confirmed and processed is as the predicates above say. -/
def Accountable (hw : Hw) : Act → Prop
  | .addStation i _ _ _ => (hw.sta (.unicast i)).psActive = false
  | .txqVifDeinit vif => (hw.sta (.multicast vif)).psActive = false
  | .txqStaDeinit s => (hw.sta s).psActive = false
  | .txqDeinit k => sleeps hw k = false
  | .xmit d _ _ =>
    (sleeps hw d.txq = true → (hw.txq d.txq).sta = d.station) ∧ Room hw d.txq
  | .hwqProcess q => Limited hw q
  | .hwqProcessAll =>
    ∀ q ∈ [HwqId.vo, .vi, .be, .bk], (hw.hwq q).needProcessing = true → Limited hw q
  | .txdatacfm i busDown retry => ∀ f ∈ hw.pushed[i]?, busDown = false → retry = true →
      f.skb.mgmt = false → (hw.txq f.txq).active = true →
        (hw.txq f.txq).credits < 127 ∧ Room hw f.txq
  | .psBhEnable s enable => enable = true →
      (∀ k ∈ s.txqs, (hw.txq k).pushLimit = 0) ∧ ∀ p ∈ [PsId.legacy, .uapsd], total hw s p < 2^16
  | .psBhTrafficReq s req p => (hw.sta s).psActive = true → req = PS_SP_INTERRUPTED → p = .uapsd →
      ∀ k ∈ s.txqs, (hw.txq k).psId = .legacy → (hw.txq k).pushLimit = 0
  | _ => True

instance (hw : Hw) (k : TxqId) : Decidable (Room hw k) := by
  unfold Room
  infer_instance

instance (hw : Hw) (q : HwqId) : Decidable (Limited hw q) := by
  unfold Limited
  infer_instance

instance (hw : Hw) (a : Act) : Decidable (Accountable hw a) := by
  induction a using Act.casesOn <;> dsimp only [Accountable] <;> infer_instance

/-! ## The entry of a txq -/

/-- A service period is within the credits, and only a sleeping station has one. -/
structure Entry (ps : Bool) (t : Txq) : Prop where
  credits : 0 ≤ t.credits ∧ t.credits < 128
  limit : (t.pushLimit : ℤ) ≤ t.credits
  period : t.pushLimit ≠ 0 → ps = true

variable {ps : Bool} {t u : Txq}

theorem Entry.idle (h : Entry false t) : t.pushLimit = 0 :=
  not_not.mp fun hno => Bool.false_ne_true (h.period hno)

theorem Entry.congr (h : Entry ps t) (hcred : u.credits = t.credits)
    (hlimit : u.pushLimit = t.pushLimit) : Entry ps u := by
  obtain ⟨hc, hl, hp⟩ := h
  rw [← hcred] at hc hl
  rw [← hlimit] at hl hp
  exact ⟨hc, hl, hp⟩

/-- The service period is over, or nobody knows of one. -/
theorem Entry.clear (h : Entry ps t) (hcred : u.credits = t.credits) (hlimit : u.pushLimit = 0)
    (ps' : Bool) : Entry ps' u := by
  constructor
  · rw [hcred]
    exact h.credits
  · rw [hcred, hlimit]
    exact h.credits.1
  · exact fun hno => absurd hlimit hno

theorem entry_fresh (k : TxqId) (status : Finset StopReason) (hwq : HwqId) (sta : Option StaId)
    (psId : PsId) (ps : Bool) : Entry ps (.fresh k status hwq sta psId) := by
  constructor
  · show (0 : ℤ) ≤ 64 ∧ (64 : ℤ) < 128
    decide
  · show ((0 : ℕ) : ℤ) ≤ 64
    decide
  · exact fun hno => absurd rfl hno

theorem Entry.deinited (h : Entry ps t) : Entry ps t.deinited := by
  unfold Txq.deinited
  split
  · exact h.congr rfl rfl
  · exact h

theorem Entry.credit (h : Entry ps t) (hcred : t.credits < 127) : Entry ps t.addCredit := by
  have hmore := addCredit_credits ⟨h.credits.1, hcred⟩
  have hpos := h.credits.1
  have hle := h.limit
  refine ⟨?_, ?_, h.period⟩
  · rw [hmore]
    omega
  · rw [hmore]
    show (t.pushLimit : ℤ) ≤ _
    omega

/-- A service period takes what it was granted, and the txq is done with it. -/
theorem Entry.taken (h : Entry ps t) (hlimit : t.pushLimit ≠ 0)
    (hready : t.pushLimit ≤ t.skList.length) : t.getSkbToPush = (t.pushLimit, true) := by
  have hget : t.getCredits = t.pushLimit := by
    unfold Txq.getCredits
    split
    · rfl
    · rename_i hno
      exact (le_antisymm h.limit (not_lt.mp fun hlt => hno ⟨hlimit, hlt⟩)).symm
  unfold Txq.getSkbToPush
  rw [hget]
  split
  · rename_i hall
    rw [le_antisymm hready (Int.ofNat_le.mp hall)]
  · rw [Int.toNat_natCast, decide_eq_true ⟨hlimit, rfl⟩]

/-! ## The counters of a station -/

/-- The counter of ready packets has not wrapped. -/
structure Ledger (hw : Hw) (s : StaId) : Prop extends Accounts hw s where
  word : ∀ p, (hw.sta s).pktReady p < 2^16

structure Sound (hw : Hw) : Prop where
  entry : ∀ k, Entry (sleeps hw k) (hw.txq k)
  ledger : ∀ s, (hw.sta s).psActive = true → Ledger hw s
  noUnderflow : ∀ s, (hw.sta s).underflow = false

variable {hw hw' : Hw} {k : TxqId} {s : StaId} {p : PsId}

/-- The quantities that the counters are about are kept on every txq of the station. -/
theorem Ledger.congr (h : Ledger hw s) (hsta : hw'.sta s = hw.sta s)
    (htxq : ∀ k ∈ s.txqs, (hw'.txq k).psId = (hw.txq k).psId ∧
      (hw'.txq k).skList = (hw.txq k).skList ∧ (hw'.txq k).pushLimit = (hw.txq k).pushLimit) :
    Ledger hw' s := by
  constructor
  · constructor
    · intro p
      rw [hsta, h.ready p]
      refine (tally_congr fun k hk => ?_).symm
      obtain ⟨hid, hlist, -⟩ := htxq k hk
      simp only [share, hid, hlist]
    · intro p
      rw [hsta, h.period p]
      refine (tally_congr fun k hk => ?_).symm
      obtain ⟨hid, -, hlimit⟩ := htxq k hk
      simp only [share, hid, hlimit]
    · intro k hk
      obtain ⟨-, hlist, hlimit⟩ := htxq k hk
      rw [hlist, hlimit]
      exact h.limit k hk
  · rw [hsta]
    exact h.word

theorem Accounts.length_le_pktReady (h : Accounts hw s) (hk : k ∈ s.txqs) :
    (hw.txq k).skList.length ≤ (hw.sta s).pktReady (hw.txq k).psId := by
  have hshare : share Txq.psId (fun t => t.skList.length) (hw.txq k).psId (hw.txq k) ≤
      total hw s (hw.txq k).psId := share_le_tally hk
  rwa [share_eq rfl, ← h.ready] at hshare

theorem Accounts.limit_le_spCnt (h : Accounts hw s) (hk : k ∈ s.txqs) :
    (hw.txq k).pushLimit ≤ (hw.sta s).spCnt (hw.txq k).psId := by
  have hshare : share Txq.psId Txq.pushLimit (hw.txq k).psId (hw.txq k) ≤
      granted hw s (hw.txq k).psId := share_le_tally hk
  rwa [share_eq rfl, ← h.period] at hshare

/-- A txq and the counters of its station are changed. -/
theorem Sound.put (h : Sound hw) (htxq : hw'.txq = Function.update hw.txq k t)
    (hps : ∀ s, (hw'.sta s).psActive = (hw.sta s).psActive)
    (hoff : ∀ s, k.owner ≠ some s → hw'.sta s = hw.sta s) (hentry : Entry (sleeps hw k) t)
    (hown : ∀ s, k.owner = some s → (hw'.sta s).underflow = false ∧
      ((hw.sta s).psActive = true → Ledger hw' s)) : Sound hw' := by
  constructor
  · intro j
    rw [htxq, sleeps_congr hps]
    by_cases hj : j = k
    · subst hj
      rwa [Function.update_self]
    · rw [Function.update_of_ne hj]
      exact h.entry j
  · intro s hs
    rw [hps] at hs
    by_cases hk : k.owner = some s
    · exact (hown s hk).2 hs
    · apply (h.ledger s hs).congr (hoff s hk)
      intro j hj
      have hne : j ≠ k := by
        rintro rfl
        exact hk (mem_txqs_iff.mp hj)
      rw [htxq, Function.update_of_ne hne]
      exact ⟨rfl, rfl, rfl⟩
  · intro s
    by_cases hk : k.owner = some s
    · exact (hown s hk).1
    · rw [hoff s hk]
      exact h.noUnderflow s

/-- What the counters are about is kept. -/
theorem Sound.keep (h : Sound hw) (hch : Changes k t hw hw') (hentry : Entry (sleeps hw k) t)
    (hid : t.psId = (hw.txq k).psId) (hlist : t.skList = (hw.txq k).skList)
    (hlimit : t.pushLimit = (hw.txq k).pushLimit) : Sound hw' := by
  refine h.put hch.txq (fun s => by rw [hch.sta]) (fun s _ => by rw [hch.sta]) hentry
    fun s _ => ⟨?_, fun hs => ?_⟩
  · rw [hch.sta]
    exact h.noUnderflow s
  · apply (h.ledger s hs).congr (by rw [hch.sta])
    intro j _
    by_cases hj : j = k
    · subst hj
      rw [hch.at]
      exact ⟨hid, hlist, hlimit⟩
    · rw [hch.off hj]
      exact ⟨rfl, rfl, rfl⟩

theorem Sound.still (h : Sound hw) (hch : Changes k t hw hw') (ht : (hw.txq k).Still t) :
    Sound hw' :=
  h.keep hch ((h.entry k).congr ht.credits ht.pushLimit) ht.psId ht.skList ht.pushLimit

theorem Sound.same (h : Sound hw) (htxq : hw'.txq = hw.txq) (hsta : hw'.sta = hw.sta) :
    Sound hw' := by
  apply h.still (k := .offchan) (t := hw.txq .offchan)
  · exact ⟨htxq.trans (Function.update_eq_self _ _).symm, hsta⟩
  · exact ⟨rfl, rfl, rfl, rfl, rfl, rfl, rfl⟩

/-- A txq of a station that is awake is changed in any way. -/
theorem Sound.awake (h : Sound hw) (hch : Changes k t hw hw') (hps : sleeps hw k = false)
    (hentry : Entry false t) : Sound hw' := by
  rw [← hps] at hentry
  refine h.put hch.txq (fun s => by rw [hch.sta]) (fun s _ => by rw [hch.sta]) hentry
    fun s hk => ⟨?_, fun hs => ?_⟩
  · rw [hch.sta]
    exact h.noUnderflow s
  · rw [← sleeps_owner hk, hps] at hs
    cases hs

/-- The txqs of a station are changed together, with its counters. -/
theorem Sound.station (h : Sound hw) {g : TxqId → Txq → Txq} {x : Sta}
    (htxq : hw'.txq = onStation s g hw.txq) (hsta : hw'.sta = Function.update hw.sta s x)
    (hentry : ∀ k, k.owner = some s → Entry x.psActive (g k (hw.txq k)))
    (hunder : x.underflow = false) (hledger : x.psActive = true → Ledger hw' s) : Sound hw' := by
  have hoff : ∀ j, j ≠ s → hw'.sta j = hw.sta j := fun j hj => by
    rw [hsta, Function.update_of_ne hj]
  have hat : hw'.sta s = x := by rw [hsta, Function.update_self]
  constructor
  · intro k
    rw [htxq]
    unfold onStation
    split
    · rename_i hown
      rw [sleeps_owner hown, hat]
      exact hentry k hown
    · rename_i hown
      have hsame : sleeps hw' k = sleeps hw k := sleeps_off (fun j hj => by rw [hoff j hj]) hown
      rw [hsame]
      exact h.entry k
  · intro j hj
    by_cases hs : j = s
    · subst hs
      rw [hat] at hj
      exact hledger hj
    · rw [hoff j hs] at hj
      apply (h.ledger j hj).congr (hoff j hs)
      intro k hk
      have hown : ¬ k.owner = some s := fun hno =>
        hs (Option.some.inj ((mem_txqs_iff.mp hk).symm.trans hno))
      rw [htxq]
      unfold onStation
      rw [if_neg hown]
      exact ⟨rfl, rfl, rfl⟩
  · intro j
    by_cases hs : j = s
    · subst hs
      rw [hat]
      exact hunder
    · rw [hoff j hs]
      exact h.noUnderflow j

/-! ## Queueing -/

theorem inPs_off {o : Option StaId} {f : Sta → Sta} (ho : o ≠ some s) (sta : StaId → Sta) :
    inPs o f sta s = sta s :=
  if_neg fun h => ho h.1

theorem inPs_at {f : Sta → Sta} {sta : StaId → Sta} (hs : (sta s).psActive = true) :
    inPs (some s) f sta s = f (sta s) :=
  if_pos ⟨rfl, hs⟩

theorem Sound.queue {skb : Skb} {retry : Bool} (h : Sound hw) (hl : Listed hw)
    (hsta : sleeps hw k = true → (hw.txq k).sta = k.owner) (hroom : Room hw k)
    (hs : hw.txqQueueSkb k skb retry = some hw') : Sound hw' := by
  obtain ⟨u, hu, htxq, hcount⟩ := txqQueueSkb_view hs
  obtain ⟨hlike, -, hlimit, hperm⟩ := enqueue_view hu
  have hstill := still_relisted u.flowCtrlStop
  have hid : u.flowCtrlStop.relisted.psId = (hw.txq k).psId := hstill.psId.trans hlike.psId
  have hpush : u.flowCtrlStop.relisted.pushLimit = (hw.txq k).pushLimit :=
    hstill.pushLimit.trans hlimit
  have hlen : u.flowCtrlStop.relisted.skList.length = (hw.txq k).skList.length+1 := by
    rw [hstill.skList]
    exact hperm.length_eq
  have hkeep : ∀ s, (hw'.sta s).psActive = (hw.sta s).psActive ∧
      (hw'.sta s).underflow = (hw.sta s).underflow := by
    intro s
    rw [hcount]
    unfold inPs
    split <;> exact ⟨rfl, rfl⟩
  refine h.put htxq (fun s => (hkeep s).1) ?_ ((h.entry k).congr (hstill.credits.trans hlike.credits)
    hpush) fun s hk => ⟨(hkeep s).2.trans (h.noUnderflow s), fun hps => ?_⟩
  · intro s hk
    rw [hcount]
    apply inPs_off
    rcases (hl.house k).sta with hnone | hown
    · rw [hnone]
      exact (Option.some_ne_none s).symm
    · rwa [hown]
  · have hold := h.ledger s hps
    have hat : hw'.sta s = (hw.sta s).queued (hw.txq k).psId := by
      rw [hcount, hsta ((sleeps_owner hk).trans hps), hk]
      exact inPs_at hps
    have hfit : (hw.sta s).pktReady (hw.txq k).psId < 2^16-1 := by
      rw [hold.ready]
      exact hroom s hk hps
    have hmem := mem_txqs_iff.mpr hk
    refine ⟨⟨?_, ?_, ?_⟩, ?_⟩
    · intro p
      unfold total
      rw [hat, htxq]
      apply tally_moves (txqs_nodup s) hmem hid hold.ready
      rw [Nat.mod_eq_of_lt (by omega), hlen]
      omega
    · intro p
      unfold granted
      rw [hat, htxq, tally_same hid hpush]
      exact hold.period p
    · intro j hj
      rw [htxq]
      by_cases hjk : j = k
      · subst hjk
        rw [Function.update_self, hpush, hlen]
        exact Nat.le_succ_of_le (hold.limit j hj)
      · rw [Function.update_of_ne hjk]
        exact hold.limit j hj
    · intro p
      rw [hat]
      show Function.update (hw.sta s).pktReady _ _ p < 2^16
      by_cases hp : p = (hw.txq k).psId
      · subst hp
        rw [Function.update_self]
        exact Nat.mod_lt _ (by decide)
      · rw [Function.update_of_ne hp]
        exact hold.word p

/-! ## Pushing -/

/-- A station from which `n` packets of a service period went out. -/
def spent (x : Sta) (p : PsId) (n : ℕ) : Sta :=
  { x with
    pktReady := Function.update x.pktReady p (x.pktReady p-n)
    spCnt := Function.update x.spCnt p (x.spCnt p-n) }

theorem pushed_spent {x : Sta} (hr : 0 < x.pktReady p) (hword : x.pktReady p < 2^16)
    (hc : 0 < x.spCnt p) (hcword : x.spCnt p < 2^16) : x.pushed p = spent x p 1 := by
  have hready : (x.pktReady p+2^16-1) % 2^16 = x.pktReady p-1 := by omega
  have hcnt : (x.spCnt p+2^16-1 % 2^16) % 2^16 = x.spCnt p-1 := by omega
  have hr0 : x.pktReady p ≠ 0 := hr.ne'
  have hc0 : ¬ x.spCnt p < 1 := by omega
  unfold Sta.pushed Sta.spLess spent
  simp only [hready, hcnt, hr0, hc0, decide_false, Bool.or_false]

theorem spent_spent (x : Sta) (p : PsId) (m n : ℕ) :
    spent (spent x p m) p n = spent x p (m+n) := by
  unfold spent
  simp only [Function.update_self, Function.update_idem, Nat.sub_sub]

theorem pushes_spent {n : ℕ} {x : Sta} (hr : n ≤ x.pktReady p) (hword : x.pktReady p < 2^16)
    (hc : n ≤ x.spCnt p) (hcword : x.spCnt p < 2^16) :
    (fun y : Sta => y.pushed p)^[n] x = spent x p n := by
  induction n generalizing x with
  | zero =>
    unfold spent
    simp only [Nat.sub_zero, Function.update_eq_self, Function.iterate_zero_apply]
  | succ n ih =>
    have hone := pushed_spent (Nat.lt_of_lt_of_le n.succ_pos hr) hword
      (Nat.lt_of_lt_of_le n.succ_pos hc) hcword
    have hr1 : (spent x p 1).pktReady p = x.pktReady p-1 := Function.update_self ..
    have hc1 : (spent x p 1).spCnt p = x.spCnt p-1 := Function.update_self ..
    rw [Function.iterate_succ_apply, hone, ih, spent_spent, Nat.add_comm]
    · rw [hr1]
      omega
    · rw [hr1]
      omega
    · rw [hc1]
      omega
    · rw [hc1]
      omega

theorem pushedStas_own {l : List Skb} (hl : ∀ skb ∈ l, skb.sta = some s) {sta : StaId → Sta}
    (hps : (sta s).psActive = true) : pushedStas p l sta =
      Function.update sta s ((fun y : Sta => y.pushed p)^[l.length] (sta s)) := by
  induction l generalizing sta with
  | nil => exact (Function.update_eq_self s sta).symm
  | cons skb l ih =>
    have hfirst : inPs skb.sta (fun x => x.pushed p) sta =
        Function.update sta s ((sta s).pushed p) := by
      rw [hl skb List.mem_cons_self]
      exact inPs_update hps
    show pushedStas p l (inPs skb.sta (fun x => x.pushed p) sta) = _
    rw [hfirst, ih fun x hx => hl x (List.mem_cons_of_mem skb hx)]
    · rw [Function.update_self, Function.update_idem]
      rfl
    · rw [Function.update_self]
      exact hps

theorem pushedStas_idle {l : List Skb} (hl : ∀ skb ∈ l, skb.sta = k.owner)
    (hps : sleeps hw k = false) : pushedStas p l hw.sta = hw.sta := by
  induction l with
  | nil => rfl
  | cons skb l ih =>
    have hfirst : inPs skb.sta (fun x => x.pushed p) hw.sta = hw.sta := by
      rw [hl skb List.mem_cons_self]
      cases hk : k.owner with
      | none => exact inPs_none _ _
      | some s => exact inPs_asleep ((sleeps_owner hk).symm.trans hps)
    show pushedStas p l (inPs skb.sta (fun x => x.pushed p) hw.sta) = _
    rw [hfirst]
    exact ih fun x hx => hl x (List.mem_cons_of_mem skb hx)

theorem abortedStas_zero (hlimit : t.pushLimit = 0) (sta : StaId → Sta) :
    abortedStas t sta = sta :=
  funext fun _ => if_neg fun h => h.2.1 hlimit

theorem granted_le (h : ∀ k, (hw.txq k).pushLimit < 128) (s : StaId) (p : PsId) :
    granted hw s p ≤ 9*127 := by
  have hle : granted hw s p ≤ s.txqs.length*127 := tally_le fun k _ => Nat.lt_succ_iff.mp (h k)
  have hlen : s.txqs.length ≤ 9 := by
    cases s with
    | unicast i => simp [StaId.txqs]
    | multicast vif => simp [StaId.txqs]
  omega

theorem Entry.small (h : Entry ps t) : t.pushLimit < 128 := by
  have hc := h.credits
  have hl := h.limit
  omega

/-- A service period goes out: the counters and the txq lose the same. -/
theorem Ledger.spent (h : Ledger hw s) (hk : k.owner = some s)
    (htxq : hw'.txq = Function.update hw.txq k t) (hid : t.psId = (hw.txq k).psId)
    (hlist : t.skList = (hw.txq k).skList.drop (hw.txq k).pushLimit) (hlimit : t.pushLimit = 0)
    (hsta : hw'.sta s = spent (hw.sta s) (hw.txq k).psId (hw.txq k).pushLimit) :
    Ledger hw' s := by
  have hle := h.limit k (mem_txqs_iff.mpr hk)
  have hlen : t.skList.length = (hw.txq k).skList.length-(hw.txq k).pushLimit := by
    rw [hlist, List.length_drop]
  have hmem := mem_txqs_iff.mpr hk
  have hpaid : (hw.txq k).pushLimit ≤ (hw.sta s).spCnt (hw.txq k).psId := h.limit_le_spCnt hmem
  have hready : (hw.txq k).skList.length ≤ (hw.sta s).pktReady (hw.txq k).psId :=
    h.length_le_pktReady hmem
  refine ⟨⟨fun p => ?_, fun p => ?_, fun j hj => ?_⟩, fun p => ?_⟩
  · unfold total
    rw [hsta, htxq]
    apply tally_moves (txqs_nodup s) hmem hid h.ready
    rw [hlen]
    omega
  · unfold granted
    rw [hsta, htxq]
    apply tally_moves (txqs_nodup s) hmem hid h.period
    rw [hlimit]
    omega
  · rw [htxq]
    by_cases hjk : j = k
    · subst hjk
      rw [Function.update_self, hlimit]
      exact Nat.zero_le _
    · rw [Function.update_of_ne hjk]
      exact h.limit j hj
  · rw [hsta]
    show Function.update (hw.sta s).pktReady _ _ p < 2^16
    by_cases hp : p = (hw.txq k).psId
    · subst hp
      rw [Function.update_self]
      exact Nat.lt_of_le_of_lt (Nat.sub_le _ _) (h.word _)
    · rw [Function.update_of_ne hp]
      exact h.word p

theorem exists_owner (hps : sleeps hw k = true) : ∃ s, k.owner = some s := by
  cases hk : k.owner with
  | none =>
    unfold sleeps at hps
    rw [hk] at hps
    cases hps
  | some s => exact ⟨s, rfl⟩

/-- A turn takes from the counters what it takes from the txq. -/
theorem Sound.serve (h : Sound hw) (hl : Listed hw) (q : HwqId)
    (hlim : sleeps hw k = true → (hw.txq k).pushLimit ≠ 0) : Sound (hw.serve q k) := by
  obtain ⟨htxq, hsta⟩ := serve_view hw q k
  have hlike := like_finished (hw.txq k) q
  have hent := h.entry k
  have hskbs : ∀ skb ∈ (hw.txq k).skList.take (hw.txq k).getSkbToPush.1, skb.sta = k.owner :=
    fun skb hskb => (hl.house k).skbs skb (List.mem_of_mem_take hskb)
  cases hps : sleeps hw k with
  | false =>
    rw [hps] at hent
    have hsame : (hw.serve q k).sta = hw.sta := by
      rw [hsta]
      unfold servedStas
      rw [pushedStas_idle hskbs hps, abortedStas_zero]
      rw [served_pushLimit, hent.idle, Nat.zero_sub]
    apply h.awake ⟨htxq, hsame⟩ hps
    apply hent.clear hlike.credits
    refine (finished_pushLimit _ q).trans ?_
    rw [hent.idle, Nat.zero_sub, ite_self]
  | true =>
    obtain ⟨s, hk⟩ := exists_owner hps
    have hact : (hw.sta s).psActive = true := (sleeps_owner hk).symm.trans hps
    have hold := h.ledger s hact
    have hmem := mem_txqs_iff.mpr hk
    have htake := hent.taken (hlim hps) (hold.limit k hmem)
    have hzero : ((hw.txq k).finished q).pushLimit = 0 := by
      rw [finished_pushLimit, htake, Nat.sub_self, ite_self]
    have hlist : ((hw.txq k).finished q).skList = (hw.txq k).skList.drop (hw.txq k).pushLimit := by
      rw [finished_skList, htake]
    have hspent : (hw.serve q k).sta =
        Function.update hw.sta s (spent (hw.sta s) (hw.txq k).psId (hw.txq k).pushLimit) := by
      rw [hk] at hskbs
      rw [hsta]
      unfold servedStas
      rw [abortedStas_zero, pushedStas_own hskbs hact, htake, List.length_take,
        min_eq_left (hold.limit k hmem), pushes_spent]
      · exact (hold.limit k hmem).trans (hold.length_le_pktReady hmem)
      · exact hold.word _
      · exact hold.limit_le_spCnt hmem
      · rw [hold.period]
        exact Nat.lt_of_le_of_lt (granted_le (fun j => (h.entry j).small) s _) (by decide)
      · rw [served_pushLimit, htake, Nat.sub_self]
    have hoff : ∀ j, j ≠ s → (hw.serve q k).sta j = hw.sta j := fun j hj => by
      rw [hspent, Function.update_of_ne hj]
    have hat : (hw.serve q k).sta s =
        spent (hw.sta s) (hw.txq k).psId (hw.txq k).pushLimit := by
      rw [hspent, Function.update_self]
    apply h.put htxq
    · intro j
      rw [hsta, servedStas_psActive]
    · intro j hj
      apply hoff
      rintro rfl
      exact hj hk
    · exact hent.clear hlike.credits hzero _
    · intro j hj
      obtain rfl := Option.some.inj (hk.symm.trans hj)
      refine ⟨?_, fun _ => hold.spent hk htxq hlike.psId hlist hzero hat⟩
      rw [hat]
      exact h.noUnderflow s

/-! ## Processing -/

/-- The lists that are due hold only what may be pushed. -/
def Ready (due : HwqId → Prop) (hw : Hw) : Prop := ∀ q, due q → Limited hw q

variable {due : HwqId → Prop}

theorem Ready.same (h : Ready due hw) (htxq : hw'.txq = hw.txq) (hsta : hw'.sta = hw.sta)
    (hhwq : ∀ q, (hw'.hwq q).list = (hw.hwq q).list) : Ready due hw' := by
  intro q hq k hk
  rw [hhwq] at hk
  have hsame : sleeps hw' k = sleeps hw k := sleeps_congr (fun s => by rw [hsta]) k
  rw [htxq, hsame]
  exact h q hq k hk

/-- A txq that is served leaves the lists or belongs to nobody who sleeps. -/
theorem Ready.serve (h : Ready due hw) (hs : Sound hw) (q : HwqId)
    (hbit : (hw.txq k).inHwqList = true)
    (hlim : sleeps hw k = true → (hw.txq k).pushLimit ≠ 0) : Ready due (hw.serve q k) := by
  obtain ⟨htxq, hsta⟩ := serve_view hw q k
  have hsleep : ∀ j, sleeps (hw.serve q k) j = sleeps hw j :=
    sleeps_congr fun s => by rw [hsta, servedStas_psActive]
  intro r hr j hj hact hps
  rw [hsleep] at hps
  obtain ⟨hin, hgone⟩ := (serve_mem hw q r j hbit).mp hj
  have hne : j ≠ k := by
    rintro rfl
    obtain ⟨s, hk⟩ := exists_owner hps
    have hled := hs.ledger s ((sleeps_owner hk).symm.trans hps)
    have htake := (hs.entry j).taken (hlim hps) (hled.limit j (mem_txqs_iff.mpr hk))
    rw [htake] at hgone
    exact hgone rfl rfl
  rw [htxq, Function.update_of_ne hne] at hact ⊢
  exact h r hr j hin hact hps

theorem Sound.process {q : HwqId} (h : Sound hw) (hl : Listed hw) (hready : Ready due hw)
    (hq : due q) (hs : hw.hwqProcess q = some hw') : Sound hw' ∧ Listed hw' ∧ Ready due hw' := by
  have hsound : Sound (hw.setHwq q { hw.hwq q with needProcessing := false }) := h.same rfl rfl
  have hlisted : Listed (hw.setHwq q { hw.hwq q with needProcessing := false }) :=
    hl.same rfl (fun p => setProcessing_list hw q p false) (List.Subset.refl _)
  have hdue : Ready due (hw.setHwq q { hw.hwq q with needProcessing := false }) :=
    hready.same rfl rfl fun p => setProcessing_list hw q p false
  refine Lib.CursorLoop.loop_invariant (I := fun hw => Sound hw ∧ Listed hw ∧ Ready due hw)
    (fun hw => (hw.hwq q).linkedOnce) (fun _ _ _ hk h => processTxq_shrinks hk h) ?_
    (fun _ hk => List.mem_of_mem_head? hk) ⟨hsound, hlisted, hdue⟩ hs
  intro hw k hw' hk hturn hinv
  obtain ⟨hbit, ⟨-, rfl⟩ | ⟨hact, -, -, rfl⟩⟩ := processTxq_cases hturn
  · exact hinv
  · obtain ⟨h1, hl1, hr1⟩ := hinv
    have hlim := hr1 q hq k hk hact
    exact ⟨h1.serve hl1 q hlim, hl1.serve q hbit, hr1.serve h1 q hbit hlim⟩

/-- Processing a list makes no other one due. -/
theorem process_needs {q : HwqId} (hs : hw.hwqProcess q = some hw') (r : HwqId)
    (hr : (hw'.hwq r).needProcessing = true) : (hw.hwq r).needProcessing = true := by
  have hloop : ∀ r, (hw'.hwq r).needProcessing = true →
      ((hw.setHwq q { hw.hwq q with needProcessing := false }).hwq r).needProcessing = true := by
    refine Lib.CursorLoop.loop_invariant
      (I := fun hw1 => ∀ r, (hw1.hwq r).needProcessing = true →
        ((hw.setHwq q { hw.hwq q with needProcessing := false }).hwq r).needProcessing = true)
      (fun hw => (hw.hwq q).linkedOnce) (fun _ _ _ hk h => processTxq_shrinks hk h) ?_
      (fun _ hk => List.mem_of_mem_head? hk) (fun _ hr => hr) hs
    intro hw1 k hw2 _ hturn hneeds r hr
    obtain ⟨hbit, ⟨-, rfl⟩ | ⟨-, -, -, rfl⟩⟩ := processTxq_cases hturn
    · exact hneeds r hr
    · apply hneeds
      have hlists := serve_hwq hw1 q hbit
      split at hlists
      · rw [hlists] at hr
        exact hr
      · rcases hlists with hh | hh
        · rwa [hh] at hr
        · rw [hh] at hr
          by_cases hrq : r = q
          · subst hrq
            rwa [Function.update_self] at hr
          · rwa [Function.update_of_ne hrq] at hr
  have hset := hloop r hr
  by_cases hrq : r = q
  · subst hrq
    have hno : (Function.update hw.hwq r { hw.hwq r with needProcessing := false } r).needProcessing
        = true := hset
    rw [Function.update_self] at hno
    cases hno
  · have hyes : (Function.update hw.hwq q { hw.hwq q with needProcessing := false } r).needProcessing
        = true := hset
    rwa [Function.update_of_ne hrq] at hyes

theorem Sound.processAll (h : Sound hw) (hl : Listed hw)
    (hready : Ready (fun q => (hw.hwq q).needProcessing = true) hw)
    (hs : hw.hwqProcessAll = some hw') : Sound hw' := by
  have hinv := exec_preserves (I := fun hw1 => (Sound hw1 ∧ Listed hw1 ∧
      Ready (fun q => (hw.hwq q).needProcessing = true) hw1) ∧
      ∀ q, (hw1.hwq q).needProcessing = true → (hw.hwq q).needProcessing = true)
    (fun hw1 q hw2 hs hi => ?_) ⟨⟨h, hl, hready⟩, fun _ hq => hq⟩ hs
  · exact hinv.1.1
  · obtain ⟨⟨h1, hl1, hr1⟩, hneeds⟩ := hi
    split at hs
    · rename_i hq
      exact ⟨h1.process hl1 hr1 (hneeds q hq) hs, fun r hr => hneeds r (process_needs hs r hr)⟩
    · obtain rfl := Option.some.inj hs
      exact ⟨⟨h1, hl1, hr1⟩, hneeds⟩

/-! ## Init, deinit, start and stop -/

theorem Sound.add (h : Sound hw) (hadd : hw.addToHwList k = some hw') : Sound hw' :=
  h.still (addToHwList_changes hadd) ⟨rfl, rfl, rfl, rfl, rfl, rfl, rfl⟩

theorem Sound.start {reason : Finset StopReason} (h : Sound hw)
    (hs : hw.txqStart k reason = some hw') : Sound hw' :=
  h.still (txqStart_changes hs) (still_started _ reason)

theorem Sound.stop (h : Sound hw) (k : TxqId) (reason : Finset StopReason) :
    Sound (hw.txqStop k reason) :=
  h.still (txqStop_changes hw k reason) (still_stopped _ reason)

theorem Sound.deinit (h : Sound hw) (hps : sleeps hw k = false) : Sound (hw.txqDeinit k) := by
  apply h.awake (txqDeinit_changes hw k) hps
  rw [← hps]
  exact (h.entry k).deinited

theorem Sound.init (h : Sound hw) (hps : sleeps hw k = false) (status : Finset StopReason)
    (hwq : HwqId) (sta : Option StaId) (psId : PsId) :
    Sound (hw.txqInit k status hwq sta psId) :=
  h.awake (changes_setTxq hw k (.fresh k status hwq sta psId)) hps (entry_fresh ..)

theorem Sound.staDeinit (h : Sound hw) (hps : (hw.sta s).psActive = false) :
    Sound (hw.txqStaDeinit s) := by
  obtain ⟨htxq, hsta⟩ := txqStaDeinit_txq hw s
  apply h.station htxq (hsta.trans (Function.update_eq_self s hw.sta).symm)
  · intro k hk
    have hent := h.entry k
    rw [sleeps_owner hk] at hent
    exact hent.deinited
  · exact h.noUnderflow s
  · intro hno
    rw [hps] at hno
    cases hno

/-- A station whose txqs are initialised while it is awake, or wakes up for it. -/
theorem Sound.staInit (h : Sound hw) (s : StaId) (status : Finset StopReason) {x : Sta}
    (hps : x.psActive = false) (hunder : x.underflow = false) :
    Sound ((hw.setSta s x).txqStaInit s status) := by
  obtain ⟨htxq, hsta⟩ := txqStaInit_txq (hw.setSta s x) s status
  apply h.station htxq hsta
  · intro k _
    exact entry_fresh ..
  · exact hunder
  · intro hno
    rw [hps] at hno
    cases hno

theorem Sound.vifInit (h : Sound hw) (vif : ℕ) (status : Finset StopReason) :
    Sound (hw.startAp vif status) := by
  have hbcmc : Sound ((hw.setSta (.multicast vif)
      { hw.sta (.multicast vif) with psActive := false }).txqInit (.bcmc vif) status .be
        (some (.multicast vif)) .legacy) := by
    apply h.station (bcmcInit_txq hw vif status) rfl
    · exact fun k _ => entry_fresh ..
    · exact h.noUnderflow _
    · exact fun hno => (Bool.false_ne_true hno).elim
  exact hbcmc.init rfl status _ _ _

/-! ## Power save -/

theorem countReady_total {ks : List TxqId}
    (hsmall : tally Txq.psId (fun t => t.skList.length) ks hw.txq p < 2^16) :
    hw.countReady p ks = tally Txq.psId (fun t => t.skList.length) ks hw.txq p := by
  induction ks with
  | nil => rfl
  | cons k ks ih =>
    have hsum : tally Txq.psId (fun t => t.skList.length) (k::ks) hw.txq p =
        share Txq.psId (fun t => t.skList.length) p (hw.txq k)+
          tally Txq.psId (fun t => t.skList.length) ks hw.txq p := by
      unfold tally
      rw [List.map_cons, List.sum_cons]
    rw [hsum] at hsmall ⊢
    unfold Hw.countReady
    rw [ih (by omega)]
    exact Nat.mod_eq_of_lt hsmall

theorem group_total (hw : Hw) (vif : ℕ) (p : PsId) : total hw (.multicast vif) p =
    share Txq.psId (fun t => t.skList.length) p (hw.txq (.bcmc vif)) := rfl

theorem psReady_total (hl : Listed hw) (hsmall : total hw s p < 2^16) :
    hw.psReady s p = total hw s p := by
  cases s with
  | unicast i => exact countReady_total hsmall
  | multicast vif =>
    have hid : (hw.txq (.bcmc vif)).psId = .legacy := (hl.house (.bcmc vif)).group vif rfl
    cases p with
    | legacy =>
      rw [group_total, share_eq hid] at hsmall ⊢
      exact Nat.mod_eq_of_lt hsmall
    | uapsd =>
      rw [group_total, share_ne]
      · rfl
      · rw [hid]
        decide

theorem Sound.psEnable (h : Sound hw) (hl : Listed hw)
    (hidle : ∀ k ∈ s.txqs, (hw.txq k).pushLimit = 0)
    (hsmall : ∀ p ∈ [PsId.legacy, .uapsd], total hw s p < 2^16) : Sound (hw.psEnable s) := by
  obtain ⟨htxq, hsta⟩ := psEnable_view hw s
  have hstill : ∀ k, (hw.txq k).Still ((hw.psEnable s).txq k) := by
    intro k
    rw [htxq]
    unfold onStation
    split
    · exact still_stopped _ _
    · exact ⟨rfl, rfl, rfl, rfl, rfl, rfl, rfl⟩
  have hfit : ∀ p, total hw s p < 2^16 := fun p => by
    apply hsmall
    cases p <;> simp
  apply h.station htxq hsta
  · intro k hk
    have hst := still_stopped (hw.txq k) {.staPs}
    exact (h.entry k).clear hst.credits
      (hst.pushLimit.trans (hidle k (mem_txqs_iff.mpr hk))) true
  · exact h.noUnderflow s
  · intro _
    have hat := congrFun hsta s
    rw [Function.update_self] at hat
    have hsame : ∀ p, total (hw.psEnable s) s p = total hw s p := by
      intro p
      apply tally_congr
      intro k _
      simp only [share, (hstill k).psId, (hstill k).skList]
    refine ⟨⟨fun p => ?_, fun p => ?_, fun k hk => ?_⟩, fun p => ?_⟩
    · rw [hsame, ← psReady_total hl (hfit p), hat]
    · rw [hat]
      refine (tally_eq_zero fun k hk _ => ?_).symm
      rw [(hstill k).pushLimit]
      exact hidle k hk
    · rw [(hstill k).pushLimit, hidle k hk]
      exact Nat.zero_le _
    · rw [hat]
      show hw.psReady s p < _
      rw [psReady_total hl (hfit p)]
      exact hfit p

theorem Sound.psDisable (h : Sound hw) (hs : hw.psDisable s = some hw') : Sound hw' := by
  obtain ⟨htxq, hsta⟩ := psDisable_view hs
  apply h.station htxq hsta
  · intro k _
    have hst := still_started ((hw.txq k).released s) {.staPs}
    exact (h.entry k).clear hst.credits hst.pushLimit _
  · exact h.noUnderflow s
  · exact fun hno => (Bool.false_ne_true hno).elim

theorem Sound.spInterrupt (h : Sound hw) (hps : (hw.sta s).psActive = true)
    (hidle : ∀ k ∈ s.txqs, (hw.txq k).psId = .legacy → (hw.txq k).pushLimit = 0) :
    Sound (hw.spInterrupt s) := by
  obtain ⟨htxq, hsta⟩ := spInterrupt_view hw s
  have hold := h.ledger s hps
  apply h.station htxq hsta
  · exact fun k _ => (h.entry k).clear (by rfl) (by rfl) _
  · exact h.noUnderflow s
  · intro _
    have hat := congrFun hsta s
    rw [Function.update_self] at hat
    have hin : ∀ k ∈ s.txqs, (hw.spInterrupt s).txq k = { hw.txq k with pushLimit := 0 } := by
      intro k hk
      rw [htxq]
      exact if_pos (mem_txqs_iff.mp hk)
    refine ⟨⟨fun p => ?_, fun p => ?_, fun k hk => ?_⟩, fun p => ?_⟩
    · have hsame : total (hw.spInterrupt s) s p = total hw s p := by
        apply tally_congr
        intro k hk
        rw [hin k hk]
        rfl
      rw [hsame, ← hold.ready, hat]
    · have hzero : granted (hw.spInterrupt s) s p = 0 := by
        apply tally_eq_zero
        intro k hk _
        rw [hin k hk]
      rw [hzero, hat]
      show Function.update (hw.sta s).spCnt _ 0 p = 0
      cases p with
      | uapsd => exact Function.update_self ..
      | legacy =>
        rw [Function.update_of_ne (by decide), hold.period]
        exact tally_eq_zero hidle
    · rw [hin k hk]
      exact Nat.zero_le _
    · rw [hat]
      exact hold.word p

/-! ## Service periods -/

/-- A service period is entered in the txq and in the counter of the station. -/
theorem Sound.grant (h : Sound hw) (hk : k.owner = some s) (hps : (hw.sta s).psActive = true)
    (hid : (hw.txq k).psId = p) (hzero : (hw.txq k).pushLimit = 0) {n : ℕ}
    (hcred : (n : ℤ) ≤ (hw.txq k).credits) (hlen : n ≤ (hw.txq k).skList.length) :
    Sound (hw.spGrant s p k n) := by
  subst hid
  have hent := h.entry k
  have hold := h.ledger s hps
  have hc := hent.credits
  have hn : n % 2^8 = n := by omega
  have hle := granted_le (fun j => (h.entry j).small) s (hw.txq k).psId
  rw [← hold.period] at hle
  have hat : (hw.spGrant s (hw.txq k).psId k n).sta s = (hw.sta s).grant (hw.txq k).psId n :=
    Function.update_self ..
  have hoff : ∀ j, j ≠ s → (hw.spGrant s (hw.txq k).psId k n).sta j = hw.sta j :=
    fun j hj => Function.update_of_ne hj ..
  apply h.put (t := { hw.txq k with pushLimit := n % 2^8 }) rfl
  · intro j
    by_cases hj : j = s
    · subst hj
      rw [hat]
      rfl
    · rw [hoff j hj]
  · intro j hj
    apply hoff
    rintro rfl
    exact hj hk
  · refine ⟨hent.credits, ?_, fun _ => (sleeps_owner hk).trans hps⟩
    show ((n % 2^8 : ℕ) : ℤ) ≤ _
    rw [hn]
    exact hcred
  · intro j hj
    obtain rfl := Option.some.inj (hk.symm.trans hj)
    have hmem := mem_txqs_iff.mpr hk
    refine ⟨?_, fun _ => ⟨⟨fun p => ?_, fun p => ?_, fun j hj => ?_⟩, fun p => ?_⟩⟩
    · rw [hat]
      exact h.noUnderflow s
    · rw [hat]
      exact (hold.ready p).trans (tally_same (by rfl) (by rfl)).symm
    · rw [hat]
      apply tally_moves (t := { hw.txq k with pushLimit := n % 2^8 }) (txqs_nodup s) hmem rfl
        hold.period
      show ((hw.sta s).spCnt (hw.txq k).psId+n) % 2^16+(hw.txq k).pushLimit = _+n % 2^8
      omega
    · show (Function.update hw.txq k _ j).pushLimit ≤ (Function.update hw.txq k _ j).skList.length
      by_cases hjk : j = k
      · subst hjk
        rw [Function.update_self]
        show n % 2^8 ≤ _
        rw [hn]
        exact hlen
      · rw [Function.update_of_ne hjk]
        exact hold.limit j hj
    · rw [hat]
      exact hold.word p

theorem Sound.dispatch {ks : List TxqId} {req : ℕ} (h : Sound hw)
    (hks : ∀ k ∈ ks, k.owner = some s) (hnodup : ks.Nodup) (hps : (hw.sta s).psActive = true)
    (hzero : ∀ k ∈ ks, (hw.txq k).psId = p → (hw.txq k).pushLimit = 0)
    (hs : Hw.dispatch s p hw req ks = some hw') : Sound hw' := by
  induction ks generalizing hw req with
  | nil => exact Option.some.inj hs ▸ h
  | cons k ks ih =>
    have hown := hks k List.mem_cons_self
    have hrest : ∀ j ∈ ks, j.owner = some s := fun j hj => hks j (List.mem_cons_of_mem k hj)
    have hout : ∀ j ∈ ks, j ≠ k := by
      rintro j hj rfl
      exact (List.nodup_cons.mp hnodup).1 hj
    obtain ⟨hlen, hcred⟩ := spLen_le (h.entry k).credits
    unfold Hw.dispatch at hs
    dsimp only at hs
    split at hs
    · exact ih h hrest (List.nodup_cons.mp hnodup).2 hps
        (fun j hj => hzero j (List.mem_cons_of_mem k hj)) hs
    · rename_i hgo
      push Not at hgo
      have hnone := hzero k List.mem_cons_self hgo.1
      split at hs
      · obtain ⟨u, hu, hmore⟩ := Option.bind_eq_some_iff.mp hs
        have hch := addToHwList_changes hu
        refine ih ((h.grant hown hps hgo.1 hnone hcred hlen).add hu) hrest
          (List.nodup_cons.mp hnodup).2 ?_ ?_ hmore
        · rw [hch.sta]
          show (Function.update hw.sta s _ s).psActive = true
          rw [Function.update_self]
          exact hps
        · intro j hj
          have hsame : u.txq j = hw.txq j := (hch.off (hout j hj)).trans
            (Function.update_of_ne (hout j hj) _ hw.txq)
          rw [hsame]
          exact hzero j (List.mem_cons_of_mem k hj)
      · rename_i hmore
        have hfit := not_lt.mp hmore
        exact (h.grant hown hps hgo.1 hnone (by omega) (hfit.trans hlen)).add hs

theorem adaptReq_le {req : ℕ} (h : 0 < hw.readyAll s p) :
    (hw.adaptReq s p req : ℤ) ≤ hw.readyAll s p := by
  unfold Hw.adaptReq
  split
  · exact (Int.toNat_of_nonneg h.le).le
  · rename_i hno
    push Not at hno
    exact hno.2

theorem prio_nodup (i : ℕ) : (nxTidPrio.map (StaId.unicast i).txqGet).Nodup := by
  apply List.Nodup.map_on _ (by decide)
  have hget : ∀ tid ∈ nxTidPrio, ((StaId.unicast i).txqGet tid).tid = tid := by
    intro tid htid
    have hlt : tid < NX_NB_TXQ_PER_STA := (by decide : ∀ n ∈ nxTidPrio, n < NX_NB_TXQ_PER_STA) tid htid
    unfold StaId.txqGet
    dsimp only
    rw [dif_pos hlt]
    rfl
  intro a ha b hb hab
  rw [← hget a ha, hab, hget b hb]

theorem Sound.dispatchMulticast {vif req : ℕ} (h : Sound hw)
    (hstarts : hw.spStarts (.multicast vif) p) (hreq : (req : ℤ) ≤ hw.readyAll (.multicast vif) p)
    (hs : hw.dispatchMulticast vif p req = some hw') : Sound hw' := by
  obtain ⟨hps, hcnt, hready⟩ := hstarts
  have hold := h.ledger _ hps
  have hc := (h.entry (.bcmc vif)).credits
  have hall : hw.readyAll (.multicast vif) p = total hw (.multicast vif) p := by
    unfold Hw.readyAll
    rw [hcnt, hold.ready, Nat.cast_zero, sub_zero]
  have hid : (hw.txq (.bcmc vif)).psId = p := by
    by_contra hno
    rw [hall, group_total, share_ne hno] at hready
    exact absurd hready (lt_irrefl 0)
  have hzero : (hw.txq (.bcmc vif)).pushLimit = 0 := by
    have hle := hold.limit_le_spCnt (k := .bcmc vif) (List.mem_singleton_self _)
    rw [hid, hcnt] at hle
    exact Nat.le_zero.mp hle
  rw [hall, group_total, share_eq hid] at hreq
  unfold Hw.dispatchMulticast at hs
  extract_lets k s n at hs
  have hn : (n : ℤ) ≤ (hw.txq k).credits ∧ n ≤ (hw.txq k).skList.length := by
    show ((if (hw.txq k).credits < req then ((hw.txq k).credits % 2^16).toNat else req : ℕ) : ℤ) ≤ _ ∧
      (if (hw.txq k).credits < req then ((hw.txq k).credits % 2^16).toNat else req) ≤ _
    have hk : 0 ≤ (hw.txq k).credits ∧ (hw.txq k).credits < 128 := hc
    have hlen : (req : ℤ) ≤ ((hw.txq k).skList.length : ℕ) := hreq
    split <;> omega
  have hgrant := h.grant (k := k) rfl hps hid hzero hn.1 hn.2
  have hk : (hw.txq k).credits < 128 := hc.2
  have hsame := spGrant_idle (s := s) (n := n) hw k hcnt (by omega)
  rw [hsame] at hgrant
  exact hgrant.add hs

theorem Sound.trafficReq {req : ℕ} (h : Sound hw)
    (hidle : (hw.sta s).psActive = true → req = PS_SP_INTERRUPTED → p = .uapsd →
      ∀ k ∈ s.txqs, (hw.txq k).psId = .legacy → (hw.txq k).pushLimit = 0)
    (hs : hw.psBhTrafficReq s req p = some hw') : Sound hw' := by
  obtain rfl | ⟨hps, hreq, hp, rfl⟩ | ⟨hstarts, ⟨i, rfl, hs⟩ | ⟨vif, rfl, hs⟩⟩ :=
    psBhTrafficReq_cases hs
  · exact h
  · exact h.spInterrupt hps (hidle hps hreq hp)
  · have hown : ∀ k ∈ nxTidPrio.map (StaId.unicast i).txqGet, k.owner = some (.unicast i) := by
      intro k hk
      obtain ⟨tid, -, rfl⟩ := List.mem_map.mp hk
      exact txqGet_owner _ tid
    refine h.dispatch hown (prio_nodup i) hstarts.1 (fun k hk hid => ?_) hs
    have hle := (h.ledger _ hstarts.1).limit_le_spCnt (mem_txqs_iff.mpr (hown k hk))
    rw [hid, hstarts.2.1] at hle
    exact Nat.le_zero.mp hle
  · exact h.dispatchMulticast hstarts (adaptReq_le hstarts.2.2) hs

/-! ## Confirmations -/

theorem Sound.confirmAny (h : Sound hw) (f : Pushed) : Sound (hw.txqConfirmAny f) :=
  h.still (txqConfirmAny_changes hw f) ⟨rfl, rfl, rfl, rfl, rfl, rfl, rfl⟩

theorem Room.congr (h : Room hw k) (hsta : hw'.sta = hw.sta)
    (htxq : ∀ j, (hw'.txq j).psId = (hw.txq j).psId ∧ (hw'.txq j).skList = (hw.txq j).skList) :
    Room hw' k := by
  intro s hk hps
  rw [hsta] at hps
  have hsame : total hw' s (hw'.txq k).psId = total hw s (hw.txq k).psId := by
    rw [(htxq k).1]
    apply tally_congr
    intro j _
    simp only [share, (htxq j).1, (htxq j).2]
  rw [hsame]
  exact h s hk hps

theorem Sound.retry {f : Pushed} (h : Sound hw) (hl : Listed hw)
    (hact : (hw.txq f.txq).active = true) (hcred : (hw.txq f.txq).credits < 127)
    (hroom : Room hw f.txq) (hs : hw.txRetry f = some hw') : Sound hw' := by
  obtain ⟨u, hu, hrest⟩ := Option.bind_eq_some_iff.mp hs
  have hch := changes_setTxq hw f.txq (hw.txq f.txq).addCredit
  have hset : Sound (hw.setTxq f.txq (hw.txq f.txq).addCredit) :=
    h.keep hch ((h.entry f.txq).credit hcred) rfl rfl rfl
  have hlset : Listed (hw.setTxq f.txq (hw.txq f.txq).addCredit) :=
    hl.set ⟨rfl, rfl, rfl, rfl, rfl, rfl⟩
  have hrset : Room (hw.setTxq f.txq (hw.txq f.txq).addCredit) f.txq :=
    hroom.congr rfl (hch.kept rfl rfl)
  have hstart : Sound u ∧ Listed u ∧ Room u f.txq ∧ (u.txq f.txq).active = true := by
    split at hu
    · have hgo := txqStart_changes hu
      have hst := still_started ((hw.setTxq f.txq (hw.txq f.txq).addCredit).txq f.txq) {.full}
      refine ⟨hset.start hu, hlset.start hu, hrset.congr hgo.sta (hgo.kept hst.psId hst.skList), ?_⟩
      rw [hgo.at, hst.active, hch.at]
      exact hact
    · obtain rfl := Option.some.inj hu
      refine ⟨hset, hlset, hrset, ?_⟩
      rw [hch.at]
      exact hact
  obtain ⟨hsound, hlisted, hfit, hused⟩ := hstart
  exact hsound.queue hlisted (fun _ => (hlisted.house f.txq).used hused) hfit hrest

theorem Sound.continueSp (h : Sound hw) (hs : hw.continueSp k = some hw') : Sound hw' := by
  unfold Hw.continueSp at hs
  split at hs
  · exact h.add hs
  · exact Option.some.inj hs ▸ h

theorem Sound.txdatacfm {i : ℕ} {busDown retry : Bool} (h : Sound hw) (hl : Listed hw)
    (hretry : ∀ f ∈ hw.pushed[i]?, busDown = false → retry = true → f.skb.mgmt = false →
      (hw.txq f.txq).active = true → (hw.txq f.txq).credits < 127 ∧ Room hw f.txq)
    (hs : hw.txdatacfm i busDown retry = some hw') : Sound hw' := by
  have hless : Sound { hw with pushed := hw.pushed.eraseIdx i } := h.same rfl rfl
  have hlless : Listed { hw with pushed := hw.pushed.eraseIdx i } :=
    hl.same rfl (fun _ => rfl) (List.eraseIdx_sublist hw.pushed i).subset
  obtain rfl | ⟨f, hf, rfl | ⟨hbus, hmgmt, hact, hret, hs⟩ | hs⟩ := txdatacfm_cases hs
  · exact h
  · exact hless
  · have hch := txqConfirmAny_changes { hw with pushed := hw.pushed.eraseIdx i } f
    obtain ⟨hcred, hroom⟩ := hretry f hf hbus hret hmgmt hact
    apply (hless.confirmAny f).retry (hlless.confirmAny f) _ _ _ hs
    · rw [hch.at]
      exact hact
    · rw [hch.at]
      exact hcred
    · exact hroom.congr hch.sta (hch.kept rfl rfl)
  · exact (hless.confirmAny f).continueSp hs

theorem Sound.creditUpdate {tid : ℕ} (h : Sound hw)
    (hs : hw.txqCreditUpdate s tid = some hw') : Sound hw' := by
  obtain rfl | rfl | hs := txqCreditUpdate_cases hs
  · exact h
  · exact h.stop _ _
  · exact h.start hs

/-! ## Runs -/

theorem init_sound : Sound init :=
  ⟨fun _ => ⟨⟨le_rfl, (by decide : (0 : ℤ) < 128)⟩, le_rfl, fun hno => absurd rfl hno⟩,
    fun _ hno => (Bool.false_ne_true hno).elim, fun _ => rfl⟩

theorem step_sound {a : Act} (hc : Accountable hw a) (hs : step hw a = some hw') (hl : Listed hw)
    (h : Sound hw) : Sound hw' := by
  cases a with
  | startAp vif status => exact Option.some.inj hs ▸ h.vifInit vif status
  | addStation i uapsdTids tdlsActive status =>
    obtain rfl := Option.some.inj hs
    exact h.staInit (.unicast i) status hc (h.noUnderflow _)
  | smConnectInd i vif status tdls =>
    obtain rfl := Option.some.inj hs
    have hsta := h.staInit (.unicast i) status (x := { hw.sta (.unicast i) with psActive := false })
      rfl (h.noUnderflow _)
    unfold Hw.smConnectInd
    dsimp only
    split
    · exact hsta.init rfl ∅ .vo none .legacy
    · exact hsta
  | txqUnkVifInit vif =>
    obtain rfl := Option.some.inj hs
    exact h.init (k := .unk vif) rfl ∅ .vo none .legacy
  | txqOffchanInit =>
    obtain rfl := Option.some.inj hs
    exact h.init (k := .offchan) rfl {.chan} .vo none .legacy
  | txqVifDeinit vif => exact Option.some.inj hs ▸ (h.deinit (k := .bcmc vif) hc).deinit rfl
  | txqStaDeinit s => exact Option.some.inj hs ▸ h.staDeinit hc
  | txqDeinit k => exact Option.some.inj hs ▸ h.deinit hc
  | txqStart k reason => exact h.start hs
  | txqStop k reason => exact Option.some.inj hs ▸ h.stop k reason
  | xmit d mgmt mesh =>
    have hsame : Sound { hw with nextSkb := hw.nextSkb+1 } := h.same rfl rfl
    have hlsame : Listed { hw with nextSkb := hw.nextSkb+1 } :=
      hl.same rfl (fun _ => rfl) (List.Subset.refl _)
    have hq : hw.xmit d.txq d.station mgmt mesh = some hw' := hs
    refine hsame.queue hlsame (fun hps => ?_) hc.2 hq
    rw [dest_owner]
    exact hc.1 hps
  | hwqProcess q =>
    have hready : Ready (· = q) hw := by
      rintro r rfl
      exact hc
    exact (h.process hl hready rfl hs).1
  | hwqProcessAll =>
    apply h.processAll hl _ hs
    intro q hq
    apply hc q _ hq
    cases q <;> decide
  | txdatacfm i busDown retry => exact h.txdatacfm hl hc hs
  | txqCreditUpdate s tid => exact h.creditUpdate hs
  | psBhEnable s enable =>
    cases enable with
    | true => exact Option.some.inj hs ▸ h.psEnable hl (hc rfl).1 (hc rfl).2
    | false => exact h.psDisable hs
  | psBhTrafficReq s req p => exact h.trafficReq hc hs

theorem run_sound {acts : List Act} {hw : Hw} (h : Meets step Accountable init acts)
    (hrun : exec step init acts = some hw) : Sound hw ∧ Listed hw :=
  exec_invariant (I := fun hw => Sound hw ∧ Listed hw)
    (fun _ _ _ hc hs hi => ⟨step_sound hc hs hi.2 hi.1, step_listed hs hi.2⟩)
    ⟨init_sound, init_listed⟩ h hrun

theorem run_balanced {acts : List Act} {hw : Hw} (h : Meets step Accountable init acts)
    (hrun : exec step init acts = some hw) : Balanced hw := by
  have hsound := (run_sound h hrun).1
  exact ⟨fun s hs => (hsound.ledger s hs).toAccounts, hsound.noUnderflow⟩

def sleepRun : List Act :=
  [.smConnectInd 0 0 ∅ false, .xmit (.sta (.unicast 0) 0) false false,
    .xmit (.sta (.unicast 0) 0) false false, .psBhEnable (.unicast 0) true,
    .psBhTrafficReq (.unicast 0) 1 .legacy, .xmit (.sta (.unicast 0) 5) false false, .hwqProcess .be,
    .psBhEnable (.unicast 0) true, .psBhTrafficReq (.unicast 0) PS_SP_INTERRUPTED .uapsd,
    .psBhTrafficReq (.unicast 0) 0 .legacy]

/-- A service period of two packets, one for each of two txqs. -/
theorem run_balanced_sample :
    Balanced ((exec step init sleepRun).get (by decide +kernel)) ∧
      (((exec step init sleepRun).get (by decide +kernel)).sta (.unicast 0)).pktReady .legacy = 2 ∧
      (((exec step init sleepRun).get (by decide +kernel)).sta (.unicast 0)).spCnt .legacy = 2 := by
  have hrun : exec step init sleepRun =
      some ((exec step init sleepRun).get (by decide +kernel)) := (Option.some_get _).symm
  exact ⟨run_balanced (by decide +kernel) hrun, by decide +kernel, by decide +kernel⟩

/-- Sleep that is entered again, or an interruption of the other kind, leaves one of the two sides
of a service period, and an interruption of a txq that is linked lets it push what is not paid
for. -/
theorem interrupted_period_unbalanced :
    (∃ hw, exec step init
        [.smConnectInd 0 0 ∅ false, .xmit (.sta (.unicast 0) 0) false false,
          .psBhEnable (.unicast 0) true, .psBhTrafficReq (.unicast 0) 1 .legacy,
          .psBhEnable (.unicast 0) true] = some hw ∧ ¬ Balanced hw) ∧
      (∃ hw, exec step init
        [.smConnectInd 0 0 ∅ false, .xmit (.sta (.unicast 0) 0) false false,
          .psBhEnable (.unicast 0) true, .psBhTrafficReq (.unicast 0) 1 .legacy,
          .psBhTrafficReq (.unicast 0) PS_SP_INTERRUPTED .uapsd] = some hw ∧ ¬ Balanced hw) ∧
      ∃ hw, exec step init
        [.addStation 0 1 false ∅, .xmit (.sta (.unicast 0) 0) false false,
          .psBhEnable (.unicast 0) true, .psBhTrafficReq (.unicast 0) 1 .uapsd,
          .psBhTrafficReq (.unicast 0) PS_SP_INTERRUPTED .uapsd, .hwqProcess .be] = some hw ∧
        (hw.sta (.unicast 0)).spCnt .uapsd = 65535 ∧ ¬ Balanced hw := by
  have hperiod : ∀ {hw : Hw}, (hw.sta (.unicast 0)).psActive = true →
      (hw.sta (.unicast 0)).spCnt .legacy ≠ granted hw (.unicast 0) .legacy → ¬ Balanced hw :=
    fun hps hne hb => hne ((hb.accounts _ hps).period .legacy)
  have hunder : ∀ {hw : Hw}, (hw.sta (.unicast 0)).underflow = true → ¬ Balanced hw := by
    intro hw hyes hb
    rw [hb.noUnderflow] at hyes
    cases hyes
  refine ⟨⟨_, (Option.some_get (by decide +kernel)).symm, hperiod ?_ ?_⟩,
    ⟨_, (Option.some_get (by decide +kernel)).symm, hperiod ?_ ?_⟩,
    ⟨_, (Option.some_get (by decide +kernel)).symm, ?_, hunder ?_⟩⟩ <;> decide +kernel

end AIC.TxqAccounting
