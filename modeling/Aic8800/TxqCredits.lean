import Aic8800.TxqTurns

/-!
# The credits of the txqs

A push takes no credit and no confirmation gives one back, so a txq keeps the
credits it was initialised with. A buffer that is sent again adds one each time,
and nothing takes it away: the credits leave their range with the first retry.
-/

set_option autoImplicit false

namespace AIC.TxqCredits
open AIC.TxqMachine Lib.GuardedRun

/-- The credits are in range or the txq is stopped for them, and the processing of a hardware
queue meets no txq without credits. -/
structure InRange (hw : Hw) : Prop where
  range : ∀ k, (hw.txq k).active = true →
    1 ≤ (hw.txq k).credits ∧ (hw.txq k).credits ≤ NX_TXQ_INITIAL_CREDITS ∨
      (hw.txq k).isFull = true
  processed : ∀ q, ∀ k ∈ (hw.hwq q).list, (hw.txq k).active = true → 0 < (hw.txq k).credits

/-- A data buffer of an active txq comes back to be sent again. -/
def Retries (hw : Hw) : Act → Prop
  | .txdatacfm i busDown retry => ∃ f ∈ hw.pushed[i]?, busDown = false ∧ retry = true ∧
      f.skb.mgmt = false ∧ (hw.txq f.txq).active = true
  | _ => False

instance (hw : Hw) (a : Act) : Decidable (Retries hw a) := by
  induction a using Act.casesOn <;> dsimp only [Retries] <;> infer_instance

/-! ## The entry of a txq -/

/-- An active txq has the credits it had, or those of a txq that is new. -/
def Credited (t u : Txq) : Prop := u.active = true →
  u.credits = NX_TXQ_INITIAL_CREDITS ∨ t.active = true ∧ u.credits = t.credits

variable {t u v : Txq}

theorem Credited.trans (h : Credited t u) (h' : Credited u v) : Credited t v := by
  intro hact
  rcases h' hact with hnew | ⟨hu, hsame⟩
  · exact .inl hnew
  · rw [hsame]
    exact h hu

theorem credited_same (hact : u.active = t.active) (hcred : u.credits = t.credits) :
    Credited t u :=
  fun h => .inr ⟨hact ▸ h, hcred⟩

theorem credited_fresh (t : Txq) (k : TxqId) (status : Finset StopReason) (hwq : HwqId)
    (sta : Option StaId) (psId : PsId) : Credited t (.fresh k status hwq sta psId) :=
  fun _ => .inl rfl

theorem credited_deinited (t : Txq) : Credited t t.deinited := by
  unfold Txq.deinited
  split
  · exact fun hno => (Bool.false_ne_true hno).elim
  · exact credited_same rfl rfl

theorem credited_of_still (h : Txq.Still t u) : Credited t u := credited_same h.active h.credits

theorem credited_of_like (h : Txq.Like t u) : Credited t u := credited_same h.active h.credits

theorem credited_released (s : StaId) (t : Txq) (reason : Finset StopReason) :
    Credited t ((t.released s).started reason) := by
  have hrel : Credited t (t.released s) := credited_same rfl rfl
  exact hrel.trans (credited_of_still (still_started _ reason))

theorem credited_queued {skb : Skb} {retry : Bool} (h : t.enqueue skb retry = some u) :
    Credited t u.flowCtrlStop.relisted := by
  have hlike := (enqueue_view h).1
  have hflow : Credited t u.flowCtrlStop := credited_same hlike.active hlike.credits
  exact hflow.trans (credited_of_still (still_relisted _))

/-! ## Every txq -/

def Funds (hw hw' : Hw) : Prop := ∀ k, Credited (hw.txq k) (hw'.txq k)

variable {hw hw' hw'' : Hw} {k : TxqId} {s : StaId}

theorem Funds.trans (h : Funds hw hw') (h' : Funds hw' hw'') : Funds hw hw'' :=
  fun k => (h k).trans (h' k)

theorem funds_same (h : hw'.txq = hw.txq) : Funds hw hw' := by
  intro k
  rw [h]
  exact credited_same rfl rfl

theorem funds_put (h : hw'.txq = Function.update hw.txq k t) (hk : Credited (hw.txq k) t) :
    Funds hw hw' := by
  intro j
  rw [h]
  by_cases hj : j = k
  · subst hj
    rwa [Function.update_self]
  · rw [Function.update_of_ne hj]
    exact credited_same rfl rfl

theorem funds_changes (h : Changes k t hw hw') (hk : Credited (hw.txq k) t) : Funds hw hw' :=
  funds_put h.txq hk

theorem funds_station {g : TxqId → Txq → Txq} (h : hw'.txq = onStation s g hw.txq)
    (hg : ∀ j t, Credited t (g j t)) : Funds hw hw' := by
  intro j
  rw [h]
  unfold onStation
  split
  · exact hg j _
  · exact credited_same rfl rfl

theorem funds_init (hw : Hw) (k : TxqId) (status : Finset StopReason) (q : HwqId)
    (sta : Option StaId) (psId : PsId) : Funds hw (hw.txqInit k status q sta psId) :=
  funds_changes (changes_setTxq hw k _) (credited_fresh _ k status q sta psId)

theorem funds_staInit (hw : Hw) (s : StaId) (status : Finset StopReason) :
    Funds hw (hw.txqStaInit s status) :=
  funds_station (txqStaInit_txq hw s status).1 fun _ _ => credited_fresh _ _ _ _ _ _

theorem funds_deinit (hw : Hw) (k : TxqId) : Funds hw (hw.txqDeinit k) :=
  funds_changes (txqDeinit_changes hw k) (credited_deinited _)

theorem funds_stop (hw : Hw) (k : TxqId) (reason : Finset StopReason) :
    Funds hw (hw.txqStop k reason) :=
  funds_changes (txqStop_changes hw k reason) (credited_of_still (still_stopped _ reason))

theorem funds_start {reason : Finset StopReason} (h : hw.txqStart k reason = some hw') :
    Funds hw hw' :=
  funds_changes (txqStart_changes h) (credited_of_still (still_started _ reason))

theorem funds_add (h : hw.addToHwList k = some hw') : Funds hw hw' :=
  funds_changes (addToHwList_changes h) (credited_same rfl rfl)

theorem funds_queue {skb : Skb} {retry : Bool} (h : hw.txqQueueSkb k skb retry = some hw') :
    Funds hw hw' := by
  obtain ⟨u, hu, htxq, -⟩ := txqQueueSkb_view h
  exact funds_put htxq (credited_queued hu)

/-! ## Processing -/

theorem funds_process {q : HwqId} (h : hw.hwqProcess q = some hw') : Funds hw hw' := by
  have hstart : Funds hw (hw.setHwq q { hw.hwq q with needProcessing := false }) := funds_same rfl
  refine Lib.CursorLoop.loop_invariant (I := Funds hw) (fun hw => (hw.hwq q).linkedOnce)
    (fun _ _ _ hk h => processTxq_shrinks hk h) ?_ (fun _ hk => List.mem_of_mem_head? hk) hstart h
  intro hw₁ k hw₂ _ hturn hf
  obtain ⟨-, ⟨-, rfl⟩ | ⟨-, -, -, rfl⟩⟩ := processTxq_cases hturn
  · exact hf
  · exact hf.trans (funds_put (serve_view hw₁ q k).1 (credited_of_like (like_finished _ q)))

theorem funds_processAll (h : hw.hwqProcessAll = some hw') : Funds hw hw' := by
  refine exec_preserves (I := Funds hw) (fun hw₁ q hw₂ hs hf => ?_) (funds_same rfl) h
  split at hs
  · exact hf.trans (funds_process hs)
  · exact Option.some.inj hs ▸ hf

/-! ## Power save and confirmations -/

/-- The station of the txq is charged at the same time. -/
theorem funds_limit (hw : Hw) (k : TxqId) (n : ℕ) (s : StaId) (x : Sta) :
    Funds hw ((hw.setTxq k { hw.txq k with pushLimit := n }).setSta s x) :=
  funds_put (k := k) (t := { hw.txq k with pushLimit := n }) rfl (credited_same rfl rfl)

theorem funds_dispatch {p : PsId} {ks : List TxqId} {req : ℕ}
    (h : Hw.dispatch s p hw req ks = some hw') : Funds hw hw' := by
  induction ks generalizing hw req with
  | nil => exact Option.some.inj h ▸ funds_same rfl
  | cons k ks ih =>
    unfold Hw.dispatch at h
    dsimp only at h
    split at h
    · exact ih h
    · split at h
      · obtain ⟨u, hu, hrest⟩ := Option.bind_eq_some_iff.mp h
        exact (funds_limit hw k _ s _).trans ((funds_add hu).trans (ih hrest))
      · exact (funds_limit hw k _ s _).trans (funds_add h)

theorem funds_multicast {vif req : ℕ} {p : PsId} (h : hw.dispatchMulticast vif p req = some hw') :
    Funds hw hw' := by
  unfold Hw.dispatchMulticast at h
  extract_lets k s n at h
  exact (funds_limit hw k _ s _).trans (funds_add h)

theorem funds_trafficReq {req : ℕ} {p : PsId} (h : hw.psBhTrafficReq s req p = some hw') :
    Funds hw hw' := by
  obtain rfl | ⟨-, -, -, rfl⟩ | ⟨-, ⟨i, -, h⟩ | ⟨vif, -, h⟩⟩ := psBhTrafficReq_cases h
  · exact funds_same rfl
  · exact funds_station (spInterrupt_view hw s).1 fun _ _ => credited_same rfl rfl
  · exact funds_dispatch h
  · exact funds_multicast h

theorem funds_psBhEnable {enable : Bool} (h : hw.psBhEnable s enable = some hw') :
    Funds hw hw' := by
  cases enable with
  | true =>
    obtain rfl := Option.some.inj h
    exact funds_station (psEnable_view hw s).1 fun _ t => credited_of_still (still_stopped t _)
  | false => exact funds_station (psDisable_view h).1 fun _ t => credited_released s t _

theorem funds_confirmAny (hw : Hw) (f : Pushed) : Funds hw (hw.txqConfirmAny f) :=
  funds_changes (txqConfirmAny_changes hw f) (credited_same rfl rfl)

theorem funds_continueSp (h : hw.continueSp k = some hw') : Funds hw hw' := by
  unfold Hw.continueSp at h
  split at h
  · exact funds_add h
  · exact Option.some.inj h ▸ funds_same rfl

theorem funds_txdatacfm {i : ℕ} {busDown retry : Bool}
    (hno : ¬ Retries hw (.txdatacfm i busDown retry))
    (h : hw.txdatacfm i busDown retry = some hw') : Funds hw hw' := by
  obtain rfl | ⟨f, hf, rfl | ⟨hup, hdata, hact, hretry, -⟩ | h⟩ := txdatacfm_cases h
  · exact funds_same rfl
  · exact funds_same rfl
  · exact (hno ⟨f, hf, hup, hretry, hdata, hact⟩).elim
  · have hless : Funds hw { hw with pushed := hw.pushed.eraseIdx i } := funds_same rfl
    exact hless.trans ((funds_confirmAny _ f).trans (funds_continueSp h))

theorem funds_creditUpdate {tid : ℕ} (h : hw.txqCreditUpdate s tid = some hw') : Funds hw hw' := by
  obtain rfl | rfl | h := txqCreditUpdate_cases h
  · exact funds_same rfl
  · exact funds_stop hw _ _
  · exact funds_start h

/-- Only a buffer that is sent again changes the credits of a txq. -/
theorem step_funds {a : Act} (hno : ¬ Retries hw a) (hs : step hw a = some hw') :
    Funds hw hw' := by
  cases a with
  | startAp vif status =>
    obtain rfl := Option.some.inj hs
    exact (funds_init _ (.bcmc vif) status _ _ _).trans (funds_init _ (.unk vif) status _ _ _)
  | addStation i uapsdTids tdlsActive status =>
    obtain rfl := Option.some.inj hs
    exact funds_staInit (hw.setSta _ _) _ status
  | smConnectInd i vif status tdls =>
    obtain rfl := Option.some.inj hs
    have hsta := funds_staInit (hw.setSta (.unicast i)
      { hw.sta (.unicast i) with psActive := false }) (.unicast i) status
    unfold Hw.smConnectInd
    dsimp only
    split
    · exact Funds.trans hsta (funds_init _ (.unk vif) ∅ _ _ _)
    · exact hsta
  | txqUnkVifInit vif => exact Option.some.inj hs ▸ funds_init hw (.unk vif) ∅ _ _ _
  | txqOffchanInit =>
    obtain rfl := Option.some.inj hs
    exact funds_init hw .offchan _ _ _ _
  | txqVifDeinit vif =>
    exact Option.some.inj hs ▸ (funds_deinit hw (.bcmc vif)).trans (funds_deinit _ (.unk vif))
  | txqStaDeinit s =>
    exact Option.some.inj hs ▸
      funds_station (txqStaDeinit_txq hw s).1 fun _ t => credited_deinited t
  | txqDeinit k => exact Option.some.inj hs ▸ funds_deinit hw k
  | txqStart k reason => exact funds_start hs
  | txqStop k reason => exact Option.some.inj hs ▸ funds_stop hw k reason
  | xmit d mgmt mesh =>
    have hsame : Funds hw { hw with nextSkb := hw.nextSkb+1 } := funds_same rfl
    have hq : hw.xmit d.txq d.station mgmt mesh = some hw' := hs
    exact hsame.trans (funds_queue hq)
  | hwqProcess q => exact funds_process hs
  | hwqProcessAll => exact funds_processAll hs
  | txdatacfm i busDown retry => exact funds_txdatacfm hno hs
  | txqCreditUpdate s tid => exact funds_creditUpdate hs
  | psBhEnable s enable => exact funds_psBhEnable hs
  | psBhTrafficReq s req p => exact funds_trafficReq hs

/-! ## Runs -/

def Funded (hw : Hw) : Prop :=
  ∀ k, (hw.txq k).active = true → (hw.txq k).credits = NX_TXQ_INITIAL_CREDITS

theorem init_funded : Funded init := fun _ hno => (Bool.false_ne_true hno).elim

theorem Funds.funded (h : Funds hw hw') (hf : Funded hw) : Funded hw' := by
  intro k hact
  rcases h k hact with hnew | ⟨hold, hsame⟩
  · exact hnew
  · rw [hsame]
    exact hf k hold

theorem Funded.inRange (h : Funded hw) : InRange hw := by
  constructor
  · intro k hact
    left
    rw [h k hact]
    decide
  · intro q k _ hact
    rw [h k hact]
    decide

theorem relisted_isFull (t : Txq) : t.relisted.isFull = t.isFull := by
  unfold Txq.relisted
  split <;> rfl

theorem started_isFull (t : Txq) (hact : t.active = true) :
    (t.started {.full}).isFull = false := by
  have hremoved : ({ t with stops := t.stops \ {.full} } : Txq).isFull = false := by
    simp [Txq.isFull]
  unfold Txq.started
  split
  · dsimp only
    split
    · exact hremoved
    · rw [relisted_isFull]
      exact hremoved
  · rename_i hno
    apply decide_eq_false
    intro hfull
    exact hno ⟨hact, .full, Finset.mem_inter.mpr ⟨hfull, Finset.mem_singleton_self _⟩⟩

/-- A buffer that is sent again leaves its txq with a credit more, and not full. -/
theorem txRetry_entry {f : Pushed} (hact : (hw.txq f.txq).active = true)
    (hcred : 0 ≤ (hw.txq f.txq).credits ∧ (hw.txq f.txq).credits < 127)
    (h : hw.txRetry f = some hw') :
    (hw'.txq f.txq).active = true ∧ (hw'.txq f.txq).credits = (hw.txq f.txq).credits+1 ∧
      (hw'.txq f.txq).isFull = false := by
  obtain ⟨u, hu, hqueue⟩ := Option.bind_eq_some_iff.mp h
  have hmore := addCredit_credits hcred
  have hset := changes_setTxq hw f.txq (hw.txq f.txq).addCredit
  rw [hset.at, hmore, if_pos (by omega)] at hu
  have hstart := hset.trans (hset.at ▸ txqStart_changes hu)
  have hstill := still_started (hw.txq f.txq).addCredit {.full}
  have hfull : (u.txq f.txq).isFull = false := by
    rw [hstart.at]
    exact started_isFull _ hact
  obtain ⟨v, hv, htxq, -⟩ := txqQueueSkb_view hqueue
  have hlike := (enqueue_view hv).1
  have hlist := still_relisted v.flowCtrlStop
  have hat : hw'.txq f.txq = v.flowCtrlStop.relisted := by
    rw [htxq, Function.update_self]
  rw [hat]
  refine ⟨?_, ?_, ?_⟩
  · rw [hlist.active]
    show v.active = true
    rw [hlike.active, hstart.at, hstill.active]
    exact hact
  · rw [hlist.credits]
    show v.credits = _
    rw [hlike.credits, hstart.at, hstill.credits, hmore]
  · rw [relisted_isFull, ← hfull]
    show decide (_ ∈ v.stops) = decide _
    rw [hlike.stops]

theorem txdatacfm_again {i : ℕ} {f : Pushed} (hf : hw.pushed[i]? = some f)
    (hdata : f.skb.mgmt = false) (hact : (hw.txq f.txq).active = true) :
    hw.txdatacfm i false true =
      ({ hw with pushed := hw.pushed.eraseIdx i }.txqConfirmAny f).txRetry f := by
  have hch := txqConfirmAny_changes { hw with pushed := hw.pushed.eraseIdx i } f
  have hagain : (!f.skb.mgmt && (({ hw with pushed := hw.pushed.eraseIdx i }.txqConfirmAny f).txq
      f.txq).active && true) = true := by
    rw [hch.at, hdata]
    simpa using hact
  unfold Hw.txdatacfm Hw.confirmed
  rw [hf]
  exact if_pos hagain

theorem retry_outOfRange {a : Act} (hfunded : Funded hw) (hr : Retries hw a)
    (hs : step hw a = some hw') : ¬ InRange hw' := by
  intro hin
  cases a with
  | txdatacfm i busDown retry =>
    obtain ⟨f, hf, rfl, rfl, hdata, hact⟩ := hr
    have hch := txqConfirmAny_changes { hw with pushed := hw.pushed.eraseIdx i } f
    have hretry := (txdatacfm_again hf hdata hact).symm.trans hs
    have hcred : ((({ hw with pushed := hw.pushed.eraseIdx i } : Hw).txqConfirmAny f).txq
        f.txq).credits = NX_TXQ_INITIAL_CREDITS := by
      rw [hch.at]
      exact hfunded f.txq hact
    obtain ⟨hact', hmore, hfull⟩ := txRetry_entry (by rwa [hch.at]) (by rw [hcred]; decide) hretry
    rcases hin.range f.txq hact' with ⟨-, hle⟩ | hstop
    · rw [hmore, hcred] at hle
      exact absurd hle (by decide)
    · rw [hfull] at hstop
      cases hstop
  | _ => exact hr.elim

/-- The credits stay in range as long as no buffer is sent again. -/
theorem run_inRange_iff {acts : List Act} (h : exec step init acts = some hw) :
    Throughout step InRange init acts ↔ Meets step (fun hw a => ¬ Retries hw a) init acts :=
  throughout_iff_of_exec (J := Funded) (fun _ _ _ hno hs hf => (step_funds hno hs).funded hf)
    (fun _ hf => hf.inRange) (fun _ _ _ hf hs hin hr => retry_outOfRange hf hr hs hin)
    init_funded h

def sentRun : List Act :=
  [.smConnectInd 0 0 ∅ false, .xmit (.sta (.unicast 0) 0) false false, .hwqProcess .be,
    .txdatacfm 0 false false]

def sent : Hw := (exec step init sentRun).get (by decide +kernel)

theorem run_inRange_sample : Throughout step InRange init sentRun ↔
    Meets step (fun hw a => ¬ Retries hw a) init sentRun := by
  have hrun : exec step init sentRun = some sent := (Option.some_get _).symm
  exact run_inRange_iff hrun

/-- A buffer that is pushed and sent again a number of times. -/
def retriedRun (n : ℕ) : List Act :=
  [.smConnectInd 0 0 ∅ false, .xmit (.sta (.unicast 0) 0) false false]++
    (List.replicate n [.hwqProcess .be, .txdatacfm 0 false true]).flatten

def wrapped : Hw := (exec step init (retriedRun 64)).get (by decide +kernel)

/-- After 64 retries the credits of an s8 are negative, on a txq that nothing has stopped, and the
processing ends in a `BUG_ON`. -/
theorem retries_wrap_credits : ∃ hw, exec step init (retriedRun 64) = some hw ∧ ¬ InRange hw ∧
    hw.hwqProcess .be = none := by
  refine ⟨wrapped, (Option.some_get _).symm, fun hin => ?_, ?_⟩
  · have hact : (wrapped.txq (.sta 0 0)).active = true := by decide +kernel
    have hcred : (wrapped.txq (.sta 0 0)).credits = -128 := by decide +kernel
    have hfull : (wrapped.txq (.sta 0 0)).isFull = false := by decide +kernel
    rcases hin.range _ hact with ⟨hpos, -⟩ | hstop
    · rw [hcred] at hpos
      exact absurd hpos (by decide)
    · rw [hfull] at hstop
      cases hstop
  · apply Option.isNone_iff_eq_none.mp
    decide +kernel

end AIC.TxqCredits
