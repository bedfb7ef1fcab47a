import Aic8800.TxqLists

/-!
# No packet is left behind

A txq that is in use, not stopped and not empty is in the list of its hardware
queue after every step, as long as a stop names a reason that stops and the
reason of power save is left to power save itself.
-/

set_option autoImplicit false

namespace AIC.TxqWork
open AIC.TxqMachine AIC.TxqLists Lib.GuardedRun

/-- Whether the station of a txq is in power save. -/
def sleeps (hw : Hw) (k : TxqId) : Bool :=
  match k.owner with
  | none => false
  | some s => (hw.sta s).psActive

/-- Nothing waits for an unrelated event. -/
def Tended (hw : Hw) : Prop :=
  ∀ k, (hw.txq k).active = true → ¬ (hw.txq k).Stopped → (hw.txq k).skList ≠ [] →
    ∃ q, (hw.txq k).hwq = some q ∧ k ∈ (hw.hwq q).list

/-- A stop names at least one reason of `RWNX_TXQ_STOP`, a start leaves the reason of power save
alone while the station sleeps, and a station is not asleep when it is added. -/
def Usual (hw : Hw) : Act → Prop
  | .txqStart k reason => .staPs ∈ reason → sleeps hw k = false
  | .txqStop _ reason => (reason ∩ TXQ_STOP).Nonempty
  | .addStation i _ _ _ => (hw.sta (.unicast i)).psActive = false
  | _ => True

instance (hw : Hw) (a : Act) : Decidable (Usual hw a) := by
  induction a using Act.casesOn <;> dsimp only [Usual] <;> infer_instance

/-! ## The entry of a txq -/

/-- While its station sleeps a txq is stopped, so that only a service period links it. -/
structure Works (ps : Bool) (t : Txq) : Prop where
  awake : t.active = true → ¬ t.Stopped → t.skList ≠ [] → t.inHwqList = true
  asleep : t.active = true → ps = true → .staPs ∈ t.stops
  period : t.active = true → t.pushLimit ≠ 0 → ps = true

variable {ps : Bool} {t u : Txq} {reason : Finset StopReason}

theorem stopped_of_staPs (h : .staPs ∈ t.stops) : t.Stopped :=
  ⟨.staPs, Finset.mem_inter.mpr ⟨h, by decide⟩⟩

theorem works_idle (h : t.active = false) : Works ps t := by
  constructor
  · intro hno
    rw [h] at hno
    cases hno
  · intro hno
    rw [h] at hno
    cases hno
  · intro hno
    rw [h] at hno
    cases hno

theorem works_fresh (k : TxqId) (status : Finset StopReason) (hwq : HwqId) (sta : Option StaId)
    (psId : PsId) : Works false (.fresh k status hwq sta psId) :=
  ⟨fun _ _ hno => absurd rfl hno, fun _ hno => (Bool.false_ne_true hno).elim,
    fun _ hno => absurd rfl hno⟩

theorem Works.deinited (h : Works ps t) : Works ps t.deinited := by
  unfold Txq.deinited
  split
  · exact works_idle rfl
  · exact h

/-- What is linked is tended to. -/
theorem Works.linked (h : Works ps t) : Works ps { t with inHwqList := true } :=
  ⟨fun _ _ _ => rfl, h.asleep, h.period⟩

/-- A txq goes to the list as the functions have it that look at the stop bits. -/
theorem Works.relisted (hasleep : t.active = true → ps = true → .staPs ∈ t.stops)
    (hperiod : t.active = true → t.pushLimit ≠ 0 → ps = true) : Works ps t.relisted := by
  unfold Txq.relisted
  split
  · rename_i hstop
    exact ⟨fun _ hno => absurd hstop hno, hasleep, hperiod⟩
  · exact ⟨fun _ _ _ => rfl, hasleep, hperiod⟩

theorem Works.started (h : Works ps t) (hps : .staPs ∈ reason → ps = false) :
    Works ps (t.started reason) := by
  have hasleep : t.active = true → ps = true → .staPs ∈ t.stops \ reason := by
    intro hact hp
    refine Finset.mem_sdiff.mpr ⟨h.asleep hact hp, fun hin => ?_⟩
    rw [hps hin] at hp
    cases hp
  unfold Txq.started
  split
  · dsimp only
    split
    · rename_i hnil
      exact ⟨fun _ _ hno => absurd hnil hno, hasleep, h.period⟩
    · exact Works.relisted hasleep h.period
  · exact h

theorem Works.stopped (h : Works ps t) (hreason : (reason ∩ TXQ_STOP).Nonempty) :
    Works ps (t.stopped reason) := by
  obtain ⟨r, hr⟩ := hreason
  obtain ⟨hin, hstop⟩ := Finset.mem_inter.mp hr
  unfold Txq.stopped
  split
  · constructor
    · exact fun _ hno =>
        absurd ⟨r, Finset.mem_inter.mpr ⟨Finset.mem_union_right _ hin, hstop⟩⟩ hno
    · exact fun hact hp => Finset.mem_union_left _ (h.asleep hact hp)
    · exact h.period
  · exact h

/-- Power save stops a txq, whatever was known of it. -/
theorem works_stopped (t : Txq) : Works true (t.stopped {.staPs}) := by
  unfold Txq.stopped
  split
  · have hstop : StopReason.staPs ∈ t.stops ∪ {.staPs} :=
      Finset.mem_union_right _ (Finset.mem_singleton_self _)
    exact ⟨fun _ hno => absurd (stopped_of_staPs hstop) hno, fun _ _ => hstop, fun _ _ => rfl⟩
  · rename_i hact
    exact works_idle (Bool.eq_false_of_not_eq_true hact)

theorem Works.enqueued {skb : Skb} {retry : Bool} (h : Works ps t)
    (hu : t.enqueue skb retry = some u) : Works ps u.flowCtrlStop.relisted := by
  obtain ⟨hlike, -, hlimit, -⟩ := enqueue_view hu
  apply Works.relisted
  · show u.active = true → ps = true → .staPs ∈ u.stops
    rw [hlike.active, hlike.stops]
    exact h.asleep
  · show u.active = true → u.pushLimit ≠ 0 → ps = true
    rw [hlike.active, hlimit]
    exact h.period

theorem getSkbToPush_done (h : t.getSkbToPush.2 = true) :
    t.getSkbToPush.1 = t.skList.length ∨ t.pushLimit ≠ 0 := by
  unfold Txq.getSkbToPush at h ⊢
  split
  · exact .inl rfl
  · rename_i hmore
    rw [if_neg hmore] at h
    exact .inr (of_decide_eq_true h).1

/-- A txq that leaves the list is empty, or its service period is over and its station sleeps. -/
theorem Works.finished (h : Works ps t) (hact : t.active = true) (hbit : t.inHwqList = true)
    (q : HwqId) : Works ps (t.finished q) := by
  have hlike := like_finished t q
  constructor
  · intro _ hrun hready
    rw [finished_inHwqList, hbit, Bool.true_and, Bool.not_eq_true']
    by_contra hdone
    rcases getSkbToPush_done (Bool.eq_true_of_not_eq_false hdone) with hall | hlimit
    · rw [finished_skList, hall] at hready
      exact hready (List.drop_length ..)
    · have hps := h.asleep hact (h.period hact hlimit)
      rw [← hlike.stops] at hps
      exact hrun (stopped_of_staPs hps)
  · intro _ hps
    rw [hlike.stops]
    exact h.asleep hact hps
  · intro _ hlimit
    apply h.period hact
    rintro hz
    rw [finished_pushLimit, hz, Nat.zero_sub, ite_self] at hlimit
    exact hlimit rfl

/-- The fields that are looked at. -/
theorem Works.congr (h : Works ps t) (hact : u.active = t.active) (hstop : u.stops = t.stops)
    (hlist : u.skList = t.skList) (hbit : u.inHwqList = t.inHwqList)
    (hlimit : u.pushLimit = 0 ∨ u.pushLimit = t.pushLimit) : Works ps u := by
  have hstopped : u.Stopped ↔ t.Stopped := by
    unfold Txq.Stopped
    rw [hstop]
  constructor
  · rw [hact, hstopped, hlist, hbit]
    exact h.awake
  · rw [hact, hstop]
    exact h.asleep
  · intro ha hne
    rcases hlimit with hz | hsame
    · exact absurd hz hne
    · exact h.period (hact ▸ ha) (hsame ▸ hne)

/-! ## The operations -/

def Working (hw : Hw) : Prop := ∀ k, Works (sleeps hw k) (hw.txq k)

variable {hw hw' : Hw} {k : TxqId} {s : StaId}

theorem sleeps_congr (h : ∀ s, (hw'.sta s).psActive = (hw.sta s).psActive) (k : TxqId) :
    sleeps hw' k = sleeps hw k := by
  unfold sleeps
  split
  · rfl
  · exact h _

theorem sleeps_owner (h : k.owner = some s) : sleeps hw k = (hw.sta s).psActive := by
  unfold sleeps
  rw [h]

theorem sleeps_off (h : ∀ j, j ≠ s → (hw'.sta j).psActive = (hw.sta j).psActive)
    (hown : k.owner ≠ some s) : sleeps hw' k = sleeps hw k := by
  unfold sleeps
  split
  · rfl
  · rename_i j hj
    apply h
    rintro rfl
    exact hown hj

/-- One txq is changed, and nobody goes to sleep or wakes up. -/
theorem Working.put (h : Working hw) (htxq : hw'.txq = Function.update hw.txq k t)
    (hps : ∀ s, (hw'.sta s).psActive = (hw.sta s).psActive) (ht : Works (sleeps hw k) t) :
    Working hw' := by
  intro j
  rw [htxq, sleeps_congr hps]
  by_cases hj : j = k
  · subst hj
    rwa [Function.update_self]
  · rw [Function.update_of_ne hj]
    exact h j

theorem Working.change (h : Working hw) (hch : Changes k t hw hw')
    (ht : Works (sleeps hw k) t) : Working hw' :=
  h.put hch.txq (fun s => by rw [hch.sta]) ht

theorem Working.same (h : Working hw) (htxq : hw'.txq = hw.txq)
    (hps : ∀ s, (hw'.sta s).psActive = (hw.sta s).psActive) : Working hw' := by
  intro k
  rw [htxq, sleeps_congr hps]
  exact h k

/-- The txqs of a station are changed, with or without its sleep. -/
theorem Working.station (h : Working hw) {g : TxqId → Txq → Txq}
    (htxq : hw'.txq = onStation s g hw.txq)
    (hps : ∀ j, j ≠ s → (hw'.sta j).psActive = (hw.sta j).psActive)
    (hg : ∀ k, k.owner = some s → Works (hw'.sta s).psActive (g k (hw.txq k))) : Working hw' := by
  intro k
  rw [htxq]
  unfold onStation
  split
  · rename_i hown
    rw [sleeps_owner hown]
    exact hg k hown
  · rename_i hown
    rw [sleeps_off hps hown]
    exact h k

theorem Working.add (h : Working hw) (hadd : hw.addToHwList k = some hw') : Working hw' :=
  h.change (addToHwList_changes hadd) (h k).linked

theorem Working.start {reason : Finset StopReason} (h : Working hw)
    (hps : .staPs ∈ reason → sleeps hw k = false) (hs : hw.txqStart k reason = some hw') :
    Working hw' :=
  h.change (txqStart_changes hs) ((h k).started hps)

theorem Working.stop (h : Working hw) (k : TxqId) {reason : Finset StopReason}
    (hreason : (reason ∩ TXQ_STOP).Nonempty) : Working (hw.txqStop k reason) :=
  h.change (txqStop_changes hw k reason) ((h k).stopped hreason)

theorem Working.deinit (h : Working hw) (k : TxqId) : Working (hw.txqDeinit k) :=
  h.change (txqDeinit_changes hw k) (h k).deinited

theorem Working.init (h : Working hw) (hps : sleeps hw k = false) (status : Finset StopReason)
    (hwq : HwqId) (sta : Option StaId) (psId : PsId) :
    Working (hw.txqInit k status hwq sta psId) := by
  apply h.change (changes_setTxq hw k (.fresh k status hwq sta psId))
  rw [hps]
  exact works_fresh k status hwq sta psId

theorem Working.queue {skb : Skb} {retry : Bool} (h : Working hw)
    (hs : hw.txqQueueSkb k skb retry = some hw') : Working hw' := by
  obtain ⟨u, hu, htxq, hsta⟩ := txqQueueSkb_view hs
  apply h.put htxq _ ((h k).enqueued hu)
  intro s
  rw [hsta]
  exact inPs_psActive (f := fun x => x.queued (hw.txq k).psId) (fun _ => rfl) hw.sta s

theorem Working.process (h : Working hw) {q : HwqId} (hs : hw.hwqProcess q = some hw') :
    Working hw' := by
  have hstart : Working (hw.setHwq q { hw.hwq q with needProcessing := false }) :=
    Working.same h rfl fun _ => rfl
  refine Lib.CursorLoop.loop_invariant (fun hw => (hw.hwq q).linkedOnce)
    (fun _ _ _ hk h => processTxq_shrinks hk h) ?_ (fun _ hk => List.mem_of_mem_head? hk) hstart hs
  intro hw k hw' _ hturn hw1
  obtain ⟨hbit, ⟨-, rfl⟩ | ⟨hact, -, -, rfl⟩⟩ := processTxq_cases hturn
  · exact hw1
  · obtain ⟨htxq, hsta⟩ := serve_view hw q k
    apply hw1.put htxq _ ((hw1 k).finished hact hbit q)
    intro s
    rw [hsta, servedStas_psActive]

theorem Working.processAll (h : Working hw) (hs : hw.hwqProcessAll = some hw') : Working hw' := by
  refine exec_preserves (I := Working) (fun hw q hw' hs hl => ?_) h hs
  split at hs
  · exact hl.process hs
  · exact Option.some.inj hs ▸ hl

theorem Working.staInit (h : Working hw) (hps : (hw.sta s).psActive = false)
    (status : Finset StopReason) : Working (hw.txqStaInit s status) := by
  obtain ⟨htxq, hsta⟩ := txqStaInit_txq hw s status
  apply h.station htxq
  · intro j _
    rw [hsta]
  · intro k _
    rw [hsta, hps]
    exact works_fresh ..

/-! ## Power save and confirmations -/

theorem Working.psEnable (h : Working hw) (s : StaId) : Working (hw.psEnable s) := by
  obtain ⟨htxq, hsta⟩ := psEnable_view hw s
  apply h.station htxq
  · intro j hj
    rw [hsta, Function.update_of_ne hj]
  · intro k _
    rw [hsta, Function.update_self]
    exact works_stopped _

theorem Working.psDisable (h : Working hw) (hs : hw.psDisable s = some hw') : Working hw' := by
  obtain ⟨htxq, hsta⟩ := psDisable_view hs
  apply h.station htxq
  · intro j hj
    rw [hsta, Function.update_of_ne hj]
  · intro k _
    rw [hsta, Function.update_self]
    have hrel : Works false ((hw.txq k).released s) :=
      ⟨(h k).awake, fun _ hno => (Bool.false_ne_true hno).elim, fun _ hno => absurd rfl hno⟩
    exact hrel.started fun _ => rfl

theorem Working.spInterrupt (h : Working hw) (s : StaId) : Working (hw.spInterrupt s) := by
  obtain ⟨htxq, hsta⟩ := spInterrupt_view hw s
  have hps : ∀ j, ((hw.spInterrupt s).sta j).psActive = (hw.sta j).psActive := by
    intro j
    rw [hsta]
    by_cases hj : j = s
    · subst hj
      rw [Function.update_self]
    · rw [Function.update_of_ne hj]
  apply h.station htxq
  · exact fun j _ => hps j
  · intro k hown
    rw [hps, ← sleeps_owner hown]
    exact (h k).congr rfl rfl rfl rfl (.inl rfl)

theorem setSta_psActive (hw : Hw) (s : StaId) {x : Sta} (hx : x.psActive = (hw.sta s).psActive)
    (j : StaId) : ((hw.setSta s x).sta j).psActive = (hw.sta j).psActive := by
  show (Function.update hw.sta s x j).psActive = _
  by_cases hj : j = s
  · subst hj
    rw [Function.update_self, hx]
  · rw [Function.update_of_ne hj]

/-- A sleeping station may be given a service period. -/
theorem Working.limit (h : Working hw) (hps : sleeps hw k = true) (n : ℕ) :
    Working (hw.setTxq k { hw.txq k with pushLimit := n }) :=
  h.change (changes_setTxq hw k _) ⟨(h k).awake, (h k).asleep, fun _ _ => hps⟩

theorem Working.dispatch {p : PsId} {ks : List TxqId} {req : ℕ} (h : Working hw)
    (hks : ∀ k ∈ ks, k.owner = some s) (hps : (hw.sta s).psActive = true)
    (hs : Hw.dispatch s p hw req ks = some hw') : Working hw' := by
  induction ks generalizing hw req with
  | nil => exact Option.some.inj hs ▸ h
  | cons k ks ih =>
    have hrest : ∀ j ∈ ks, j.owner = some s := fun j hj => hks j (List.mem_cons_of_mem k hj)
    have hsleep : sleeps hw k = true := (sleeps_owner (hks k List.mem_cons_self)).trans hps
    have hgrant : ∀ n, Working (hw.spGrant s p k n) := fun n =>
      (h.limit hsleep (n % 2^8)).same rfl fun j => setSta_psActive _ s (by rfl) j
    unfold Hw.dispatch at hs
    dsimp only at hs
    split at hs
    · exact ih h hrest hps hs
    · split at hs
      · obtain ⟨u, hu, hmore⟩ := Option.bind_eq_some_iff.mp hs
        refine ih ((hgrant _).add hu) hrest ?_ hmore
        rw [(addToHwList_changes hu).sta]
        exact (setSta_psActive _ s (by rfl) s).trans hps
      · exact (hgrant req).add hs

theorem Working.dispatchMulticast {vif : ℕ} {p : PsId} {req : ℕ} (h : Working hw)
    (hps : (hw.sta (.multicast vif)).psActive = true)
    (hs : hw.dispatchMulticast vif p req = some hw') : Working hw' := by
  unfold Hw.dispatchMulticast at hs
  extract_lets k s n at hs
  have hsleep : sleeps hw k = true := hps
  have hlimit : Working (hw.setTxq k { hw.txq k with pushLimit := n % 2^8 }) := h.limit hsleep _
  have hgrant : Working ((hw.setTxq k { hw.txq k with pushLimit := n % 2^8 }).setSta s
      { hw.sta s with spCnt := Function.update (hw.sta s).spCnt p n }) :=
    hlimit.same rfl fun j => setSta_psActive _ s (by rfl) j
  exact hgrant.add hs

theorem Working.trafficReq {req : ℕ} {p : PsId} (h : Working hw)
    (hs : hw.psBhTrafficReq s req p = some hw') : Working hw' := by
  obtain rfl | ⟨-, -, -, rfl⟩ | ⟨hstarts, ⟨i, rfl, hs⟩ | ⟨vif, rfl, hs⟩⟩ := psBhTrafficReq_cases hs
  · exact h
  · exact h.spInterrupt s
  · refine h.dispatch (fun k hk => ?_) hstarts.1 hs
    obtain ⟨tid, -, rfl⟩ := List.mem_map.mp hk
    exact txqGet_owner _ tid
  · exact h.dispatchMulticast hstarts.1 hs

theorem Working.confirmAny (h : Working hw) (f : Pushed) : Working (hw.txqConfirmAny f) :=
  h.change (txqConfirmAny_changes hw f) ((h f.txq).congr rfl rfl rfl rfl (.inr rfl))

theorem Working.retry {f : Pushed} (h : Working hw) (hs : hw.txRetry f = some hw') :
    Working hw' := by
  obtain ⟨u, hu, hrest⟩ := Option.bind_eq_some_iff.mp hs
  have hset : Working (hw.setTxq f.txq (hw.txq f.txq).addCredit) :=
    h.change (changes_setTxq hw f.txq _) ((h f.txq).congr rfl rfl rfl rfl (.inr rfl))
  have hstart : Working u := by
    split at hu
    · exact hset.start (fun hno => absurd hno (by decide)) hu
    · exact Option.some.inj hu ▸ hset
  exact hstart.queue hrest

theorem Working.continueSp (h : Working hw) (hs : hw.continueSp k = some hw') : Working hw' := by
  unfold Hw.continueSp at hs
  split at hs
  · exact h.add hs
  · exact Option.some.inj hs ▸ h

theorem Working.txdatacfm {i : ℕ} {busDown retry : Bool} (h : Working hw)
    (hs : hw.txdatacfm i busDown retry = some hw') : Working hw' := by
  have hless : Working { hw with pushed := hw.pushed.eraseIdx i } := h.same rfl fun _ => rfl
  obtain rfl | ⟨f, -, rfl | ⟨-, -, -, -, hs⟩ | hs⟩ := txdatacfm_cases hs
  · exact h
  · exact hless
  · exact (hless.confirmAny f).retry hs
  · exact (hless.confirmAny f).continueSp hs

theorem Working.creditUpdate {tid : ℕ} (h : Working hw)
    (hs : hw.txqCreditUpdate s tid = some hw') : Working hw' := by
  obtain rfl | rfl | hs := txqCreditUpdate_cases hs
  · exact h
  · exact h.stop _ (by decide)
  · exact h.start (fun hno => absurd hno (by decide)) hs

/-! ## Runs -/

theorem init_working : Working init := fun _ => works_idle rfl

/-- A station that wakes up with its txqs initialised. -/
theorem Working.wakeInit (h : Working hw) (s : StaId) (status : Finset StopReason) :
    Working ((hw.setSta s { hw.sta s with psActive := false }).txqStaInit s status) := by
  obtain ⟨htxq, hsta⟩ := txqStaInit_txq (hw.setSta s { hw.sta s with psActive := false }) s status
  apply h.station htxq
  · intro j hj
    rw [hsta]
    exact congrArg Sta.psActive (Function.update_of_ne hj ..)
  · intro k _
    rw [hsta]
    show Works (Function.update hw.sta s _ s).psActive _
    rw [Function.update_self]
    exact works_fresh ..

theorem bcmcInit_txq (hw : Hw) (vif : ℕ) (status : Finset StopReason) :
    ((hw.setSta (.multicast vif) { hw.sta (.multicast vif) with psActive := false }).txqInit
      (.bcmc vif) status .be (some (.multicast vif)) .legacy).txq =
        onStation (.multicast vif)
          (fun k _ => .fresh k status .be (some (.multicast vif)) .legacy) hw.txq := by
  funext j
  show Function.update hw.txq (.bcmc vif) (.fresh _ _ _ _ _) j = _
  unfold onStation
  by_cases hj : j = .bcmc vif
  · subst hj
    rw [Function.update_self]
    exact (if_pos rfl).symm
  · rw [Function.update_of_ne hj, if_neg]
    exact fun hown => hj (List.mem_singleton.mp (mem_txqs_iff.mpr hown))

theorem step_working {a : Act} (hu : Usual hw a) (hs : step hw a = some hw') (h : Working hw) :
    Working hw' := by
  cases a with
  | startAp vif status =>
    obtain rfl := Option.some.inj hs
    have hbcmc : Working ((hw.setSta (.multicast vif)
        { hw.sta (.multicast vif) with psActive := false }).txqInit (.bcmc vif) status .be
          (some (.multicast vif)) .legacy) := by
      apply h.station (bcmcInit_txq hw vif status)
      · intro j hj
        exact congrArg Sta.psActive (Function.update_of_ne hj ..)
      · intro k _
        show Works (Function.update hw.sta _ _ _).psActive _
        rw [Function.update_self]
        exact works_fresh ..
    exact hbcmc.init rfl status _ _ _
  | addStation i uapsdTids tdlsActive status =>
    obtain rfl := Option.some.inj hs
    have hset : Working (hw.setSta (.unicast i)
        { hw.sta (.unicast i) with
          uapsdTids := uapsdTids
          tdlsActive := tdlsActive }) := h.same rfl fun j => setSta_psActive hw _ (by rfl) j
    exact hset.staInit ((setSta_psActive hw _ (by rfl) _).trans hu) status
  | smConnectInd i vif status tdls =>
    obtain rfl := Option.some.inj hs
    have hsta := h.wakeInit (.unicast i) status
    unfold Hw.smConnectInd
    dsimp only
    split
    · exact hsta.init rfl ∅ .vo none .legacy
    · exact hsta
  | txqUnkVifInit vif =>
    obtain rfl := Option.some.inj hs
    exact h.init (k := .unk vif) rfl ∅ .vo none .legacy
  | txqOffchanInit =>
    obtain rfl := Option.some.inj hs
    exact h.init (k := .offchan) rfl {.chan} .vo none .legacy
  | txqVifDeinit vif => exact Option.some.inj hs ▸ (h.deinit _).deinit _
  | txqStaDeinit s =>
    exact Option.some.inj hs ▸
      List.foldlRecOn (motive := Working) _ _ h fun _ hl k _ => hl.deinit k
  | txqDeinit k => exact Option.some.inj hs ▸ h.deinit k
  | txqStart k reason => exact h.start hu hs
  | txqStop k reason => exact Option.some.inj hs ▸ h.stop k hu
  | xmit d mgmt mesh =>
    have hsame : Working { hw with nextSkb := hw.nextSkb+1 } := h.same rfl fun _ => rfl
    have hq : hw.xmit d.txq d.station mgmt mesh = some hw' := hs
    exact hsame.queue hq
  | hwqProcess q => exact h.process hs
  | hwqProcessAll => exact h.processAll hs
  | txdatacfm i busDown retry => exact h.txdatacfm hs
  | txqCreditUpdate s tid => exact h.creditUpdate hs
  | psBhEnable s enable =>
    cases enable with
    | true => exact Option.some.inj hs ▸ h.psEnable s
    | false => exact h.psDisable hs
  | psBhTrafficReq s req p => exact h.trafficReq hs

/-- In every run of usual steps each txq that could be served is in the list it is served from. -/
theorem run_tended {acts : List Act} {hw : Hw} (h : Meets step Usual init acts)
    (hrun : exec step init acts = some hw) : Tended hw := by
  have hlisted : Listed hw := exec_preserves (fun _ _ _ hs hl => step_listed hs hl) init_listed hrun
  have hworking : Working hw := exec_invariant (fun _ _ _ hu hs hl => step_working hu hs hl)
    init_working h hrun
  intro k hact hstop hready
  exact hlisted.own ((hworking k).awake hact hstop hready)

def sampleRun : List Act :=
  [.smConnectInd 0 0 ∅ false, .xmit (.sta (.unicast 0) 0) false false,
    .psBhEnable (.unicast 0) true, .psBhTrafficReq (.unicast 0) 1 .legacy, .hwqProcess .be,
    .xmit (.sta (.unicast 0) 0) false false, .psBhEnable (.unicast 0) false]

/-- A packet that came while the station slept is in the list when it wakes up. -/
theorem run_tended_sample :
    Tended ((exec step init sampleRun).get (by decide +kernel)) ∧
      (((exec step init sampleRun).get (by decide +kernel)).hwq .be).list = [.sta 0 0] := by
  have hrun : exec step init sampleRun =
      some ((exec step init sampleRun).get (by decide +kernel)) := (Option.some_get _).symm
  exact ⟨run_tended (by decide +kernel) hrun, by decide +kernel⟩

/-- The reason of MU power save takes a txq out of the list but is none that it is stopped for,
and a start for power save while the station sleeps leaves a txq that a service period is over
for. -/
theorem started_asleep_strands :
    (∃ hw, exec step init
        [.smConnectInd 0 0 ∅ false, .xmit (.sta (.unicast 0) 0) false false,
          .txqStop (.sta 0 0) {.muPos}] = some hw ∧ ¬ Tended hw) ∧
      ∃ hw, exec step init
        [.smConnectInd 0 0 ∅ false, .xmit (.sta (.unicast 0) 0) false false,
          .xmit (.sta (.unicast 0) 0) false false, .psBhEnable (.unicast 0) true,
          .psBhTrafficReq (.unicast 0) 1 .legacy, .txqStart (.sta 0 0) {.staPs},
          .hwqProcess .be] = some hw ∧ ¬ Tended hw := by
  have hfree : ∀ {hw : Hw}, (hw.txq (.sta 0 0)).active = true → ¬ (hw.txq (.sta 0 0)).Stopped →
      (hw.txq (.sta 0 0)).skList ≠ [] → (hw.txq (.sta 0 0)).hwq = some .be →
        .sta 0 0 ∉ (hw.hwq .be).list → ¬ Tended hw := by
    intro hw hact hstop hready hq hno htended
    obtain ⟨q, hhwq, hin⟩ := htended (.sta 0 0) hact hstop hready
    obtain rfl := Option.some.inj (hq.symm.trans hhwq)
    exact hno hin
  refine ⟨⟨_, (Option.some_get (by decide +kernel)).symm, hfree ?_ ?_ ?_ ?_ ?_⟩,
    ⟨_, (Option.some_get (by decide +kernel)).symm, hfree ?_ ?_ ?_ ?_ ?_⟩⟩ <;> decide +kernel

end AIC.TxqWork
