import Aic8800.CommandOrder

/-!
# The answer to a call with a response buffer

A call of `rwnx_send_msg` that asks for a confirmation and gives a buffer for it
is followed from its entry to its return. While its command is on the list it is
the only one with the firmware, so the confirmation that completes it is its own
and is copied before the call goes on. This holds as long as the call takes none
of the branches that return without waiting for the confirmation.
-/

set_option autoImplicit false

namespace AIC.CommandAnswer
open AIC.CommandMachine AIC.CommandSlots AIC.CommandMoves AIC.CommandOrder Lib.GuardedRun

/-- A call of `rwnx_send_msg` with `reqcfm` and a response buffer. -/
def asks (r : Request) : Bool := r.via == .sendMsg && r.reqcfm && r.cfm

/-- The confirmation of this call's command has come and is in its buffer. -/
def Heard (c : ℕ) (log : List Ev) : Prop :=
  ∃ param, .confirmed c (some c) param ∈ log ∧
    (param ≠ [] → .wrote c (param.take RWNX_CMD_E2AMSG_LEN_MAX) ∈ log)

/-- The call returns 0 only after it was answered, with nothing written after
its return, and a negative error otherwise. -/
def Answered (c : ℕ) (log : List Ev) : Prop :=
  ∀ pre r post, log = pre++.returned c r::post →
    (r = 0 ∧ Heard c pre ∧ ∀ bytes, .wrote c bytes ∉ post) ∨ r < 0

/-- The step of the call takes no branch that returns without the confirmation:
the bus is up at the entry, the command is queued on an empty list of a manager
that works and is not one that is always deferred, and a time-out finds the
command confirmed. -/
def Clear (s : Sys) (c : ℕ) : Pc → Prop
  | .entry => s.busDown = false
  | .queue _ => s.mgr.state = .inited ∧ s.mgr.cmds = [] ∧
      CmdMgr.alwaysDeferred (s.request c).id = false
  | .timedOut k => k ∉ s.mgr.cmds
  | _ => True

def caller : Act → Option ℕ
  | .call c => some c
  | _ => none

def Unhindered (s : Sys) (a : Act) : Prop :=
  Solicited s a ∧ ∀ c ∈ caller a, asks (s.request c) = true → Clear s c (s.pc c)

instance (s : Sys) (c : ℕ) (p : Pc) : Decidable (Clear s c p) :=
  match p with
  | .entry => inferInstanceAs (Decidable (s.busDown = false))
  | .queue _ => inferInstanceAs (Decidable (s.mgr.state = .inited ∧ s.mgr.cmds = [] ∧
      CmdMgr.alwaysDeferred (s.request c).id = false))
  | .timedOut k => inferInstanceAs (Decidable (k ∉ s.mgr.cmds))
  | .idle | .malloc | .waitEmpty _ | .sendNoCfm _ | .push _ | .wait _ | .freeCmd _ | .testEmpty
  | .deferTest _ | .wake | .freeRet _ | .returned _ | .oops => isTrue trivial

instance (s : Sys) (a : Act) : Decidable (Unhindered s a) :=
  inferInstanceAs (Decidable (Solicited s a ∧
    ∀ c ∈ caller a, asks (s.request c) = true → Clear s c (s.pc c)))

/-! ## Answers in the log -/

/-- No event of the list returns from the call or writes to its buffer. -/
def Silent (c : ℕ) (es : List Ev) : Prop :=
  ∀ e ∈ es, (∀ r, e ≠ .returned c r) ∧ ∀ bytes, e ≠ .wrote c bytes

section
variable {c : ℕ} {log es : List Ev}

theorem Heard.more (h : Heard c log) (es : List Ev) : Heard c (log++es) := by
  obtain ⟨param, hconf, hwrote⟩ := h
  exact ⟨param, List.mem_append_left es hconf, fun hp => List.mem_append_left es (hwrote hp)⟩

theorem answered_of_none (h : ∀ r, .returned c r ∉ log) : Answered c log := by
  intro pre r post he
  exact absurd (by simp [he]) (h r)

theorem Answered.more (h : Answered c log) (hs : Silent c es) : Answered c (log++es) := by
  intro pre r post he
  rcases List.append_eq_append_iff.mp he with ⟨mid, -, hes⟩ | ⟨mid, hlog, hrest⟩
  · exact absurd rfl ((hs (.returned c r) (by simp [hes])).1 r)
  · cases mid with
    | nil =>
      have hes : es = .returned c r::post := by simpa using hrest.symm
      exact absurd rfl ((hs (.returned c r) (by simp [hes])).1 r)
    | cons e rest =>
      obtain ⟨rfl, rfl⟩ : e = .returned c r ∧ post = rest++es := by simpa [eq_comm] using hrest
      rcases h pre r rest hlog with ⟨hr, hheard, hnone⟩ | hr
      · left
        refine ⟨hr, hheard, ?_⟩
        intro bytes hb
        rcases List.mem_append.mp hb with hb | hb
        · exact hnone bytes hb
        · exact (hs _ hb).2 bytes rfl
      · exact Or.inr hr

theorem Answered.close (h : ∀ r, .returned c r ∉ log) (hheard : Heard c log) :
    Answered c (log++[.returned c 0]) := by
  intro pre r post he
  rcases List.append_eq_append_iff.mp he with ⟨mid, hpre, hes⟩ | ⟨mid, hlog, hrest⟩
  · cases mid with
    | nil =>
      obtain ⟨rfl, rfl⟩ : r = 0 ∧ post = [] := by simpa [eq_comm] using hes
      left
      exact ⟨rfl, by rw [hpre, List.append_nil]; exact hheard, fun _ => List.not_mem_nil⟩
    | cons e rest => simp at hes
  · cases mid with
    | nil =>
      obtain ⟨rfl, rfl⟩ : r = 0 ∧ post = [] := by simpa [eq_comm] using hrest
      left
      have hpre : pre = log := by simpa using hlog.symm
      exact ⟨rfl, hpre ▸ hheard, fun _ => List.not_mem_nil⟩
    | cons e rest =>
      obtain ⟨rfl, -⟩ : e = .returned c r ∧ post = rest++[.returned c 0] := by
        simpa [eq_comm] using hrest
      exact absurd (by simp [hlog]) (h r)

end

/-! ## Facts of every run -/

/-- A call that has returned stays there. -/
def Returns (s : Sys) : Prop := ∀ c r, .returned c r ∈ s.log → ∃ q, s.pc c = .returned q

section
variable {s t : Sys}

theorem Returns.frame (h : Returns s) (hpc : ∀ c q, s.pc c = .returned q → t.pc c = .returned q)
    (hlog : ∀ c r, .returned c r ∈ t.log → .returned c r ∈ s.log) : Returns t := by
  intro c r hc
  obtain ⟨q, hq⟩ := h c r (hlog c r hc)
  exact ⟨q, hpc c q hq⟩

theorem kept_returned {c : ℕ} {p : Pc} (hpc : t.pc = Function.update s.pc c p)
    (hbusy : ∀ q, s.pc c ≠ .returned q) : ∀ d q, s.pc d = .returned q → t.pc d = .returned q := by
  intro d q hd
  have hdc : d ≠ c := by
    intro he
    exact hbusy q (he ▸ hd)
  simpa [hpc, hdc] using hd

theorem Returns.ret (h : Returns s) {c : ℕ} {r : ℤ}
    (hpc : t.pc = Function.update s.pc c (.returned r)) (hlog : t.log = s.log++[.returned c r]) :
    Returns t := by
  intro d q hd
  by_cases hdc : d = c
  · exact ⟨r, by simp [hpc, hdc]⟩
  · have hold : .returned d q ∈ s.log := by simpa [hlog, hdc] using hd
    obtain ⟨q', hq'⟩ := h d q hold
    exact ⟨q', by simpa [hpc, hdc] using hq'⟩

theorem answer_returned {cmd : RwnxCmd} {cause : Option ℕ} {param : List UInt8} {c : ℕ} {r : ℤ} :
    .returned c r ∉ answer cmd cause param := by
  unfold answer
  split_ifs <;> simp

theorem msgind_returns (h : Returns s) (msg : ℕ) (cause : Option ℕ) (param : List UInt8) :
    Returns (s.msgind msg cause param) := by
  rcases msgind_cases s msg cause param with ⟨he, -⟩ | ⟨k, -, he⟩ <;> rw [he]
  · exact h
  · refine h.frame (fun _ _ hq => hq) ?_
    intro c r hc
    rcases List.mem_append.mp hc with hc | hc
    · exact hc
    · exact absurd hc answer_returned

theorem jump_busy {c : ℕ} {p : Pc} (hj : Jump s c p) (q : ℤ) : s.pc c ≠ .returned q := by
  cases hj with
  | entry hc | full hc | emptied _ hc | sendNoCfm _ hc | notEmpty hc | short _ hc =>
    simp [hc]

theorem move_returns {a : Act} (hm : Move s a t) (h : Returns s) : Returns t := by
  have happ : ∀ d, ∀ c r, .returned c r ∈ s.log++[.appended d] → .returned c r ∈ s.log := by
    intro d c r hc
    simpa using hc
  have hpush : ∀ d, ∀ c r, .returned c r ∈ s.log++[.pushed d] → .returned c r ∈ s.log := by
    intro d c r hc
    simpa using hc
  cases hm with
  | start c r hc =>
    exact h.frame (kept_returned (c := c) (p := .entry) rfl (by simp [hc]))
      fun _ _ hr => hr
  | poll => exact h
  | jump c p hj => exact h.frame (kept_returned rfl (jump_busy hj)) fun _ _ hr => hr
  | leave c | giveUp c | wake c | freeRet c => exact h.ret (c := c) (r := 0) rfl rfl
  | malloc c k hc =>
    exact h.frame (kept_returned rfl (by simp [hc])) fun _ _ hr => hr
  | refused c k r hc =>
    exact h.frame (kept_returned rfl (by simp [hc])) fun _ _ hr => hr
  | direct c k hc =>
    exact h.frame (kept_returned (c := c) (p := .push k) rfl (by simp [hc])) (happ c)
  | deferred c k p hc =>
    exact h.frame (kept_returned (c := c) (p := p) rfl (by simp [hc])) (happ c)
  | push c k hc =>
    exact h.frame (kept_returned (c := c) (p := .wait k) rfl (by simp [hc])) (hpush _)
  | wakeUp c k hc | freeCmd c k hc | callTimeout c k hc =>
    exact h.frame (kept_returned rfl (by simp [hc])) fun _ _ hr => hr
  | workPush k => exact h.frame (fun _ _ hq => hq) (hpush _)
  | startWork | rest | claim | clearFlag | workWakeUp | workGiveUp | workFree | workTimeout
  | busDown => exact h
  | confirm c param => exact msgind_returns (s := { s with sent := s.sent.erase c }) h _ _ _
  | stray msg param => exact msgind_returns h _ _ _

/-- Once a command was given up the manager is crashed, and both stay so. -/
theorem move_calm {a : Act} (hm : Move s a t) (h : s.lost = true → s.mgr.state = .crashed) :
    (t.lost = true → t.mgr.state = .crashed) ∧ (t.lost = false → s.lost = false) := by
  cases hm with
  | giveUp c k =>
    refine ⟨fun _ => timedOut_state, ?_⟩
    intro hl
    exact (Bool.or_eq_false_iff.mp hl).1
  | workGiveUp k =>
    refine ⟨fun _ => timedOut_state, ?_⟩
    intro hl
    exact (Bool.or_eq_false_iff.mp hl).1
  | confirm c param =>
    rw [msgind_lost, msgind_state]
    exact ⟨h, id⟩
  | stray msg param =>
    rw [msgind_lost, msgind_state]
    exact ⟨h, id⟩
  | _ => exact ⟨h, id⟩

end

/-! ## Steps of the other parties -/

/-- A command on the list of a call that asks for an answer is in the hands of the call. -/
def Kept (s : Sys) : Prop :=
  ∀ k ∈ s.mgr.cmds, asks (s.request (s.mgr.cmdArray k).owner) = true →
    (callStage (s.pc (s.mgr.cmdArray k).owner)).slot = some k

def Phase (s : Sys) (c : ℕ) : Pc → Prop
  | .push k | .wait k | .timedOut k =>
    (k ∈ s.mgr.cmds → s.lost = false) ∧ (k ∉ s.mgr.cmds → Heard c s.log)
  | .freeCmd _ | .testEmpty | .wake | .returned _ => Heard c s.log
  | .sendNoCfm _ | .freeRet _ | .deferTest _ => False
  | _ => True

structure Apart (s t : Sys) (c : ℕ) : Prop where
  pc : t.pc c = s.pc c
  request : t.request c = s.request c
  held : ∀ k, (callStage (s.pc c)).slot = some k →
    (k ∈ t.mgr.cmds ↔ k ∈ s.mgr.cmds) ∧ (k ∈ s.mgr.cmds → t.lost = s.lost)
  log : ∃ es, t.log = s.log++es ∧ Silent c es

section
variable {s t : Sys} {c : ℕ}

theorem Phase.apart (h : Phase s c (s.pc c)) (ha : Apart s t c) : Phase t c (t.pc c) := by
  obtain ⟨hpc, -, hheld, es, hlog, -⟩ := ha
  rw [hpc]
  cases hp : s.pc c with
  | push k | wait k | timedOut k =>
    rw [hp] at h hheld
    obtain ⟨hmem, hlost⟩ := hheld k rfl
    constructor
    · intro hk
      have hold := hmem.mp hk
      rw [hlost hold]
      exact h.1 hold
    · intro hk
      rw [hlog]
      exact (h.2 fun hold => hk (hmem.mpr hold)).more es
  | freeCmd | testEmpty | wake | returned =>
    rw [hp] at h
    simp only [Phase, hlog]
    exact Heard.more h es
  | sendNoCfm | freeRet | deferTest =>
    rw [hp] at h
    exact h
  | _ => trivial

theorem silent_nil : Silent c [] := by simp [Silent]

theorem silent_returned {d : ℕ} {r : ℤ} (hd : c ≠ d) : Silent c [.returned d r] := by
  simp [Silent, Ne.symm hd]

theorem silent_appended (c d : ℕ) : Silent c [.appended d] := by simp [Silent]

theorem silent_pushed (c d : ℕ) : Silent c [.pushed d] := by simp [Silent]

/-- A step that leaves the list alone. -/
theorem Apart.frame (hpc : t.pc c = s.pc c) (hreq : t.request c = s.request c)
    (hcmds : t.mgr.cmds = s.mgr.cmds) (hlost : t.lost = s.lost)
    (hlog : ∃ es, t.log = s.log++es ∧ Silent c es) : Apart s t c where
  pc := hpc
  request := hreq
  held := fun k _ => ⟨by rw [hcmds], fun _ => hlost⟩
  log := hlog

theorem Apart.enqueue {d k : ℕ} {b : Bool} {p : Pc} (hw : Wf s.mgr (view s)) (hd : c ≠ d)
    (hc : s.pc d = .queue k) : Apart s (((s.put (s.mgr.enqueue k b)).goto d p).note (.appended d)) c where
  pc := by simp [Sys.note, Sys.goto, Sys.put, hd]
  request := rfl
  held := by
    intro j hj
    have hjk : j ≠ k := by
      intro he
      have hsole := hw.sole (some c) (some d) k (he ▸ hj) (by simp [view, hc, callStage, Stage.slot])
      exact hd (Option.some.inj hsole)
    exact ⟨(keeps_enqueue b hjk).mem, fun _ => rfl⟩
  log := ⟨_, rfl, silent_appended c d⟩

theorem Apart.giveUp {b : Option ℕ} {k : ℕ} (hw : Wf s.mgr (view s)) (hb : b ≠ some c)
    (ha : view s b = .waiting k) (hpc : t.pc c = s.pc c) (hreq : t.request c = s.request c)
    (hmgr : t.mgr = s.mgr.timedOut k) (hlost : t.lost = (s.lost || decide (k ∈ s.mgr.cmds)))
    (hlog : ∃ es, t.log = s.log++es ∧ Silent c es) : Apart s t c where
  pc := hpc
  request := hreq
  held := by
    intro j hj
    have hjk : j ≠ k := by
      intro he
      exact hb (hw.sole b (some c) k (stage_slot ha) (he ▸ hj))
    constructor
    · rw [hmgr]
      exact (keeps_timedOut hw ha hjk).mem
    · intro hmem
      have hjhead := held_head hw (a := some c) hj hmem
      have hk : k ∉ s.mgr.cmds := by
        intro hk
        have hkhead := held_head hw (a := b) (stage_slot ha) hk
        exact hjk (Option.some.inj (hjhead.symm.trans hkhead))
      simp [hlost, hk]
  log := hlog

/-- The party whose step an action is; messages come from outside. -/
def actor : Act → Option ℕ
  | .start c _ | .call c | .callTimeout c => some c
  | _ => none

def isMessage : Act → Bool
  | .confirm _ _ | .stray _ _ => true
  | _ => false

theorem move_apart {a : Act} (hs : Sound s) (hm : Move s a t) (hc : actor a ≠ some c)
    (hmsg : isMessage a = false) : Apart s t c := by
  have hw := hs.wf
  have hnil : ∃ es, s.log = s.log++es ∧ Silent c es := ⟨[], (List.append_nil _).symm, silent_nil⟩
  have hother : ∀ d p, c ≠ d → (Function.update s.pc d p) c = s.pc c := by
    intro d p hd
    exact Function.update_of_ne hd p s.pc
  have hne : ∀ {d}, some d ≠ some c → c ≠ d := fun hd he => hd (congrArg some he.symm)
  cases hm with
  | start d r =>
    have hreq : Function.update s.request d r c = s.request c :=
      Function.update_of_ne (hne hc) r s.request
    exact .frame (hother d _ (hne hc)) hreq rfl rfl hnil
  | poll => exact .frame rfl rfl rfl rfl hnil
  | jump d p => exact .frame (hother d p (hne hc)) rfl rfl rfl hnil
  | leave d | wake d | freeRet d =>
    exact .frame (hother d _ (hne hc)) rfl rfl rfl ⟨_, rfl, silent_returned (hne hc)⟩
  | malloc d | refused d | wakeUp d | freeCmd d | callTimeout d =>
    exact .frame (hother d _ (hne hc)) rfl rfl rfl hnil
  | direct d k hd => exact Apart.enqueue hw (hne hc) hd
  | deferred d k p hd => exact Apart.enqueue hw (hne hc) hd
  | push d k =>
    exact .frame (hother d _ (hne hc)) rfl rfl rfl ⟨_, rfl, silent_pushed c _⟩
  | giveUp d k hd =>
    have ha : view s (some d) = .waiting k := view_at hd
    exact Apart.giveUp hw hc ha (hother d _ (hne hc)) rfl rfl rfl
      ⟨_, rfl, silent_returned (hne hc)⟩
  | startWork | rest | claim | clearFlag | workWakeUp | workFree | workTimeout | busDown =>
    exact .frame rfl rfl rfl rfl hnil
  | workPush k => exact .frame rfl rfl rfl rfl ⟨_, rfl, silent_pushed c _⟩
  | workGiveUp k hd =>
    have ha : view s none = .waiting k := view_worker hd
    exact Apart.giveUp (b := none) hw (by simp) ha rfl rfl rfl rfl hnil
  | confirm | stray => cases hmsg

/-! ## Steps of the call itself -/

theorem asks_iff {r : Request} :
    asks r = true ↔ r.via = .sendMsg ∧ r.reqcfm = true ∧ r.cfm = true := by
  simp [asks, and_assoc]

/-- The queue function takes the command of an unhindered call for pushing. -/
theorem clear_not_deferred (hs : Sound s) {k : ℕ} (hc : s.pc c = .queue k)
    (hask : asks (s.request c) = true) (hclear : Clear s c (.queue k)) :
    ¬ ((s.request c).via = .sendMsg1 true ∨ s.mgr.cmds ≠ [] ∨
      CmdMgr.alwaysDeferred (s.mgr.cmdArray k).id = true) := by
  obtain ⟨-, hempty, hid⟩ := hclear
  have hslot : (callStage (s.pc c)).slot = some k := by rw [hc]; rfl
  have hown := hs.owned.holder c k hslot
  have hserves := (hs.owned.slot k (holder_used hs.wf hslot)).2.ident.1
  rw [hown] at hserves
  rintro (hvia | hne | hdefer)
  · rw [(asks_iff.mp hask).1] at hvia
    cases hvia
  · exact hne hempty
  · rw [hserves, hid] at hdefer
    cases hdefer

theorem Returns.none (h : Returns s) (hc : ∀ q, s.pc c ≠ .returned q) (r : ℤ) :
    .returned c r ∉ s.log := by
  intro hr
  obtain ⟨q, hq⟩ := h c r hr
  exact hc q hq

theorem phase_at {p : Pc} (hpc : t.pc c = p) (h : Phase t c p) : Phase t c (t.pc c) := by
  rwa [hpc]

theorem own_phase {a : Act} (hs : Sound s) (hret : Returns s)
    (hcalm : s.lost = true → s.mgr.state = .crashed) (hm : Move s a t) (hact : actor a = some c)
    (hu : Unhindered s a) (hask : asks (t.request c) = true)
    (hf : asks (s.request c) = true → s.pc c ≠ .idle →
      Phase s c (s.pc c) ∧ Answered c s.log) :
    Phase t c (t.pc c) ∧ Answered c t.log := by
  have hw := hs.wf
  have hgoto : ∀ p, (Function.update s.pc c p) c = p := fun p => Function.update_self c p s.pc
  have hnone : (∀ q, s.pc c ≠ .returned q) → ∀ r, .returned c r ∉ s.log := hret.none
  cases hm with
  | start d r hc =>
    obtain rfl := Option.some.inj hact
    exact ⟨phase_at (hgoto .entry) trivial, answered_of_none (hnone (by simp [hc]))⟩
  | poll d k hc =>
    obtain rfl := Option.some.inj hact
    exact hf hask (by simp [hc])
  | jump d p hj =>
    obtain rfl := Option.some.inj hact
    cases hj with
    | entry hc | full hc =>
      exact ⟨phase_at (hgoto _) trivial, (hf hask (by simp [hc])).2⟩
    | emptied k hc =>
      have hnext : Sys.afterMalloc (s.request d) k = .queue k := if_pos (asks_iff.mp hask).2.1
      rw [hnext]
      exact ⟨phase_at (hgoto _) trivial, (hf hask (by simp [hc])).2⟩
    | sendNoCfm k hc | short _ hc =>
      have hph := (hf hask (by simp [hc])).1
      rw [hc] at hph
      cases hph
    | notEmpty hc =>
      have hph := hf hask (by simp [hc])
      rw [hc] at hph
      exact ⟨phase_at (hgoto _) hph.1, hph.2⟩
  | leave d hl =>
    obtain rfl := Option.some.inj hact
    cases hl with
    | down hc hv hb =>
      have hclear := hu.2 _ rfl hask
      rw [hc, Clear, hb] at hclear
      cases hclear
    | empty hc =>
      have hheard := (hf hask (by simp [hc])).1
      rw [hc] at hheard
      exact ⟨phase_at (hgoto (.returned 0)) (Heard.more hheard _),
        Answered.close (hnone (by simp [hc])) hheard⟩
    | behind first hc =>
      have hph := (hf hask (by simp [hc])).1
      rw [hc] at hph
      cases hph
  | malloc d k hc =>
    obtain rfl := Option.some.inj hact
    have hnext : mallocNext (s.request d) k = .waitEmpty k := by
      obtain ⟨hvia, -, hcfm⟩ := asks_iff.mp hask
      exact if_pos ⟨hvia, hcfm⟩
    rw [hnext]
    exact ⟨phase_at (hgoto (.waitEmpty k)) trivial, (hf hask (by simp [hc])).2⟩
  | refused d k r hc hm =>
    obtain rfl := Option.some.inj hact
    have hclear := hu.2 _ rfl hask
    rw [hc] at hclear
    rcases hm with hcrash | hne
    · rw [hclear.1] at hcrash
      cases hcrash
    · exact absurd hclear.2.1 hne
  | direct d k hc hi =>
    obtain rfl := Option.some.inj hact
    have hans := (hf hask (by simp [hc])).2
    have hlost : s.lost = false := by
      cases hl : s.lost with
      | false => rfl
      | true =>
        rw [hcalm hl] at hi
        cases hi
    have hmem : k ∈ s.mgr.cmds++[k] := by simp
    exact ⟨phase_at (hgoto (.push k)) ⟨fun _ => hlost, fun hk => absurd hmem hk⟩,
      hans.more (silent_appended d d)⟩
  | deferred d k p hc _ hd =>
    obtain rfl := Option.some.inj hact
    have hclear := hu.2 _ rfl hask
    rw [hc] at hclear
    exact absurd hd (clear_not_deferred hs hc hask hclear)
  | push d k hc =>
    obtain rfl := Option.some.inj hact
    obtain ⟨hph, hans⟩ := hf hask (by simp [hc])
    rw [hc] at hph
    exact ⟨phase_at (hgoto (.wait k)) ⟨hph.1, fun hk => (hph.2 hk).more _⟩,
      hans.more (silent_pushed d _)⟩
  | wakeUp d k hc hn =>
    obtain rfl := Option.some.inj hact
    obtain ⟨hph, hans⟩ := hf hask (by simp [hc])
    rw [hc] at hph
    have ha : view s (some d) = .waiting k := view_at hc
    have hheard := hph.2 (waiting_gone hw ha hn).1
    exact ⟨phase_at (hgoto (.freeCmd k)) hheard, hans⟩
  | giveUp d k hc =>
    obtain rfl := Option.some.inj hact
    obtain ⟨hph, -⟩ := hf hask (by simp [hc])
    have hclear := hu.2 _ rfl hask
    rw [hc] at hph hclear
    have hheard := hph.2 hclear
    exact ⟨phase_at (hgoto (.returned 0)) (hheard.more _),
      Answered.close (hnone (by simp [hc])) hheard⟩
  | freeCmd d k hc =>
    obtain rfl := Option.some.inj hact
    obtain ⟨hph, hans⟩ := hf hask (by simp [hc])
    rw [hc] at hph
    exact ⟨phase_at (hgoto .testEmpty) hph, hans⟩
  | wake d hc =>
    obtain rfl := Option.some.inj hact
    obtain ⟨hheard, -⟩ := hf hask (by simp [hc])
    rw [hc] at hheard
    exact ⟨phase_at (hgoto (.returned 0)) (Heard.more hheard _),
      Answered.close (hnone (by simp [hc])) hheard⟩
  | freeRet d k hc =>
    obtain rfl := Option.some.inj hact
    have hph := (hf hask (by simp [hc])).1
    rw [hc] at hph
    cases hph
  | callTimeout d k hc =>
    obtain rfl := Option.some.inj hact
    obtain ⟨hph, hans⟩ := hf hask (by simp [hc])
    rw [hc] at hph
    exact ⟨phase_at (hgoto (.timedOut k)) hph, hans⟩
  | _ => cases hact

/-- A command that stays on the list, with its owner still holding it. -/
theorem kept_at {a : Act} (hs : Sound s) (hm : Move s a t) (h : Kept s) {j : ℕ}
    (hj : j ∈ s.mgr.cmds) (hown : (t.mgr.cmdArray j).owner = (s.mgr.cmdArray j).owner)
    (hask : asks (t.request (t.mgr.cmdArray j).owner) = true)
    (hv : (view s (some (s.mgr.cmdArray j).owner)).slot = some j →
      (view t (some (s.mgr.cmdArray j).owner)).slot = some j) :
    (callStage (t.pc (t.mgr.cmdArray j).owner)).slot = some j := by
  have hbusy := (hs.owned.slot j ((hs.wf.slots j).listed hj).1).1
  rw [hown] at hask ⊢
  rw [move_request hm hbusy] at hask
  exact hv (h j hj hask)

theorem move_kept {a : Act} (hs : Sound s) (hm : Move s a t) (hu : Unhindered s a) (h : Kept s) :
    Kept t := by
  have hw := hs.wf
  intro j hj hask
  cases move_effect hs hm with
  | still hst =>
    rw [hst.cmds] at hj
    exact kept_at hs hm h hj (by rw [hst.slots j hj]) hask (hst.held _ j hj)
  | append c k d st ha hc hmgr hview hnew =>
    have hslot : (callStage (s.pc c)).slot = some k := by rw [hc]; rfl
    have hown : (t.mgr.cmdArray j).owner = (s.mgr.cmdArray j).owner := by
      rw [hmgr]
      exact (enqueue_sameUse s.mgr k d j).owner
    by_cases hjk : j = k
    · subst hjk
      rw [hown, hs.owned.holder c j hslot] at hask ⊢
      rcases hnew with ⟨-, hd⟩ | ⟨-, rfl⟩
      · rw [move_request hm (by simp [hc])] at hask
        subst ha
        have hclear := hu.2 _ rfl hask
        rw [hc] at hclear
        exact absurd hd (clear_not_deferred hs hc hask hclear)
      · have hpc : view t (some c) = .pushing j := by rw [hview, Function.update_self]
        exact congrArg Stage.slot hpc
    · rw [hmgr] at hj
      refine kept_at hs hm h ((keeps_enqueue d hjk).mem.mp hj) hown hask ?_
      intro hold
      rw [hview, Function.update_of_ne]
      · exact hold
      · intro he
        rw [he] at hold
        exact hjk (Option.some.inj (hold.symm.trans hslot))
  | clear k hc hmgr hview =>
    have hown : (t.mgr.cmdArray j).owner = (s.mgr.cmdArray j).owner := by
      rw [hmgr]
      exact (pushed_sameUse s.mgr k j).owner
    rw [hmgr] at hj
    refine kept_at hs hm h hj hown hask ?_
    rw [hview, Function.update_of_ne (Option.some_ne_none _)]
    exact id
  | expire b k hb hcall hmgr hview =>
    have hown : (t.mgr.cmdArray j).owner = (s.mgr.cmdArray j).owner := by
      rw [hmgr]
      exact (timedOut_sameUse hw hb j).owner
    have hmem : j ∈ s.mgr.cmds := by
      rw [hmgr] at hj
      exact timedOut_mem hw hb hj
    refine kept_at hs hm h hmem hown hask ?_
    intro hold
    rw [hview, Function.update_of_ne]
    · exact hold
    · -- The party that gives up would be the call itself, which finds its command confirmed.
      intro he
      obtain ⟨rfl, hpc⟩ := hcall _ he.symm
      rw [hown, move_request hm (by simp [hpc])] at hask
      have hclear := hu.2 _ rfl hask
      rw [hpc] at hclear
      rw [he, hb] at hold
      exact hclear (Option.some.inj hold ▸ hmem)
  | take k hk hmgr hview =>
    have htaken := confirm_taken (hw.slots k)
    have hjk : j ≠ k := by
      rintro rfl
      rw [hmgr] at hj
      exact htaken.unlisted hw.nodup hj
    have hkeep := htaken.keeps hjk
    rw [hmgr] at hj
    refine kept_at hs hm h (hkeep.mem.mp hj) (by rw [hmgr, hkeep.cmd]) hask ?_
    rw [hview]
    exact id

/-! ## A confirmation arrives -/

/-- A call whose command is on the list is before its answer. -/
theorem phase_listed (hph : Phase s c (s.pc c)) {k : ℕ} (hw : Wf s.mgr (view s))
    (hslot : (callStage (s.pc c)).slot = some k) (hk : k ∈ s.mgr.cmds) :
    s.lost = false ∧ (∀ q, s.pc c ≠ .returned q) ∧
      (k ∉ t.mgr.cmds → Heard c t.log → Phase t c (s.pc c)) := by
  have hold := hw.holds (some c)
  cases hpc : s.pc c with
  | push j | wait j | timedOut j =>
    rw [hpc] at hph hslot
    obtain rfl := Option.some.inj hslot
    exact ⟨hph.1 hk, by simp, fun hnot hheard => ⟨fun hmem => absurd hmem hnot, fun _ => hheard⟩⟩
  | waitEmpty j | queue j | sendNoCfm j | freeRet j | freeCmd j =>
    simp only [view, hpc, callStage] at hold
    rw [hpc] at hslot
    obtain rfl := Option.some.inj hslot
    exact absurd hk hold.2.1
  | idle | entry | malloc | testEmpty | deferTest | wake | returned | oops =>
    rw [hpc] at hslot
    cases hslot

theorem answer_heard {cmd : RwnxCmd} (hown : cmd.owner = c) (hmsg : cmd.e2aMsg = true)
    (param : List UInt8) : Heard c (answer cmd (some c) param) := by
  refine ⟨param, by simp [answer, hown], ?_⟩
  intro hne
  have hfull : param.isEmpty = false := by simpa using hne
  simp [answer, hown, hmsg, hfull]

theorem answer_silent {cmd : RwnxCmd} (hown : cmd.owner ≠ c) (cause : Option ℕ)
    (param : List UInt8) : Silent c (answer cmd cause param) := by
  unfold answer
  split_ifs <;> simp [Silent, hown]

theorem confirm_phase (hs : Sound s) (hret : Returns s) (hkept : Kept s)
    (hline : s.lost = false → InLine s) {d k : ℕ} {param : List UInt8} (hd : d ∈ s.sent)
    (hfind : s.mgr.findCmd (s.request d).reqid = some k) (hpc : t.pc = s.pc)
    (hreq : t.request = s.request) (hmgr : t.mgr = s.mgr.confirm k) (hlost : t.lost = s.lost)
    (hlog : t.log = s.log++answer (s.mgr.cmdArray k) (some d) param)
    (hask : asks (s.request c) = true) (hph : Phase s c (s.pc c)) (hans : Answered c s.log) :
    Phase t c (t.pc c) ∧ Answered c t.log := by
  have hk := findCmd_mem hfind
  have htaken := confirm_taken (hs.wf.slots k)
  by_cases hown : (s.mgr.cmdArray k).owner = c
  · have hslot : (callStage (s.pc c)).slot = some k := by
      have hkeep := hkept k hk (by rwa [hown])
      rwa [hown] at hkeep
    obtain ⟨hl, hbusy, hphase⟩ := phase_listed (t := t) hph hs.wf hslot hk
    -- While the command is on the list the firmware can only confirm this one.
    obtain ⟨j, -, -, hj, hfound⟩ := sent_found hs (hline hl).serial hd
    obtain rfl : k = j := Option.some.inj (hfind.symm.trans hfound)
    obtain rfl : d = c := hj.symm.trans hown
    have hmsg : (s.mgr.cmdArray k).e2aMsg = true := by
      have hserves := (hs.owned.slot k ((hs.wf.slots k).listed hk).1).2.ident.2.2
      rw [hown] at hserves
      rw [hserves]
      exact (asks_iff.mp hask).2.2
    obtain ⟨q, hconf, hwrote⟩ := answer_heard hown hmsg param
    have hheard : Heard d t.log := by
      rw [hlog]
      exact ⟨q, List.mem_append_right _ hconf, fun hne => List.mem_append_right _ (hwrote hne)⟩
    have hnot : k ∉ t.mgr.cmds := by
      rw [hmgr]
      exact htaken.unlisted hs.wf.nodup
    constructor
    · rw [hpc]
      exact hphase hnot hheard
    · apply answered_of_none
      intro r hr
      rw [hlog] at hr
      rcases List.mem_append.mp hr with hr | hr
      · exact hret.none hbusy r hr
      · exact answer_returned hr
  · have hsilent := answer_silent hown (some d) param
    have hapart : Apart s t c := by
      constructor
      · rw [hpc]
      · rw [hreq]
      · intro j hj
        have hjk : j ≠ k := by
          rintro rfl
          exact hown (hs.owned.holder c j hj)
        rw [hmgr]
        exact ⟨(htaken.keeps hjk).mem, fun _ => hlost⟩
      · exact ⟨_, hlog, hsilent⟩
    rw [hlog]
    exact ⟨hph.apart hapart, hans.more hsilent⟩

/-! ## Whole runs -/

structure Followed (s : Sys) : Prop where
  sound : Sound s
  calm : s.lost = true → s.mgr.state = .crashed
  inLine : s.lost = false → InLine s
  returns : Returns s
  kept : Kept s
  calls : ∀ c, asks (s.request c) = true → s.pc c ≠ .idle →
    Phase s c (s.pc c) ∧ Answered c s.log

theorem move_calls {a : Act} (h : Followed s) (hm : Move s a t) (hu : Unhindered s a) (c : ℕ)
    (hask : asks (t.request c) = true) (hbusy : t.pc c ≠ .idle) :
    Phase t c (t.pc c) ∧ Answered c t.log := by
  by_cases hact : actor a = some c
  · exact own_phase h.sound h.returns h.calm hm hact hu hask (h.calls c)
  · cases hmsg : isMessage a with
    | false =>
      have hapart := move_apart h.sound hm hact hmsg
      rw [hapart.request] at hask
      rw [hapart.pc] at hbusy
      obtain ⟨hph, hans⟩ := h.calls c hask hbusy
      obtain ⟨es, hlog, hsilent⟩ := hapart.log
      rw [hlog]
      exact ⟨hph.apart hapart, hans.more hsilent⟩
    | true =>
      cases hm with
      | confirm d param hd =>
        rcases msgind_cases { s with sent := s.sent.erase d } (s.request d).reqid (some d) param
          with ⟨he, -⟩ | ⟨k, hk, he⟩ <;> rw [he] at hask hbusy ⊢
        · exact h.calls c hask hbusy
        · obtain ⟨hph, hans⟩ := h.calls c hask hbusy
          exact confirm_phase h.sound h.returns h.kept h.inLine hd hk rfl rfl rfl rfl rfl hask hph
            hans
      | stray msg param =>
        rcases msgind_cases s msg none param with ⟨he, -⟩ | ⟨k, hk, -⟩
        · rw [he] at hask hbusy ⊢
          exact h.calls c hask hbusy
        · have hreqid := List.find?_some hk
          have hne := hu.1 k (findCmd_mem hk)
          simp [hne] at hreqid
      | _ => cases hmsg

end

theorem step_followed {s t : Sys} {a : Act} (hu : Unhindered s a) (hs : step s a = some t)
    (h : Followed s) : Followed t := by
  have hm := step_move h.sound.wf hs
  obtain ⟨hcalm, hback⟩ := move_calm hm h.calm
  exact ⟨step_sound h.sound hs, hcalm,
    fun hl => move_inLine h.sound hm hu.1 hl (h.inLine (hback hl)), move_returns hm h.returns,
    move_kept h.sound hm hu h.kept, move_calls h hm hu⟩

theorem init_followed : Followed init where
  sound := init_sound
  calm := fun hl => by cases hl
  inLine := fun _ => init_inLine
  returns := fun c r hr => by cases hr
  kept := fun k hk => by cases hk
  calls := fun c _ hc => absurd rfl hc

/-- In every run in which no call that asks for an answer takes a branch that
returns without it, each such call is answered before it returns. -/
theorem run_answered {as : List Act} {s : Sys} (hm : Meets step Unhindered init as)
    (h : exec step init as = some s) {c : ℕ} (hask : asks (s.request c) = true) :
    Answered c s.log := by
  have hnext : ∀ s a t, Unhindered s a → step s a = some t → Followed s → Followed t :=
    fun s a t hu hs hf => step_followed hu hs hf
  have hend := exec_invariant hnext init_followed hm h
  by_cases hc : s.pc c = .idle
  · exact answered_of_none (hend.returns.none (by simp [hc]))
  · exact (hend.calls c hask hc).2

/-- A call with a buffer, and a command behind it that the work item sends. -/
def answeredRun : List Act :=
  [.start 0 ⟨1, 2, true, true, .sendMsg⟩, .start 1 ⟨3, 2, true, false, .sendMsg1 false⟩, .call 0,
    .call 0, .call 0, .call 0, .call 1, .call 1, .call 1, .call 0, .confirm 0 [5, 6], .call 0, .call 0,
    .call 0, .call 0, .call 1, .startWork, .work, .work, .work, .confirm 1 [7], .work, .work, .work]

theorem run_answered_pair : ∃ s, exec step init answeredRun = some s ∧ Answered 0 s.log ∧
    .returned 0 0 ∈ s.log ∧ .wrote 0 [5, 6] ∈ s.log := by
  have hrun : exec step init answeredRun = some ((exec step init answeredRun).get (by decide)) :=
    (Option.some_get _).symm
  exact ⟨_, hrun, run_answered (by decide) hrun (by decide), by decide, by decide⟩

/-- The firmware stays silent and the wait of the call times out. -/
def silentRun : List Act :=
  [.start 0 ⟨1, 2, true, true, .sendMsg⟩, .call 0, .call 0, .call 0, .call 0, .call 0,
    .callTimeout 0, .call 0]

theorem silence_returns_zero : ∃ s, exec step init silentRun = some s ∧
    asks (s.request 0) = true ∧ ¬ Answered 0 s.log := by
  have hrun : exec step init silentRun = some ((exec step init silentRun).get (by decide)) :=
    (Option.some_get _).symm
  refine ⟨_, hrun, by decide, ?_⟩
  intro h
  have hlog : ((exec step init silentRun).get (by decide)).log =
      [.appended 0, .pushed 0]++.returned 0 0::[] := by decide
  rcases h _ _ _ hlog with ⟨-, ⟨param, hconf, -⟩, -⟩ | hr
  · simp at hconf
  · cases hr

end AIC.CommandAnswer
