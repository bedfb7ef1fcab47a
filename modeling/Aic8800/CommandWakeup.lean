import Aic8800.CommandMoves

/-!
# Who will serve the list

A command on the list is in the hands of a call or of the work item, or waits
for the work item. So the list cannot be forgotten while the work item is
scheduled or running or some call is on its way to schedule it. The one step
that may break this is the test of `queue_sz` outside the lock, after which a
sender returns without scheduling the work item.
-/

set_option autoImplicit false

namespace AIC.CommandWakeup
open AIC.CommandMachine AIC.CommandSlots AIC.CommandMoves Lib.GuardedRun

/-- The call has appended a command and has a step to make at once. -/
def midway (s : Sys) (c : ℕ) : Bool :=
  match s.pc c with
  | .push _ | .timedOut _ | .freeCmd _ | .testEmpty | .deferTest _ | .wake => true
  | .wait k => (s.mgr.cmdArray k).complete != 0
  | _ => false

/-- The head of the list was pushed and its call waits, or the work item is
scheduled or running. -/
def Attended (s : Sys) : Prop :=
  (∃ c k, s.mgr.cmds.head? = some k ∧ (s.mgr.cmdArray k).owner = c ∧ .pushed c ∈ s.log ∧
    s.pc c = .wait k) ∨ s.workPending = true ∨ s.worker ≠ .idle

def NoLostWakeup (s : Sys) : Prop :=
  s.mgr.state = .inited → s.mgr.cmds ≠ [] → (∀ c, midway s c = false) → Attended s

/-- The call will schedule the work item, unless it finds the list empty. -/
def heading : Pc → Bool
  | .push _ | .wait _ | .timedOut _ | .freeCmd _ | .testEmpty | .wake | .deferTest true => true
  | _ => false

/-- Whenever a sender finds `queue_sz` above 1 and so leaves the list to others,
somebody is there to serve it. -/
def Relieved (s : Sys) : Act → Prop
  | .call c => ∀ first, s.pc c = .deferTest first → 1 < s.mgr.queueSz → s.mgr.state = .inited →
      s.workPending = true ∨ s.worker ≠ .idle ∨ ∃ d, d ≠ c ∧ heading (s.pc d) = true
  | _ => True

/-- Every command on the list is held by a party or left to the work item. -/
def Tended (s : Sys) : Prop :=
  s.mgr.state = .inited → ∀ k ∈ s.mgr.cmds, (s.mgr.cmdArray k).flags.waitPush = true ∨
    ∃ b, (view s b).slot = some k

def Served (s : Sys) : Prop :=
  s.mgr.state = .inited → s.mgr.cmds ≠ [] →
    s.workPending = true ∨ s.worker ≠ .idle ∨ ∃ c, heading (s.pc c) = true

section
variable {s t : Sys}

theorem move_inited {a : Act} (hm : Move s a t) (h : t.mgr.state = .inited) :
    s.mgr.state = .inited := by
  cases hm with
  | giveUp c k =>
    have hcrash : ((s.giveUp k).ret c 0).mgr.state = .crashed := timedOut_state
    rw [hcrash] at h
    cases h
  | workGiveUp k =>
    have hcrash : (s.giveUp k).mgr.state = .crashed := timedOut_state
    rw [hcrash] at h
    cases h
  | confirm c param => rwa [msgind_state] at h
  | stray msg param => rwa [msgind_state] at h
  | _ => exact h

theorem move_tended {a : Act} (hs : Sound s) (hm : Move s a t) (h : Tended s) : Tended t := by
  have hw := hs.wf
  have hi := move_inited hm
  intro ht j hj
  have hold := h (hi ht) j
  cases move_effect hs hm with
  | still hst =>
    rw [hst.cmds] at hj
    rw [hst.slots j hj]
    rcases hold hj with hp | ⟨b, hb⟩
    · exact Or.inl hp
    · exact Or.inr ⟨b, hst.held b j hj hb⟩
  | append c k d p _ hc hmgr hview hnew =>
    by_cases hjk : j = k
    · subst hjk
      rcases hnew with ⟨rfl, -⟩ | ⟨rfl, hp⟩
      · left
        simp [hmgr, CmdMgr.enqueue]
      · right
        exact ⟨some c, by rw [hview, Function.update_self, hp]; rfl⟩
    · have hkeep := keeps_enqueue (m := s.mgr) (k := k) d hjk
      rw [hmgr] at hj ⊢
      rw [hkeep.cmd]
      rcases hold (hkeep.mem.mp hj) with hp | ⟨b, hb⟩
      · exact Or.inl hp
      · have ha : (view s (some c)).slot = some k := by simp [view, hc, callStage, Stage.slot]
        have hbc : b ≠ some c := by
          rintro rfl
          exact hjk (Option.some.inj (hb.symm.trans ha))
        right
        exact ⟨b, by rw [hview, Function.update_of_ne hbc]; exact hb⟩
  | clear k hc hmgr hview =>
    by_cases hjk : j = k
    · right
      exact ⟨none, by rw [hview, hjk, Function.update_self]; rfl⟩
    · have hkeep := keeps_setFlags (m := s.mgr) (k := k) pushed hjk
      rw [hmgr] at hj ⊢
      rw [hkeep.cmd]
      rcases hold hj with hp | ⟨b, hb⟩
      · exact Or.inl hp
      · have hbn : b ≠ none := by
          rintro rfl
          rw [hc] at hb
          exact hjk (Option.some.inj hb).symm
        right
        exact ⟨b, by rw [hview, Function.update_of_ne hbn]; exact hb⟩
  | expire b k _ _ hmgr =>
    rw [hmgr, timedOut_state] at ht
    cases ht
  | take k hk hmgr hview =>
    have htaken := confirm_taken (hw.slots k)
    have hjk : j ≠ k := by
      rintro rfl
      rw [hmgr] at hj
      exact htaken.unlisted hw.nodup hj
    have hkeep := htaken.keeps hjk
    rw [hmgr] at hj ⊢
    rw [hkeep.cmd, hview]
    exact hold (hkeep.mem.mp hj)

/-! ## Somebody is there to serve the list -/

theorem Served.frame (h : Served s) (hi : t.mgr.state = .inited → s.mgr.state = .inited)
    (hcmds : t.mgr.cmds ≠ [] → s.mgr.cmds ≠ []) (hpending : s.workPending = true → t.workPending = true)
    (hwork : s.worker ≠ .idle → t.worker ≠ .idle)
    (hpc : ∀ c, heading (s.pc c) = true → heading (t.pc c) = true) : Served t := by
  intro ht hne
  rcases h (hi ht) (hcmds hne) with hp | hw | ⟨c, hc⟩
  · exact Or.inl (hpending hp)
  · exact Or.inr (Or.inl (hwork hw))
  · exact Or.inr (Or.inr ⟨c, hpc c hc⟩)

theorem heading_call {c : ℕ} {p : Pc} (hpc : t.pc = Function.update s.pc c p)
    (hp : heading (s.pc c) = true → heading p = true) :
    ∀ d, heading (s.pc d) = true → heading (t.pc d) = true := by
  intro d hd
  by_cases hdc : d = c
  · subst hdc
    simpa [hpc] using hp hd
  · simpa [hpc, hdc] using hd

theorem served_by {c : ℕ} {p : Pc} (hpc : t.pc = Function.update s.pc c p)
    (hp : heading p = true) : Served t := by
  intro _ _
  exact Or.inr (Or.inr ⟨c, by simpa [hpc] using hp⟩)

theorem msgind_served (hw : Wf s.mgr (view s)) (h : Served s) (msg : ℕ) (cause : Option ℕ)
    (param : List UInt8) : Served (s.msgind msg cause param) := by
  rcases msgind_cases s msg cause param with ⟨he, -⟩ | ⟨k, -, he⟩ <;> rw [he]
  · exact h
  · have hstate : (s.mgr.confirm k).state = s.mgr.state := confirm_state
    have hcmds := (confirm_taken (hw.slots k)).cmds
    refine h.frame (fun ht => hstate ▸ ht) ?_ id id fun _ hc => hc
    intro hne he
    exact hne (by rw [hcmds, he]; rfl)

/-- The work item goes to rest only when a call still holds the head of the list. -/
theorem rest_served (hs : Sound s) (htend : Tended s) (hc : s.worker = .scan)
    (hp : ∀ k, s.mgr.cmds.head? = some k → (s.mgr.cmdArray k).flags.waitPush = false)
    (hinit : s.mgr.state = .inited) (hne : s.mgr.cmds ≠ []) : ∃ c, heading (s.pc c) = true := by
  obtain ⟨k, hhead⟩ : ∃ k, s.mgr.cmds.head? = some k := by
    cases hcmds : s.mgr.cmds with
    | nil => exact absurd hcmds hne
    | cons k ks => exact ⟨k, rfl⟩
  have hk : k ∈ s.mgr.cmds := List.mem_of_mem_head? hhead
  rcases htend hinit k hk with hpush | ⟨b, hb⟩
  · rw [hp k hhead] at hpush
    cases hpush
  · cases b with
    | none =>
      simp [view, hc, workStage, Stage.slot] at hb
    | some c =>
      refine ⟨c, ?_⟩
      have hold := hs.wf.holds (some c)
      simp only [view] at hb hold
      cases hpc : s.pc c with
      | push | wait | timedOut => rfl
      | waitEmpty j | queue j | sendNoCfm j | freeRet j | freeCmd j =>
        rw [hpc] at hb hold
        obtain rfl := Option.some.inj hb
        exact absurd hk hold.2.1
      | idle | entry | malloc | testEmpty | deferTest | wake | returned | oops =>
        rw [hpc] at hb
        cases hb

theorem move_served {a : Act} (hs : Sound s) (htend : Tended s) (hm : Move s a t)
    (hr : Relieved s a) (h : Served s) : Served t := by
  have hi := move_inited hm
  have hcrash : t.mgr.state = .crashed → Served t := by
    intro hc ht
    rw [hc] at ht
    cases ht
  cases hm with
  | start c r hc =>
    exact h.frame hi id id id (heading_call (p := .entry) rfl (by rw [hc]; exact id))
  | poll => exact h
  | jump c p hj =>
    refine h.frame hi id id id (heading_call (p := p) rfl ?_)
    cases hj with
    | notEmpty | short => exact fun _ => rfl
    | entry hc | full hc | emptied k hc | sendNoCfm k hc =>
      intro hh
      rw [hc] at hh
      cases hh
  | leave c hl =>
    cases hl with
    | down hc =>
      exact h.frame hi id id id (heading_call (c := c) (p := .returned 0) rfl (by rw [hc]; exact id))
    | empty hc he => exact fun _ hne => absurd he hne
    | behind first hc hq =>
      intro ht hne
      rcases hr first hc hq ht with hp | hw | ⟨d, hdc, hd⟩
      · exact Or.inl hp
      · exact Or.inr (Or.inl hw)
      · refine Or.inr (Or.inr ⟨d, ?_⟩)
        simpa [Sys.ret, Sys.goto, Sys.note, hdc] using hd
  | malloc c k hc =>
    exact h.frame hi id id id (heading_call rfl (by simp [hc, heading]))
  | refused c k r hc =>
    exact h.frame hi id id id (heading_call rfl (by simp [hc, heading]))
  | direct c k => exact served_by (s := s) (c := c) (p := .push k) rfl rfl
  | deferred c k p hc hinit _ hp =>
    rcases hp with rfl | rfl
    · exact served_by (s := s) (c := c) (p := .wake) rfl rfl
    · by_cases he : s.mgr.cmds = []
      · exact served_by (s := s) (c := c) (p := .deferTest (decide (s.mgr.cmds = []))) rfl
          (by simp [he, heading])
      · exact h.frame hi (fun _ => he) id id (heading_call (s := s) (c := c) rfl (by simp [hc, heading]))
  | push c k => exact served_by (s := s) (c := c) (p := .wait k) rfl rfl
  | wakeUp c k => exact served_by (s := s) (c := c) (p := .freeCmd k) rfl rfl
  | giveUp c k => exact hcrash timedOut_state
  | freeCmd c k => exact served_by (s := s) (c := c) (p := .testEmpty) rfl rfl
  | wake c => exact fun _ _ => Or.inl rfl
  | freeRet c k hc =>
    exact h.frame hi id id id (heading_call (c := c) (p := .returned 0) rfl (by simp [hc, heading]))
  | callTimeout c k => exact served_by (s := s) (c := c) (p := .timedOut k) rfl rfl
  | rest hc hp =>
    intro ht hne
    have hcall := rest_served hs htend hc hp ht hne
    exact Or.inr (Or.inr hcall)
  | startWork | claim | clearFlag | workPush | workWakeUp | workGiveUp | workFree | workTimeout =>
    exact fun _ _ => Or.inr (Or.inl (by simp))
  | confirm c param => exact msgind_served (s := { s with sent := s.sent.erase c }) hs.wf h _ _ _
  | stray msg param => exact msgind_served hs.wf h _ _ _
  | busDown => exact h

/-! ## A call that waits has pushed its command -/

theorem move_log {a : Act} (hm : Move s a t) : ∃ es, t.log = s.log++es := by
  cases hm with
  | leave | direct | deferred | push | giveUp | wake | freeRet | workPush => exact ⟨_, rfl⟩
  | confirm c param => exact msgind_log { s with sent := s.sent.erase c } _ _ _
  | stray msg param => exact msgind_log s _ _ _
  | _ => exact ⟨[], (List.append_nil _).symm⟩

def Pushed (s : Sys) : Prop := ∀ c k, s.pc c = .wait k → .pushed c ∈ s.log

theorem Pushed.frame (h : Pushed s) (hlog : ∃ es, t.log = s.log++es)
    (hpc : ∀ c k, t.pc c = .wait k → s.pc c = .wait k) : Pushed t := by
  obtain ⟨es, hes⟩ := hlog
  intro c k hc
  rw [hes]
  exact List.mem_append_left _ (h c k (hpc c k hc))

theorem Pushed.call (h : Pushed s) (hlog : ∃ es, t.log = s.log++es) {c : ℕ} {p : Pc}
    (hpc : t.pc = Function.update s.pc c p) (hp : ∀ k, p ≠ .wait k) : Pushed t := by
  apply h.frame hlog
  intro d k hd
  by_cases hdc : d = c
  · subst hdc
    exact absurd (by simpa [hpc] using hd) (hp k)
  · simpa [hpc, hdc] using hd

theorem jump_not_wait {c : ℕ} {p : Pc} (hj : Jump s c p) (k : ℕ) : p ≠ .wait k := by
  cases hj with
  | emptied j =>
    intro he
    have hstage := afterMalloc_stage (s.request c) j
    rw [he] at hstage
    cases hstage
  | entry | full | sendNoCfm | notEmpty | short => simp

theorem move_pushed {a : Act} (hs : Sound s) (hm : Move s a t) (h : Pushed s) : Pushed t := by
  have hlog := move_log hm
  cases hm with
  | start c r => exact h.call (c := c) (p := .entry) hlog rfl (by simp)
  | poll => exact h
  | jump c p hj => exact h.call hlog rfl (jump_not_wait hj)
  | leave c | giveUp c | wake c | freeRet c =>
    exact h.call (c := c) (p := .returned 0) hlog rfl (by simp)
  | malloc c k =>
    refine h.call hlog rfl ?_
    intro j he
    have hstage := mallocNext_stage (s.request c) k
    rw [he] at hstage
    cases hstage
  | refused | direct | wakeUp | freeCmd | callTimeout => exact h.call hlog rfl (by simp)
  | deferred c k p _ _ _ hp => exact h.call hlog rfl (by rcases hp with rfl | rfl <;> simp)
  | push c k hc =>
    have hown : (s.mgr.cmdArray k).owner = c := hs.owned.holder c k (by rw [hc]; rfl)
    intro d j hd
    by_cases hdc : d = c
    · simp [Sys.send, Sys.note, Sys.goto, hown, hdc]
    · have hold := h d j (by simpa [Sys.send, Sys.note, Sys.goto, hdc] using hd)
      simp [Sys.send, Sys.note, Sys.goto, hold]
  | startWork | rest | claim | clearFlag | workPush | workWakeUp | workGiveUp | workFree
  | workTimeout | busDown => exact h.frame hlog fun _ _ hc => hc
  | confirm c param => exact h.frame hlog fun _ _ hc => by rwa [msgind_pc] at hc
  | stray msg param => exact h.frame hlog fun _ _ hc => by rwa [msgind_pc] at hc

end

/-! ## Whole runs -/

structure Awake (s : Sys) : Prop where
  sound : Sound s
  tended : Tended s
  served : Served s
  pushed : Pushed s

theorem init_awake : Awake init where
  sound := init_sound
  tended := fun _ k hk => by cases hk
  served := fun _ hne => absurd rfl hne
  pushed := fun c k hc => by cases hc

theorem step_awake {s t : Sys} {a : Act} (hr : Relieved s a) (hs : step s a = some t)
    (h : Awake s) : Awake t := by
  have hm := step_move h.sound.wf hs
  exact ⟨step_sound h.sound hs, move_tended h.sound hm h.tended,
    move_served h.sound h.tended hm hr h.served, move_pushed h.sound hm h.pushed⟩

/-- At rest, the one call that is on its way waits for the head of the list. -/
theorem Awake.noLostWakeup {s : Sys} (h : Awake s) : NoLostWakeup s := by
  intro hinit hne hrest
  rcases h.served hinit hne with hp | hw | ⟨c, hc⟩
  · exact Or.inr (Or.inl hp)
  · exact Or.inr (Or.inr hw)
  · left
    have hmid := hrest c
    have hold := h.sound.wf.holds (some c)
    cases hpc : s.pc c with
    | wait k =>
      have hown : (s.mgr.cmdArray k).owner = c := h.sound.owned.holder c k (by rw [hpc]; rfl)
      simp only [view, hpc, callStage] at hold
      rcases hold.2.2 with hhead | hgone
      · exact ⟨c, k, hhead, hown, h.pushed c k hpc, hpc⟩
      · have hpos := hgone.2.2.2
        simp [midway, hpc] at hmid
        omega
    | _ => simp [midway, heading, hpc] at hmid hc

/-- A deferred command, the work item scheduled for it, and a second one behind it. -/
def burstRun : List Act :=
  [.start 0 ⟨ME_TRAFFIC_IND_REQ, 2, true, false, .sendMsg⟩,
    .start 1 ⟨ME_TRAFFIC_IND_REQ, 2, true, false, .sendMsg⟩, .call 0, .call 0, .call 0, .call 0,
    .call 0, .call 1, .call 1, .call 1, .call 1]

/-- Two senders of deferred commands, both past the append before either tests `queue_sz`. -/
def stallRun : List Act :=
  [.start 0 ⟨ME_TRAFFIC_IND_REQ, 2, true, false, .sendMsg⟩,
    .start 1 ⟨ME_TRAFFIC_IND_REQ, 2, true, false, .sendMsg⟩, .call 0, .call 0, .call 0,
    .call 1, .call 1, .call 1, .call 0, .call 1]

end AIC.CommandWakeup
