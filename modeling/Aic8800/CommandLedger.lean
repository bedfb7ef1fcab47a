import Aic8800.CommandMoves

/-!
# The ledger of `cmd_array`

`cmd_mgr_drain` joins the parties of the command manager. To the slots every
step is one of a few entries in a ledger: a party takes a slot, moves on with
it, passes it to the list or gives it back, and the list loses a command to a
message, a time-out or the drain. The ledger holds of all states, also of those
that a drain leaves behind.
-/

set_option autoImplicit false

namespace AIC.CommandLedger
open AIC.CommandMachine hiding step
open AIC.CommandSlots AIC.CommandMoves

/-! ## The manager with its drain -/

def drainCmd (m : CmdMgr) (k : ℕ) : CmdMgr :=
  let m := { m with cmds := m.cmds.erase k, queueSz := m.queueSz-1 }
  if (m.cmdArray k).flags.nonblock then m
  else m.modify k fun cmd => { cmd with complete := cmd.complete+1 }

def cmdMgrDrain (m : CmdMgr) : CmdMgr := m.cmds.foldl drainCmd m

inductive Act where
  | mgr (a : CommandMachine.Act)
  | drain

def step (s : Sys) : Act → Option Sys
  | .mgr a => CommandMachine.step s a
  | .drain => some (s.put (cmdMgrDrain s.mgr))

/-- No command is nonblocking and none waits for an acknowledgement. -/
def Plain (m : CmdMgr) : Prop :=
  ∀ k, (m.cmdArray k).flags.nonblock = false ∧ (m.cmdArray k).flags.waitAck = false

theorem drainCmd_eq {m : CmdMgr} (h : Plain m) (k : ℕ) : drainCmd m k =
    { m.modify k (fun cmd => { cmd with complete := cmd.complete+1 }) with
      cmds := m.cmds.erase k
      queueSz := m.queueSz-1 } := by
  simp [drainCmd, (h k).1, CmdMgr.modify]

theorem drainCmd_plain {m : CmdMgr} (h : Plain m) (k : ℕ) : Plain (drainCmd m k) := by
  intro j
  rw [drainCmd_eq h]
  by_cases hj : j = k
  · subst hj
    simpa [CmdMgr.modify] using h j
  · simpa [CmdMgr.modify, hj] using h j

/-- A slot after the drain: only its count of completions has changed. -/
def SameBut (cmd cmd' : RwnxCmd) : Prop := cmd' = { cmd with complete := cmd'.complete }

theorem drain_loop (l : List ℕ) {m : CmdMgr} (h : Plain m) (hl : m.cmds = l) :
    (l.foldl drainCmd m).cmds = [] ∧
      ∀ k, SameBut (m.cmdArray k) ((l.foldl drainCmd m).cmdArray k) := by
  induction l generalizing m with
  | nil => exact ⟨hl, fun k => rfl⟩
  | cons j l ih =>
    have htail : (drainCmd m j).cmds = l := by simp [drainCmd_eq h, hl]
    obtain ⟨hcmds, hslots⟩ := ih (drainCmd_plain h j) htail
    refine ⟨hcmds, fun k => ?_⟩
    have hk := hslots k
    rw [drainCmd_eq h] at hk
    rw [List.foldl_cons, drainCmd_eq h]
    by_cases hkj : k = j
    · subst hkj
      simpa [SameBut, CmdMgr.modify] using hk
    · simpa [SameBut, CmdMgr.modify, hkj] using hk

theorem drain_cmds {m : CmdMgr} (h : Plain m) : (cmdMgrDrain m).cmds = [] :=
  (drain_loop m.cmds h rfl).1

theorem drain_slot {m : CmdMgr} (h : Plain m) (k : ℕ) :
    SameBut (m.cmdArray k) ((cmdMgrDrain m).cmdArray k) := (drain_loop m.cmds h rfl).2 k

/-! ## The entries -/

/-- A step in the ledger: the manager and the stage of each party. -/
inductive Shift (m : CmdMgr) (v : Option ℕ → Stage) : CmdMgr → (Option ℕ → Stage) → Prop where
  | stay : Shift m v m v
  | malloc (c k : ℕ) (r : Request) (ha : v (some c) = .none) (hk : (m.cmdArray k).used = false) :
      Shift m v (m.modify k (Sys.initCmd r c)) (Function.update v (some c) (.fresh k))
  | refused (c k : ℕ) (r : ℤ) (ha : v (some c) = .fresh k) : Shift m v (m.setResult k r) v
  | direct (c k : ℕ) (ha : v (some c) = .fresh k) :
      Shift m v (m.enqueue k false) (Function.update v (some c) (.pushing k))
  | deferred (c k : ℕ) (ha : v (some c) = .fresh k) :
      Shift m v (m.enqueue k true) (Function.update v (some c) .none)
  | push (a : Option ℕ) (k : ℕ) (ha : v a = .pushing k) :
      Shift m v m (Function.update v a (.waiting k))
  | wakeUp (a : Option ℕ) (k : ℕ) (ha : v a = .waiting k) (hc : (m.cmdArray k).complete ≠ 0) :
      Shift m v (m.modify k wakeUp) (Function.update v a (.finished k))
  | free (a : Option ℕ) (k : ℕ) (ha : v a = .fresh k ∨ v a = .finished k) :
      Shift m v (m.rwnxCmdFree k) (Function.update v a .none)
  | claim (k : ℕ) (ha : v none = .none) (hk : k ∈ m.cmds)
      (hp : (m.cmdArray k).flags.waitPush = true) :
      Shift m v m (Function.update v none (.claimed k))
  | clearFlag (k : ℕ) (ha : v none = .claimed k) :
      Shift m v (m.setFlags k pushed) (Function.update v none (.pushing k))

/-- The step may take a command off the list. -/
def Taking (s : Sys) : Act → Prop
  | .mgr (.call c) => ∃ k, s.pc c = .timedOut k
  | .mgr .work => ∃ k, s.worker = .timedOut k
  | .mgr (.confirm _ _) | .mgr (.stray _ _) | .drain => True
  | _ => False

/-! ## Every other step is an entry -/

section
variable {s t : Sys} {c : ℕ}

theorem shift_call {p : Pc} (hpc : t.pc = Function.update s.pc c p) (hwork : t.worker = s.worker)
    (h : Shift s.mgr (view s) t.mgr (Function.update (view s) (some c) (callStage p))) :
    Shift s.mgr (view s) t.mgr (view t) := by
  rwa [view_call hpc hwork]

theorem shift_work {w : WorkPc} (hpc : t.pc = s.pc) (hwork : t.worker = w)
    (h : Shift s.mgr (view s) t.mgr (Function.update (view s) none (workStage w))) :
    Shift s.mgr (view s) t.mgr (view t) := by
  rwa [view_work hpc hwork]

theorem shift_still (hpc : t.pc = s.pc) (hwork : t.worker = s.worker) (hm : t.mgr = s.mgr) :
    Shift s.mgr (view s) t.mgr (view t) := by
  rw [view_still hpc hwork, hm]
  exact .stay

/-- The call moves on without touching the manager. -/
theorem shift_pass {p : Pc} (hpc : t.pc = Function.update s.pc c p) (hwork : t.worker = s.worker)
    (hm : t.mgr = s.mgr) (hp : callStage p = callStage (s.pc c)) :
    Shift s.mgr (view s) t.mgr (view t) := by
  have hsame : Function.update (view s) (some c) (callStage p) = view s :=
    Function.update_eq_self_iff.mpr hp
  apply shift_call hpc hwork
  rw [hsame, hm]
  exact .stay

theorem shift_rest {w : WorkPc} (hpc : t.pc = s.pc) (hwork : t.worker = w) (hm : t.mgr = s.mgr)
    (hw : workStage w = workStage s.worker) : Shift s.mgr (view s) t.mgr (view t) := by
  have hsame : Function.update (view s) none (workStage w) = view s :=
    Function.update_eq_self_iff.mpr hw
  apply shift_work hpc hwork
  rw [hsame, hm]
  exact .stay

theorem queueStep_shift {k : ℕ} (h : s.pc c = .queue k) :
    Shift s.mgr (view s) (s.queueStep c k).mgr (view (s.queueStep c k)) := by
  have ha : view s (some c) = .fresh k := view_at h
  have hrefused : ∀ (r : ℤ) {u : Sys}, u = (s.put (s.mgr.setResult k r)).goto c (.freeRet k) →
      Shift s.mgr (view s) u.mgr (view u) := by
    rintro r u rfl
    refine shift_call (s := s) (c := c) (p := .freeRet k) rfl rfl ?_
    have hsame : Function.update (view s) (some c) (callStage (.freeRet k)) = view s := by
      rw [Function.update_eq_self_iff, ha]
      rfl
    rw [hsame]
    exact .refused c k r ha
  have hdeferred : ∀ {p : Pc} {u : Sys}, callStage p = .none →
      u = ((s.put (s.mgr.enqueue k true)).goto c p).note (.appended c) →
      Shift s.mgr (view s) u.mgr (view u) := by
    rintro p u hp rfl
    refine shift_call (s := s) (c := c) (p := p) rfl rfl ?_
    rw [hp]
    exact .deferred c k ha
  by_cases hforce : (s.request c).via = .sendMsg1 true
  · rcases cmdMgrQueueForceDefer_cases s.mgr k with ⟨r, hq, -⟩ | ⟨hq, -⟩
    · exact hrefused r (by simp [Sys.queueStep, hforce, hq])
    · exact hdeferred (p := .wake) rfl (by simp [Sys.queueStep, hforce, hq])
  · rcases cmdMgrQueue_cases s.mgr k with ⟨r, hq, -⟩ | ⟨hq, -⟩ | ⟨hq, -⟩
    · exact hrefused r (by simp [Sys.queueStep, hforce, hq])
    · have hu : s.queueStep c k =
          ((s.put (s.mgr.enqueue k false)).goto c (.push k)).note (.appended c) := by
        simp [Sys.queueStep, hforce, hq]
      rw [hu]
      exact shift_call (p := .push k) rfl rfl (.direct c k ha)
    · exact hdeferred (p := .deferTest (decide (s.mgr.cmds = []))) rfl
        (by simp [Sys.queueStep, hforce, hq])

theorem callStep_shift (hp : Plain s.mgr) (htime : ¬ ∃ k, s.pc c = .timedOut k)
    (h : s.callStep c = some t) : Shift s.mgr (view s) t.mgr (view t) := by
  unfold Sys.callStep at h
  cases hpc : s.pc c with
  | idle | returned | oops => simp [hpc] at h
  | entry =>
    simp only [hpc, Option.some.injEq] at h
    split_ifs at h <;> subst h
    · exact shift_pass (p := .returned 0) rfl rfl rfl (by rw [hpc]; rfl)
    · exact shift_pass (p := .malloc) rfl rfl rfl (by rw [hpc]; rfl)
  | malloc =>
    cases hk : s.mgr.freeSlot with
    | none =>
      simp only [hpc, hk, Option.some.injEq] at h
      subst h
      exact shift_pass (p := .oops) rfl rfl rfl (by rw [hpc]; rfl)
    | some k =>
      simp only [hpc, hk, Option.some.injEq] at h
      subst h
      refine shift_call (s := s) (c := c) (p := mallocNext (s.request c) k) rfl rfl ?_
      rw [mallocNext_stage]
      exact .malloc c k (s.request c) (view_at hpc) (freeSlot_unused hk)
  | waitEmpty k =>
    simp only [hpc] at h
    split_ifs at h with he <;> obtain rfl := Option.some.inj h
    · exact shift_pass rfl rfl rfl (by rw [hpc, afterMalloc_stage]; rfl)
    · exact shift_still rfl rfl rfl
  | queue k =>
    simp only [hpc, Option.some.injEq] at h
    subst h
    exact queueStep_shift hpc
  | sendNoCfm k =>
    simp only [hpc, Option.some.injEq] at h
    subst h
    exact shift_pass (p := .freeRet k) rfl rfl rfl (by rw [hpc]; rfl)
  | push k =>
    simp only [hpc, (hp k).1, Bool.false_eq_true, if_false, Option.some.injEq] at h
    subst h
    exact shift_call (p := .wait k) rfl rfl (.push (some c) k (view_at hpc))
  | wait k =>
    simp only [hpc] at h
    split_ifs at h with hc
    obtain rfl := Option.some.inj h
    exact shift_call (p := .freeCmd k) rfl rfl (.wakeUp (some c) k (view_at hpc) hc)
  | timedOut k => exact absurd ⟨k, hpc⟩ htime
  | freeCmd k =>
    simp only [hpc, Option.some.injEq] at h
    subst h
    exact shift_call (p := .testEmpty) rfl rfl (.free (some c) k (Or.inr (view_at hpc)))
  | testEmpty =>
    simp only [hpc, Option.some.injEq] at h
    split_ifs at h <;> subst h
    · exact shift_pass (p := .returned 0) rfl rfl rfl (by rw [hpc]; rfl)
    · exact shift_pass (p := .wake) rfl rfl rfl (by rw [hpc]; rfl)
  | deferTest first =>
    simp only [hpc, Option.some.injEq] at h
    split_ifs at h <;> subst h
    · exact shift_pass (p := .wake) rfl rfl rfl (by rw [hpc]; rfl)
    · exact shift_pass (p := .returned 0) rfl rfl rfl (by rw [hpc]; rfl)
  | wake =>
    simp only [hpc, Option.some.injEq] at h
    subst h
    exact shift_pass (p := .returned 0) rfl rfl rfl (by rw [hpc]; rfl)
  | freeRet k =>
    simp only [hpc, Option.some.injEq] at h
    subst h
    exact shift_call (p := .returned 0) rfl rfl (.free (some c) k (Or.inl (view_at hpc)))

theorem workStep_shift (htime : ¬ ∃ k, s.worker = .timedOut k) (h : s.workStep = some t) :
    Shift s.mgr (view s) t.mgr (view t) := by
  unfold Sys.workStep at h
  cases hpc : s.worker with
  | idle => simp [hpc] at h
  | scan =>
    have hnone : view s none = .none := view_worker hpc
    simp only [hpc] at h
    cases hl : s.mgr.cmds with
    | nil =>
      simp only [hl, Option.some.injEq] at h
      subst h
      exact shift_rest (w := .idle) rfl rfl rfl (by rw [hpc]; rfl)
    | cons k ks =>
      simp only [hl, Option.some.injEq] at h
      subst h
      cases hw : (s.mgr.cmdArray k).flags.waitPush with
      | true => exact shift_work (w := .clearFlag k) rfl rfl (.claim k hnone (by simp [hl]) hw)
      | false =>
        exact shift_rest (w := .idle) rfl rfl rfl (by rw [hpc]; rfl)
  | clearFlag k =>
    simp only [hpc, Option.some.injEq] at h
    subst h
    exact shift_work (w := .push k) rfl rfl (.clearFlag k (view_worker hpc))
  | push k =>
    simp only [hpc, Option.some.injEq] at h
    subst h
    exact shift_work (w := .wait k) rfl rfl (.push none k (view_worker hpc))
  | wait k =>
    simp only [hpc] at h
    split_ifs at h with hc
    obtain rfl := Option.some.inj h
    exact shift_work (w := .freeCmd k) rfl rfl (.wakeUp none k (view_worker hpc) hc)
  | timedOut k => exact absurd ⟨k, hpc⟩ htime
  | freeCmd k =>
    simp only [hpc, Option.some.injEq] at h
    subst h
    exact shift_work (w := .scan) rfl rfl (.free none k (Or.inr (view_worker hpc)))

theorem step_shift {a : Act} (hp : Plain s.mgr) (ha : ¬ Taking s a) (h : step s a = some t) :
    Shift s.mgr (view s) t.mgr (view t) := by
  cases a with
  | drain => exact absurd trivial ha
  | mgr a =>
    cases a with
    | start c r =>
      simp only [step, CommandMachine.step] at h
      split_ifs at h with hc
      obtain rfl := Option.some.inj h
      exact shift_pass (p := .entry) rfl rfl rfl (by rw [hc]; rfl)
    | call c => exact callStep_shift hp ha h
    | callTimeout c =>
      simp only [step, CommandMachine.step] at h
      split at h
      · rename_i k hk
        split_ifs at h
        obtain rfl := Option.some.inj h
        exact shift_pass (p := .timedOut k) rfl rfl rfl (by rw [hk]; rfl)
      · cases h
    | startWork =>
      simp only [step, CommandMachine.step] at h
      split_ifs at h with hc
      obtain rfl := Option.some.inj h
      exact shift_rest (w := .scan) rfl rfl rfl (by rw [hc.2]; rfl)
    | work => exact workStep_shift ha h
    | workTimeout =>
      simp only [step, CommandMachine.step] at h
      split at h
      · rename_i k hk
        split_ifs at h
        obtain rfl := Option.some.inj h
        exact shift_rest (w := .timedOut k) rfl rfl rfl (by rw [hk]; rfl)
      · cases h
    | confirm | stray => exact absurd trivial ha
    | busDown =>
      obtain rfl := Option.some.inj h
      exact shift_still rfl rfl rfl

end

end AIC.CommandLedger
