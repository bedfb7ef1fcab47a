import Aic8800.CommandSlots

/-!
# What a step can do

Every step of the machine is one of the moves below, with the facts that the
slots give about it: the nonblocking branches are dead, and a command is pushed
by its call only when the list was empty. All invariants of the command queue
go by cases on the move. The first one says who holds which slot and for which
call each slot was allocated.
-/

set_option autoImplicit false

namespace AIC.CommandMoves
open AIC.CommandMachine AIC.CommandSlots Lib.GuardedRun

/-! ## The moves -/

/-- Steps of a call that change nothing but where it is. -/
inductive Jump (s : Sys) (c : ℕ) : Pc → Prop where
  | entry (h : s.pc c = .entry) : Jump s c .malloc
  | full (h : s.pc c = .malloc) : Jump s c .oops
  | emptied (k : ℕ) (h : s.pc c = .waitEmpty k) : Jump s c (Sys.afterMalloc (s.request c) k)
  | sendNoCfm (k : ℕ) (h : s.pc c = .sendNoCfm k) : Jump s c (.freeRet k)
  | notEmpty (h : s.pc c = .testEmpty) : Jump s c .wake
  | short (first : Bool) (h : s.pc c = .deferTest first) : Jump s c .wake

/-- Steps by which a call returns without touching the manager. -/
inductive Leave (s : Sys) (c : ℕ) : Prop where
  | down (h : s.pc c = .entry) (hv : (s.request c).via = .sendMsg) (hb : s.busDown = true)
  | empty (h : s.pc c = .testEmpty) (he : s.mgr.cmds = [])
  | behind (first : Bool) (h : s.pc c = .deferTest first) (hq : 1 < s.mgr.queueSz)

def mallocNext (r : Request) (k : ℕ) : Pc :=
  if r.via = .sendMsg ∧ r.cfm = true then .waitEmpty k else Sys.afterMalloc r k

def wakeUp (cmd : RwnxCmd) : RwnxCmd := { cmd with complete := cmd.complete-1 }

def pushed (f : Flags) : Flags := { f with waitPush := false }

inductive Move (s : Sys) : Act → Sys → Prop where
  | start (c : ℕ) (r : Request) (h : s.pc c = .idle) :
      Move s (.start c r) ({ s with request := Function.update s.request c r }.goto c .entry)
  | poll (c k : ℕ) (h : s.pc c = .waitEmpty k) : Move s (.call c) s
  | jump (c : ℕ) (p : Pc) (h : Jump s c p) : Move s (.call c) (s.goto c p)
  | leave (c : ℕ) (h : Leave s c) : Move s (.call c) (s.ret c 0)
  | malloc (c k : ℕ) (h : s.pc c = .malloc) (hk : (s.mgr.cmdArray k).used = false) :
      Move s (.call c) ((s.put (s.mgr.modify k (Sys.initCmd (s.request c) c))).goto c
        (mallocNext (s.request c) k))
  | refused (c k : ℕ) (r : ℤ) (h : s.pc c = .queue k)
      (hm : s.mgr.state = .crashed ∨ s.mgr.cmds ≠ []) :
      Move s (.call c) ((s.put (s.mgr.setResult k r)).goto c (.freeRet k))
  | direct (c k : ℕ) (h : s.pc c = .queue k) (hi : s.mgr.state = .inited) (he : s.mgr.cmds = []) :
      Move s (.call c) (((s.put (s.mgr.enqueue k false)).goto c (.push k)).note (.appended c))
  | deferred (c k : ℕ) (p : Pc) (h : s.pc c = .queue k) (hi : s.mgr.state = .inited)
      (hd : (s.request c).via = .sendMsg1 true ∨ s.mgr.cmds ≠ [] ∨
        CmdMgr.alwaysDeferred (s.mgr.cmdArray k).id = true)
      (hp : p = .wake ∨ p = .deferTest (decide (s.mgr.cmds = []))) :
      Move s (.call c) (((s.put (s.mgr.enqueue k true)).goto c p).note (.appended c))
  | push (c k : ℕ) (h : s.pc c = .push k) : Move s (.call c) ((s.send k).goto c (.wait k))
  | wakeUp (c k : ℕ) (h : s.pc c = .wait k) (hc : (s.mgr.cmdArray k).complete ≠ 0) :
      Move s (.call c) ((s.put (s.mgr.modify k wakeUp)).goto c (.freeCmd k))
  | giveUp (c k : ℕ) (h : s.pc c = .timedOut k) : Move s (.call c) ((s.giveUp k).ret c 0)
  | freeCmd (c k : ℕ) (h : s.pc c = .freeCmd k) :
      Move s (.call c) ((s.put (s.mgr.rwnxCmdFree k)).goto c .testEmpty)
  | wake (c : ℕ) (h : s.pc c = .wake) : Move s (.call c) ({ s with workPending := true }.ret c 0)
  | freeRet (c k : ℕ) (h : s.pc c = .freeRet k) :
      Move s (.call c) ((s.put (s.mgr.rwnxCmdFree k)).ret c 0)
  | callTimeout (c k : ℕ) (h : s.pc c = .wait k) : Move s (.callTimeout c) (s.goto c (.timedOut k))
  | startWork (h : s.worker = .idle) : Move s .startWork { s with workPending := false, worker := .scan }
  | rest (h : s.worker = .scan)
      (hp : ∀ k, s.mgr.cmds.head? = some k → (s.mgr.cmdArray k).flags.waitPush = false) :
      Move s .work { s with worker := .idle }
  | claim (k : ℕ) (h : s.worker = .scan) (hk : s.mgr.cmds.head? = some k)
      (hp : (s.mgr.cmdArray k).flags.waitPush = true) : Move s .work { s with worker := .clearFlag k }
  | clearFlag (k : ℕ) (h : s.worker = .clearFlag k) :
      Move s .work { s.put (s.mgr.setFlags k pushed) with worker := .push k }
  | workPush (k : ℕ) (h : s.worker = .push k) : Move s .work { s.send k with worker := .wait k }
  | workWakeUp (k : ℕ) (h : s.worker = .wait k) (hc : (s.mgr.cmdArray k).complete ≠ 0) :
      Move s .work { s.put (s.mgr.modify k wakeUp) with worker := .freeCmd k }
  | workGiveUp (k : ℕ) (h : s.worker = .timedOut k) :
      Move s .work { s.giveUp k with worker := .scan }
  | workFree (k : ℕ) (h : s.worker = .freeCmd k) :
      Move s .work { s.put (s.mgr.rwnxCmdFree k) with worker := .scan }
  | workTimeout (k : ℕ) (h : s.worker = .wait k) : Move s .workTimeout { s with worker := .timedOut k }
  | confirm (c : ℕ) (param : List UInt8) (h : c ∈ s.sent) :
      Move s (.confirm c param)
        ({ s with sent := s.sent.erase c }.msgind (s.request c).reqid (some c) param)
  | stray (id : ℕ) (param : List UInt8) : Move s (.stray id param) (s.msgind id none param)
  | busDown : Move s .busDown { s with busDown := true }

section
variable (m : CmdMgr) (k : ℕ)

theorem inited_of_not_crashed {m : CmdMgr} (h : m.state ≠ .crashed) : m.state = .inited := by
  cases hs : m.state with
  | inited => rfl
  | crashed => exact absurd hs h

theorem lastBusy_cmds {m : CmdMgr} (h : m.lastBusy = true) : m.cmds ≠ [] := by
  intro he
  simp [CmdMgr.lastBusy, he] at h

theorem cmdMgrQueue_cases :
    (∃ r, m.cmdMgrQueue k = (m.setResult k r, .refused) ∧ (m.state = .crashed ∨ m.cmds ≠ [])) ∨
    (m.cmdMgrQueue k = (m.enqueue k false, .direct) ∧ m.state = .inited ∧ m.lastBusy = false) ∨
    (m.cmdMgrQueue k = (m.enqueue k true, .deferred) ∧ m.state = .inited ∧
      (m.cmds ≠ [] ∨ CmdMgr.alwaysDeferred (m.cmdArray k).id = true)) := by
  unfold CmdMgr.cmdMgrQueue
  split_ifs with hcrash hfull hdefer
  · exact Or.inl ⟨_, rfl, Or.inl hcrash⟩
  · exact Or.inl ⟨_, rfl, Or.inr hfull.1⟩
  · refine Or.inr (Or.inr ⟨rfl, inited_of_not_crashed hcrash, ?_⟩)
    rcases Bool.or_eq_true_iff.mp hdefer with hb | ha
    · exact Or.inl (lastBusy_cmds hb)
    · exact Or.inr ha
  · have hb : m.lastBusy = false := by
      cases hl : m.lastBusy with
      | false => rfl
      | true => simp [hl] at hdefer
    exact Or.inr (Or.inl ⟨rfl, inited_of_not_crashed hcrash, hb⟩)

theorem cmdMgrQueueForceDefer_cases :
    (∃ r, m.cmdMgrQueueForceDefer k = (m.setResult k r, .refused) ∧
      (m.state = .crashed ∨ m.cmds ≠ [])) ∨
    (m.cmdMgrQueueForceDefer k = (m.enqueue k true, .deferred) ∧ m.state = .inited) := by
  unfold CmdMgr.cmdMgrQueueForceDefer
  split_ifs with hcrash hfull
  · exact Or.inl ⟨_, rfl, Or.inl hcrash⟩
  · exact Or.inl ⟨_, rfl, Or.inr hfull.1⟩
  · exact Or.inr ⟨rfl, inited_of_not_crashed hcrash⟩

end

theorem queueStep_move {s : Sys} (hw : Wf s.mgr (view s)) {c k : ℕ} (h : s.pc c = .queue k) :
    Move s (.call c) (s.queueStep c k) := by
  by_cases hforce : (s.request c).via = .sendMsg1 true
  · rcases cmdMgrQueueForceDefer_cases s.mgr k with ⟨r, hq, hm⟩ | ⟨hq, hi⟩
    · have hmove := Move.refused c k r h hm
      simpa [Sys.queueStep, hforce, hq] using hmove
    · have hmove := Move.deferred c k .wake h hi (Or.inl hforce) (Or.inl rfl)
      simpa [Sys.queueStep, hforce, hq] using hmove
  · rcases cmdMgrQueue_cases s.mgr k with ⟨r, hq, hm⟩ | ⟨hq, hi, hb⟩ | ⟨hq, hi, hd⟩
    · have hmove := Move.refused c k r h hm
      simpa [Sys.queueStep, hforce, hq] using hmove
    · have hmove := Move.direct c k h hi (lastBusy_false hw hb)
      simpa [Sys.queueStep, hforce, hq] using hmove
    · have hmove := Move.deferred c k _ h hi (Or.inr hd) (Or.inr rfl)
      simpa [Sys.queueStep, hforce, hq] using hmove

theorem freeSlot_unused {m : CmdMgr} {k : ℕ} (h : m.freeSlot = some k) :
    (m.cmdArray k).used = false := by
  simpa using List.find?_some h

theorem callStep_move {s t : Sys} (hw : Wf s.mgr (view s)) {c : ℕ} (h : s.callStep c = some t) :
    Move s (.call c) t := by
  unfold Sys.callStep at h
  cases hpc : s.pc c with
  | idle | returned | oops => simp [hpc] at h
  | entry =>
    simp only [hpc, Option.some.injEq] at h
    split_ifs at h with hdown <;> subst h
    · exact .leave c (.down hpc hdown.1 hdown.2)
    · exact .jump c _ (.entry hpc)
  | malloc =>
    cases hk : s.mgr.freeSlot with
    | none =>
      simp only [hpc, hk, Option.some.injEq] at h
      subst h
      exact .jump c _ (.full hpc)
    | some k =>
      simp only [hpc, hk, Option.some.injEq] at h
      subst h
      exact .malloc c k hpc (freeSlot_unused hk)
  | waitEmpty k =>
    simp only [hpc] at h
    split_ifs at h with he <;> obtain rfl := Option.some.inj h
    · exact .jump c _ (.emptied k hpc)
    · exact .poll c k hpc
  | queue k =>
    simp only [hpc, Option.some.injEq] at h
    subst h
    exact queueStep_move hw hpc
  | sendNoCfm k =>
    simp only [hpc, Option.some.injEq] at h
    subst h
    exact .jump c _ (.sendNoCfm k hpc)
  | push k =>
    have hblock := ((hw.slots k).plain).1
    simp only [hpc, hblock, Bool.false_eq_true, if_false, Option.some.injEq] at h
    subst h
    exact .push c k hpc
  | wait k =>
    simp only [hpc] at h
    split_ifs at h with hc
    obtain rfl := Option.some.inj h
    exact .wakeUp c k hpc hc
  | timedOut k =>
    simp only [hpc, Option.some.injEq] at h
    subst h
    exact .giveUp c k hpc
  | freeCmd k =>
    simp only [hpc, Option.some.injEq] at h
    subst h
    exact .freeCmd c k hpc
  | testEmpty =>
    simp only [hpc, Option.some.injEq] at h
    split_ifs at h with he <;> subst h
    · exact .leave c (.empty hpc he)
    · exact .jump c _ (.notEmpty hpc)
  | deferTest first =>
    simp only [hpc, Option.some.injEq] at h
    split_ifs at h with hq <;> subst h
    · exact .jump c _ (.short first hpc)
    · exact .leave c (.behind first hpc (by omega))
  | wake =>
    simp only [hpc, Option.some.injEq] at h
    subst h
    exact .wake c hpc
  | freeRet k =>
    simp only [hpc, Option.some.injEq] at h
    subst h
    exact .freeRet c k hpc

theorem workStep_move {s t : Sys} (h : s.workStep = some t) : Move s .work t := by
  unfold Sys.workStep at h
  cases hpc : s.worker with
  | idle => simp [hpc] at h
  | scan =>
    simp only [hpc] at h
    cases hl : s.mgr.cmds with
    | nil =>
      simp only [hl, Option.some.injEq] at h
      subst h
      exact .rest hpc (by simp [hl])
    | cons k ks =>
      simp only [hl, Option.some.injEq] at h
      subst h
      cases hp : (s.mgr.cmdArray k).flags.waitPush with
      | true => exact .claim k hpc (by simp [hl]) hp
      | false =>
        refine .rest hpc ?_
        intro j hj
        obtain rfl : k = j := by simpa [hl] using hj
        exact hp
  | clearFlag k =>
    simp only [hpc, Option.some.injEq] at h
    subst h
    exact .clearFlag k hpc
  | push k =>
    simp only [hpc, Option.some.injEq] at h
    subst h
    exact .workPush k hpc
  | wait k =>
    simp only [hpc] at h
    split_ifs at h with hc
    obtain rfl := Option.some.inj h
    exact .workWakeUp k hpc hc
  | timedOut k =>
    simp only [hpc, Option.some.injEq] at h
    subst h
    exact .workGiveUp k hpc
  | freeCmd k =>
    simp only [hpc, Option.some.injEq] at h
    subst h
    exact .workFree k hpc

theorem step_move {s t : Sys} (hw : Wf s.mgr (view s)) {a : Act} (h : step s a = some t) :
    Move s a t := by
  cases a with
  | start c r =>
    simp only [step] at h
    split_ifs at h with hc
    obtain rfl := Option.some.inj h
    exact .start c r hc
  | call c => exact callStep_move hw h
  | callTimeout c =>
    simp only [step] at h
    split at h
    · rename_i k hk
      split_ifs at h
      obtain rfl := Option.some.inj h
      exact .callTimeout c k hk
    · cases h
  | startWork =>
    simp only [step] at h
    split_ifs at h with hc
    obtain rfl := Option.some.inj h
    exact .startWork hc.2
  | work => exact workStep_move h
  | workTimeout =>
    simp only [step] at h
    split at h
    · rename_i k hk
      split_ifs at h
      obtain rfl := Option.some.inj h
      exact .workTimeout k hk
    · cases h
  | confirm c param =>
    simp only [step] at h
    split_ifs at h with hc
    obtain rfl := Option.some.inj h
    exact .confirm c param hc
  | stray id param =>
    obtain rfl := Option.some.inj h
    exact .stray id param
  | busDown =>
    obtain rfl := Option.some.inj h
    exact .busDown

/-! ## A message that confirms a command -/

/-- What a message for a command leaves in the log. -/
def answer (cmd : RwnxCmd) (cause : Option ℕ) (param : List UInt8) : List Ev :=
  .confirmed cmd.owner cause param ::
    if cmd.e2aMsg && !param.isEmpty then
      [.wrote cmd.owner (param.take RWNX_CMD_E2AMSG_LEN_MAX)] else []

theorem msgind_found {s : Sys} {id k : ℕ} (h : s.mgr.findCmd id = some k) (cause : Option ℕ)
    (param : List UInt8) : s.msgind id cause param =
      { s with mgr := s.mgr.confirm k, log := s.log++answer (s.mgr.cmdArray k) cause param } := by
  simp only [Sys.msgind, h, answer]
  split_ifs <;> simp [Sys.note, Sys.put]

theorem msgind_cases (s : Sys) (id : ℕ) (cause : Option ℕ) (param : List UInt8) :
    s.msgind id cause param = s ∧ s.mgr.findCmd id = none ∨
    ∃ k, s.mgr.findCmd id = some k ∧ s.msgind id cause param =
      { s with mgr := s.mgr.confirm k, log := s.log++answer (s.mgr.cmdArray k) cause param } := by
  cases h : s.mgr.findCmd id with
  | none =>
    left
    simp [Sys.msgind, h]
  | some k => exact Or.inr ⟨k, rfl, msgind_found h cause param⟩

section
variable (s : Sys) (id : ℕ) (cause : Option ℕ) (param : List UInt8)

@[simp] theorem msgind_pc : (s.msgind id cause param).pc = s.pc := by
  rcases msgind_cases s id cause param with ⟨he, -⟩ | ⟨k, -, he⟩ <;> rw [he]

@[simp] theorem msgind_request : (s.msgind id cause param).request = s.request := by
  rcases msgind_cases s id cause param with ⟨he, -⟩ | ⟨k, -, he⟩ <;> rw [he]

@[simp] theorem msgind_lost : (s.msgind id cause param).lost = s.lost := by
  rcases msgind_cases s id cause param with ⟨he, -⟩ | ⟨k, -, he⟩ <;> rw [he]

@[simp] theorem msgind_state : (s.msgind id cause param).mgr.state = s.mgr.state := by
  rcases msgind_cases s id cause param with ⟨he, -⟩ | ⟨k, -, he⟩ <;> rw [he]
  exact confirm_state

theorem msgind_log : ∃ es, (s.msgind id cause param).log = s.log++es := by
  rcases msgind_cases s id cause param with ⟨he, -⟩ | ⟨k, -, he⟩ <;> rw [he]
  · exact ⟨[], (List.append_nil _).symm⟩
  · exact ⟨_, rfl⟩

end

theorem findCmd_mem {m : CmdMgr} {id k : ℕ} (h : m.findCmd id = some k) : k ∈ m.cmds :=
  List.mem_of_find?_eq_some h

/-! ## Every move keeps the slots -/

theorem view_at {s : Sys} {c : ℕ} {p : Pc} (h : s.pc c = p) : view s (some c) = callStage p := by
  rw [← h]
  rfl

theorem view_worker {s : Sys} {w : WorkPc} (h : s.worker = w) : view s none = workStage w := by
  rw [← h]
  rfl

theorem view_still {s t : Sys} (hpc : t.pc = s.pc) (hwork : t.worker = s.worker) :
    view t = view s := by
  ext a
  cases a with
  | none => simp [view, hwork]
  | some c => simp [view, hpc]

theorem view_call {s t : Sys} {c : ℕ} {p : Pc} (hpc : t.pc = Function.update s.pc c p)
    (hwork : t.worker = s.worker) : view t = Function.update (view s) (some c) (callStage p) := by
  ext a
  cases a with
  | none => simp [view, hwork]
  | some d =>
    by_cases hd : d = c
    · simp [view, hpc, hd]
    · simp [view, hpc, hd]

theorem view_work {s t : Sys} {w : WorkPc} (hpc : t.pc = s.pc) (hwork : t.worker = w) :
    view t = Function.update (view s) none (workStage w) := by
  ext a
  cases a with
  | none => simp [view, hwork]
  | some d => simp [view, hpc]

theorem wf_still {s t : Sys} (hpc : t.pc = s.pc) (hwork : t.worker = s.worker)
    (h : Wf t.mgr (view s)) : Wf t.mgr (view t) := by
  rwa [view_still hpc hwork]

theorem wf_call {s t : Sys} {c : ℕ} {p : Pc} (hpc : t.pc = Function.update s.pc c p)
    (hwork : t.worker = s.worker)
    (h : Wf t.mgr (Function.update (view s) (some c) (callStage p))) : Wf t.mgr (view t) := by
  rwa [view_call hpc hwork]

theorem wf_work {s t : Sys} {w : WorkPc} (hpc : t.pc = s.pc) (hwork : t.worker = w)
    (h : Wf t.mgr (Function.update (view s) none (workStage w))) : Wf t.mgr (view t) := by
  rwa [view_work hpc hwork]

theorem wf_same {m : CmdMgr} {v : Option ℕ → Stage} {a : Option ℕ} {st : Stage} (h : Wf m v)
    (hst : st = v a ∨ st = .none) : Wf m (Function.update v a st) := by
  rcases hst with rfl | rfl
  · rw [Function.update_eq_self]
    exact h
  · exact wf_goto h (Or.inl rfl) trivial

theorem afterMalloc_stage (r : Request) (k : ℕ) : callStage (Sys.afterMalloc r k) = .fresh k := by
  unfold Sys.afterMalloc
  split_ifs <;> rfl

theorem mallocNext_stage (r : Request) (k : ℕ) : callStage (mallocNext r k) = .fresh k := by
  unfold mallocNext
  split_ifs
  · rfl
  · exact afterMalloc_stage r k

theorem Jump.stage {s : Sys} {c : ℕ} {p : Pc} (h : Jump s c p) :
    callStage p = callStage (s.pc c) ∨ callStage p = .none := by
  cases h with
  | emptied k h =>
    left
    rw [h, afterMalloc_stage]
    rfl
  | sendNoCfm k h =>
    left
    rw [h]
    rfl
  | entry | full | notEmpty | short => exact Or.inr rfl

/-- A slot keeps what it was allocated for. -/
structure SameUse (cmd cmd' : RwnxCmd) : Prop where
  used : cmd'.used = true → cmd.used = true
  owner : cmd'.owner = cmd.owner
  ident : cmd'.id = cmd.id ∧ cmd'.reqid = cmd.reqid ∧ cmd'.e2aMsg = cmd.e2aMsg
  reqCfm : cmd.flags.reqCfm = true → cmd'.flags.reqCfm = true

/-- The slot whose wait has timed out for the party that takes this step. -/
def expiring (s : Sys) : Act → Option ℕ
  | .call c =>
    match s.pc c with
    | .timedOut k => some k
    | _ => none
  | .work =>
    match s.worker with
    | .timedOut k => some k
    | _ => none
  | _ => none

/-! ## The call a slot was allocated for -/

structure Serves (s : Sys) (k c : ℕ) : Prop where
  owner : (s.mgr.cmdArray k).owner = c
  ident : (s.mgr.cmdArray k).id = (s.request c).id ∧ (s.mgr.cmdArray k).reqid = (s.request c).reqid ∧
    (s.mgr.cmdArray k).e2aMsg = (s.request c).cfm
  reqCfm : (s.request c).reqcfm = true → (s.mgr.cmdArray k).flags.reqCfm = true

structure Owned (s : Sys) : Prop where
  slot : ∀ k, (s.mgr.cmdArray k).used = true →
    s.pc (s.mgr.cmdArray k).owner ≠ .idle ∧ Serves s k (s.mgr.cmdArray k).owner
  holder : ∀ c k, (callStage (s.pc c)).slot = some k → (s.mgr.cmdArray k).owner = c
  queued : ∀ c k, s.pc c = .queue k → (s.request c).reqcfm = true

structure Sound (s : Sys) : Prop where
  wf : Wf s.mgr (view s)
  owned : Owned s

theorem msgind_wf {s : Sys} (hw : Wf s.mgr (view s)) (id : ℕ) (cause : Option ℕ)
    (param : List UInt8) : Wf (s.msgind id cause param).mgr (view (s.msgind id cause param)) := by
  rcases msgind_cases s id cause param with ⟨he, -⟩ | ⟨k, hk, he⟩ <;> rw [he]
  · exact hw
  · exact wf_still (s := s) rfl rfl (wf_confirm hw (findCmd_mem hk))

theorem callStage_unclaimed (p : Pc) (k : ℕ) : callStage p ≠ .claimed k := by
  cases p <;> simp [callStage]

theorem Sound.reqCfm {s : Sys} (h : Sound s) {c k : ℕ} (hc : s.pc c = .queue k) :
    (s.mgr.cmdArray k).flags.reqCfm = true := by
  have hown : (s.mgr.cmdArray k).owner = c := h.owned.holder c k (by rw [hc]; rfl)
  have hused : (s.mgr.cmdArray k).used = true := (h.wf.holder (view_at hc)).1
  have hserves := (h.owned.slot k hused).2
  rw [hown] at hserves
  exact hserves.reqCfm (h.owned.queued c k hc)

theorem move_wf {s t : Sys} {a : Act} (h : Sound s) (hm : Move s a t) : Wf t.mgr (view t) := by
  have hw := h.wf
  cases hm with
  | start c r => exact wf_call (s := s) (p := .entry) rfl rfl (wf_same hw (Or.inr rfl))
  | poll => exact hw
  | jump c p hj => exact wf_call (s := s) rfl rfl (wf_same hw hj.stage)
  | leave c => exact wf_call (s := s) (p := .returned 0) rfl rfl (wf_same hw (Or.inr rfl))
  | malloc c k _ hk =>
    refine wf_call (s := s) rfl rfl ?_
    rw [mallocNext_stage]
    exact wf_malloc hw hk (s.request c) c
  | refused c k r hc =>
    have ha : view s (some c) = .fresh k := view_at hc
    exact wf_call (s := s) rfl rfl (wf_same (wf_setResult hw ha r) (Or.inl ha.symm))
  | direct c k hc _ he =>
    have ha : view s (some c) = .fresh k := view_at hc
    exact wf_call (s := s) rfl rfl (wf_enqueue_direct hw ha he (h.reqCfm hc))
  | deferred c k p hc _ _ hp =>
    have ha : view s (some c) = .fresh k := view_at hc
    have hp : callStage p = .none := by rcases hp with rfl | rfl <;> rfl
    refine wf_call (s := s) rfl rfl ?_
    rw [hp]
    exact wf_enqueue_deferred hw ha (h.reqCfm hc)
  | push c k hc =>
    have ha : view s (some c) = .pushing k := view_at hc
    exact wf_call (s := s) rfl rfl (wf_pushed hw ha)
  | wakeUp c k hc hn =>
    have ha : view s (some c) = .waiting k := view_at hc
    exact wf_call (s := s) rfl rfl (wf_wake hw ha hn)
  | giveUp c k hc =>
    have ha : view s (some c) = .waiting k := view_at hc
    exact wf_call (s := s) (p := .returned 0) rfl rfl (wf_timedOut hw ha)
  | freeCmd c k hc =>
    have ha : view s (some c) = .finished k := view_at hc
    exact wf_call (s := s) (p := .testEmpty) rfl rfl (wf_free hw (Or.inr ha))
  | wake c => exact wf_call (s := s) (p := .returned 0) rfl rfl (wf_same hw (Or.inr rfl))
  | freeRet c k hc =>
    have ha : view s (some c) = .fresh k := view_at hc
    exact wf_call (s := s) (p := .returned 0) rfl rfl (wf_free hw (Or.inl ha))
  | callTimeout c k hc =>
    have ha : view s (some c) = .waiting k := view_at hc
    exact wf_call (s := s) rfl rfl (wf_same hw (Or.inl ha.symm))
  | startWork => exact wf_work (s := s) (w := .scan) rfl rfl (wf_same hw (Or.inr rfl))
  | rest => exact wf_work (s := s) (w := .idle) rfl rfl (wf_same hw (Or.inr rfl))
  | claim k hc hk hp =>
    have hother : ∀ b, view s b ≠ .claimed k := by
      intro b
      cases b with
      | none => simp [view_worker hc, workStage]
      | some c => exact callStage_unclaimed (s.pc c) k
    exact wf_work (s := s) (w := .clearFlag k) rfl rfl (wf_claim hw hother hk hp)
  | clearFlag k hc =>
    have ha : view s none = .claimed k := view_worker hc
    exact wf_work (s := s) (w := .push k) rfl rfl (wf_clear hw ha)
  | workPush k hc =>
    have ha : view s none = .pushing k := view_worker hc
    exact wf_work (s := s) (w := .wait k) rfl rfl (wf_pushed hw ha)
  | workWakeUp k hc hn =>
    have ha : view s none = .waiting k := view_worker hc
    exact wf_work (s := s) (w := .freeCmd k) rfl rfl (wf_wake hw ha hn)
  | workGiveUp k hc =>
    have ha : view s none = .waiting k := view_worker hc
    exact wf_work (s := s) (w := .scan) rfl rfl (wf_timedOut hw ha)
  | workFree k hc =>
    have ha : view s none = .finished k := view_worker hc
    exact wf_work (s := s) (w := .scan) rfl rfl (wf_free hw (Or.inr ha))
  | workTimeout k hc =>
    have ha : view s none = .waiting k := view_worker hc
    exact wf_work (s := s) (w := .timedOut k) rfl rfl (wf_same hw (Or.inl ha.symm))
  | confirm c param =>
    exact msgind_wf (s := { s with sent := s.sent.erase c }) hw (s.request c).reqid (some c) param
  | stray id param => exact msgind_wf hw id none param
  | busDown => exact hw

/-! ## Every move keeps what the slots were allocated for -/

theorem sameUse_refl (cmd : RwnxCmd) : SameUse cmd cmd := ⟨id, rfl, ⟨rfl, rfl, rfl⟩, id⟩

theorem modify_sameUse {f : RwnxCmd → RwnxCmd} (hf : ∀ cmd, SameUse cmd (f cmd)) (m : CmdMgr)
    (k j : ℕ) : SameUse (m.cmdArray j) ((m.modify k f).cmdArray j) := by
  by_cases hj : j = k
  · rw [hj, modify_self]
    exact hf (m.cmdArray k)
  · rw [(keeps_modify f hj).cmd]
    exact sameUse_refl (m.cmdArray j)

theorem setResult_sameUse (m : CmdMgr) (k : ℕ) (r : ℤ) (j : ℕ) :
    SameUse (m.cmdArray j) ((m.setResult k r).cmdArray j) := by
  apply modify_sameUse
  exact fun cmd => ⟨id, rfl, ⟨rfl, rfl, rfl⟩, id⟩

theorem free_sameUse (m : CmdMgr) (k j : ℕ) :
    SameUse (m.cmdArray j) ((m.rwnxCmdFree k).cmdArray j) := by
  apply modify_sameUse
  exact fun cmd => ⟨by simp, rfl, ⟨rfl, rfl, rfl⟩, id⟩

theorem wakeUp_sameUse (m : CmdMgr) (k j : ℕ) :
    SameUse (m.cmdArray j) ((m.modify k wakeUp).cmdArray j) := by
  apply modify_sameUse
  exact fun cmd => ⟨id, rfl, ⟨rfl, rfl, rfl⟩, id⟩

theorem pushed_sameUse (m : CmdMgr) (k j : ℕ) :
    SameUse (m.cmdArray j) ((m.setFlags k pushed).cmdArray j) := by
  apply modify_sameUse
  exact fun cmd => ⟨id, rfl, ⟨rfl, rfl, rfl⟩, id⟩

theorem enqueue_sameUse (m : CmdMgr) (k : ℕ) (d : Bool) (j : ℕ) :
    SameUse (m.cmdArray j) ((m.enqueue k d).cmdArray j) := by
  by_cases hj : j = k
  · subst hj
    constructor <;> simp [CmdMgr.enqueue]
  · rw [(keeps_enqueue d hj).cmd]
    exact sameUse_refl (m.cmdArray j)

theorem taken_sameUse {m x : CmdMgr} {k : ℕ} {cmd : RwnxCmd} (ht : Taken m x k cmd)
    (hcmd : SameUse (m.cmdArray k) cmd) (j : ℕ) : SameUse (m.cmdArray j) (x.cmdArray j) := by
  by_cases hj : j = k
  · rw [hj, ht.self]
    exact hcmd
  · rw [ht.others j hj]
    exact sameUse_refl (m.cmdArray j)

theorem timedOut_sameUse {m : CmdMgr} {v : Option ℕ → Stage} {a : Option ℕ} {k : ℕ} (h : Wf m v)
    (ha : v a = .waiting k) (j : ℕ) : SameUse (m.cmdArray j) ((m.timedOut k).cmdArray j) := by
  cases hd : (m.cmdArray k).flags.done with
  | true =>
    rw [timedOut_done hd]
    exact sameUse_refl (m.cmdArray j)
  | false =>
    have hmem : k ∈ m.cmds := List.mem_of_mem_head? (waiting_listed h ha (Or.inl hd))
    have ht := timedOut_taken (h.slots k) ((h.slots k).listed hmem).2.1 hd
    exact taken_sameUse ht ⟨id, rfl, ⟨rfl, rfl, rfl⟩, id⟩ j

section
variable {s t : Sys}

theorem Serves.keep {k c : ℕ} (h : Serves s k c) (hslot : SameUse (s.mgr.cmdArray k) (t.mgr.cmdArray k))
    (hreq : t.request c = s.request c) : Serves t k c := by
  obtain ⟨-, howner, ⟨hid, hreqid, hmsg⟩, hcfm⟩ := hslot
  constructor
  · rw [howner]
    exact h.owner
  · rw [hid, hreqid, hmsg, hreq]
    exact h.ident
  · rw [hreq]
    exact fun hr => hcfm (h.reqCfm hr)

/-- The calls stay where they are. -/
theorem Owned.keep (h : Owned s) (hslot : ∀ k, SameUse (s.mgr.cmdArray k) (t.mgr.cmdArray k))
    (hreq : t.request = s.request) (hpc : t.pc = s.pc) : Owned t where
  slot := by
    intro k hk
    obtain ⟨hbusy, hserves⟩ := h.slot k ((hslot k).used hk)
    rw [(hslot k).owner, hpc]
    exact ⟨hbusy, hserves.keep (hslot k) (congrFun hreq _)⟩
  holder := by
    intro c k hc
    rw [hpc] at hc
    rw [(hslot k).owner]
    exact h.holder c k hc
  queued := by
    intro c k hc
    rw [hpc] at hc
    rw [hreq]
    exact h.queued c k hc

theorem Owned.goto (h : Owned s) {c : ℕ} {p : Pc} (hp : p ≠ .idle)
    (hslot : ∀ k, (callStage p).slot = some k → (s.mgr.cmdArray k).owner = c)
    (hq : ∀ k, p = .queue k → (s.request c).reqcfm = true) : Owned (s.goto c p) where
  slot := by
    intro k hk
    obtain ⟨hbusy, hserves⟩ := h.slot k hk
    refine ⟨?_, hserves.owner, hserves.ident, hserves.reqCfm⟩
    by_cases hc : (s.mgr.cmdArray k).owner = c
    · simpa [Sys.goto, hc] using hp
    · simpa [Sys.goto, hc] using hbusy
  holder := by
    intro d k hd
    by_cases hc : d = c
    · rw [hc] at hd ⊢
      exact hslot k (by simpa [Sys.goto] using hd)
    · exact h.holder d k (by simpa [Sys.goto, hc] using hd)
  queued := by
    intro d k hd
    by_cases hc : d = c
    · rw [hc] at hd ⊢
      exact hq k (by simpa [Sys.goto] using hd)
    · exact h.queued d k (by simpa [Sys.goto, hc] using hd)

/-- A call that keeps its slot, or gives it away. -/
theorem Owned.move (h : Owned s) {c : ℕ} {p : Pc} (hp : p ≠ .idle)
    (hslot : (callStage p).slot = none ∨ (callStage p).slot = (callStage (s.pc c)).slot)
    (hq : ∀ k, p ≠ .queue k) : Owned (s.goto c p) := by
  apply h.goto hp
  · intro k hk
    rcases hslot with hn | hn
    · rw [hn] at hk
      cases hk
    · exact h.holder c k (hn ▸ hk)
  · intro k hk
    exact absurd hk (hq k)

theorem Owned.begin (h : Owned s) {c : ℕ} (hc : s.pc c = .idle) (r : Request) :
    Owned ({ s with request := Function.update s.request c r }.goto c .entry) where
  slot := by
    intro k hk
    obtain ⟨hbusy, hserves⟩ := h.slot k hk
    have hne : (s.mgr.cmdArray k).owner ≠ c := fun he => hbusy (he ▸ hc)
    have hsame : SameUse (s.mgr.cmdArray k) (s.mgr.cmdArray k) := sameUse_refl _
    refine ⟨by simpa [Sys.goto, hne] using hbusy, hserves.keep hsame ?_⟩
    simp [Sys.goto, hne]
  holder := by
    intro d k hd
    by_cases hdc : d = c
    · simp [Sys.goto, hdc, callStage, Stage.slot] at hd
    · exact h.holder d k (by simpa [Sys.goto, hdc] using hd)
  queued := by
    intro d k hd
    by_cases hdc : d = c
    · simp [Sys.goto, hdc] at hd
    · have hq := h.queued d k (by simpa [Sys.goto, hdc] using hd)
      simpa [Sys.goto, hdc] using hq

theorem afterMalloc_queue {r : Request} {k j : ℕ} (h : Sys.afterMalloc r k = .queue j) :
    r.reqcfm = true := by
  unfold Sys.afterMalloc at h
  split_ifs at h with hr
  exact hr

theorem mallocNext_queue {r : Request} {k j : ℕ} (h : mallocNext r k = .queue j) :
    r.reqcfm = true := by
  unfold mallocNext at h
  split_ifs at h
  exact afterMalloc_queue h

theorem holder_used (hw : Wf s.mgr (view s)) {c k : ℕ} (h : (callStage (s.pc c)).slot = some k) :
    (s.mgr.cmdArray k).used = true :=
  holds_used (hw.holds (some c)) h

theorem Owned.malloc (h : Owned s) (hw : Wf s.mgr (view s)) {c k : ℕ}
    (hk : (s.mgr.cmdArray k).used = false) :
    Owned ((s.put (s.mgr.modify k (Sys.initCmd (s.request c) c))).goto c
      (mallocNext (s.request c) k)) := by
  have hstage := mallocNext_stage (s.request c) k
  have hother : ∀ j, j ≠ k → (s.mgr.modify k (Sys.initCmd (s.request c) c)).cmdArray j =
      s.mgr.cmdArray j := fun j hj => (keeps_modify _ hj).cmd
  have hbusy : mallocNext (s.request c) k ≠ .idle := by
    intro he
    rw [he] at hstage
    cases hstage
  constructor
  · intro j hj
    by_cases hjk : j = k
    · subst hjk
      have hreq : (s.request c).reqcfm = true →
          (Sys.initCmd (s.request c) c (s.mgr.cmdArray j)).flags.reqCfm = true := by
        intro hr
        simp [Sys.initCmd, hr]
      simp only [Sys.goto, Sys.put, modify_self]
      refine ⟨by simpa [Sys.initCmd] using hbusy, ?_⟩
      constructor
      · simp [Sys.initCmd]
      · simp [Sys.initCmd]
      · simpa [Sys.initCmd] using hreq
    · simp only [Sys.goto, Sys.put, hother j hjk] at hj ⊢
      obtain ⟨hb, hserves⟩ := h.slot j hj
      refine ⟨?_, hserves.keep (by simp [hother j hjk, sameUse_refl]) rfl⟩
      by_cases hc : (s.mgr.cmdArray j).owner = c
      · simpa [hc] using hbusy
      · simpa [hc] using hb
  · intro d j hd
    by_cases hdc : d = c
    · subst hdc
      obtain rfl : k = j := by simpa [Sys.goto, hstage, Stage.slot] using hd
      simp [Sys.goto, Sys.put, Sys.initCmd]
    · have hold : (callStage (s.pc d)).slot = some j := by simpa [Sys.goto, Sys.put, hdc] using hd
      have hjk : j ≠ k := by
        intro he
        have hused := holder_used hw hold
        rw [he, hk] at hused
        cases hused
      simp only [Sys.goto, Sys.put, hother j hjk]
      exact h.holder d j hold
  · intro d j hd
    by_cases hdc : d = c
    · subst hdc
      have hnext : mallocNext (s.request d) k = .queue j := by simpa [Sys.goto] using hd
      exact mallocNext_queue hnext
    · exact h.queued d j (by simpa [Sys.goto, Sys.put, hdc] using hd)

theorem msgind_owned (hw : Wf s.mgr (view s)) (h : Owned s) (msg : ℕ) (cause : Option ℕ)
    (param : List UInt8) : Owned (s.msgind msg cause param) := by
  rcases msgind_cases s msg cause param with ⟨he, -⟩ | ⟨k, -, he⟩ <;> rw [he]
  · exact h
  · have huse : SameUse (s.mgr.cmdArray k) (confirmedCmd (s.mgr.cmdArray k)) :=
      ⟨id, rfl, ⟨rfl, rfl, rfl⟩, id⟩
    exact h.keep (taken_sameUse (confirm_taken (hw.slots k)) huse) rfl rfl

theorem Owned.ret {u : Sys} (h : Owned u) (c : ℕ) : Owned (u.ret c 0) := by
  have hgoto := h.move (c := c) (p := .returned 0) (by simp) (Or.inl rfl) (by simp)
  exact hgoto.keep (fun k => sameUse_refl _) rfl rfl

theorem Owned.jump (h : Owned s) {c : ℕ} {p : Pc} (hj : Jump s c p) : Owned (s.goto c p) := by
  cases hj with
  | emptied k hc =>
    have hstage := afterMalloc_stage (s.request c) k
    apply h.goto
    · intro he
      rw [he] at hstage
      cases hstage
    · intro j hk
      rw [hstage] at hk
      exact h.holder c j (by rw [hc]; exact hk)
    · intro j hq
      exact afterMalloc_queue hq
  | sendNoCfm k hc => exact h.move (by simp) (Or.inr (by rw [hc]; rfl)) (by simp)
  | entry | full | notEmpty | short => exact h.move (by simp) (Or.inl rfl) (by simp)

theorem move_owned {a : Act} (h : Sound s) (hm : Move s a t) : Owned t := by
  obtain ⟨hw, ho⟩ := h
  have hput : ∀ m, (∀ k, SameUse (s.mgr.cmdArray k) (m.cmdArray k)) → Owned (s.put m) :=
    fun m hm => ho.keep hm rfl rfl
  cases hm with
  | start c r hc => exact ho.begin hc r
  | poll => exact ho
  | jump c p hj => exact ho.jump hj
  | leave c => exact ho.ret c
  | malloc c k _ hk => exact ho.malloc hw hk
  | refused c k r hc =>
    have hk := hput _ (setResult_sameUse s.mgr k r)
    have hslot : (callStage (.freeRet k)).slot = (callStage (s.pc c)).slot := by rw [hc]; rfl
    exact hk.move (by simp) (Or.inr hslot) (by simp)
  | direct c k hc =>
    have hk := hput _ (enqueue_sameUse s.mgr k false)
    have hslot : (callStage (.push k)).slot = (callStage (s.pc c)).slot := by rw [hc]; rfl
    exact (hk.move (by simp) (Or.inr hslot) (by simp)).keep (fun j => sameUse_refl _) rfl rfl
  | deferred c k p hc _ _ hp =>
    have hk := hput _ (enqueue_sameUse s.mgr k true)
    have hgone : (callStage p).slot = none := by rcases hp with rfl | rfl <;> rfl
    have hgoto := hk.move (c := c) (p := p) (by rcases hp with rfl | rfl <;> simp) (Or.inl hgone)
      (by rcases hp with rfl | rfl <;> simp)
    exact hgoto.keep (fun j => sameUse_refl _) rfl rfl
  | push c k hc =>
    have hk : Owned (s.send k) := ho.keep (fun j => sameUse_refl _) rfl rfl
    have hslot : (callStage (.wait k)).slot = (callStage (s.pc c)).slot := by rw [hc]; rfl
    exact hk.move (by simp) (Or.inr hslot) (by simp)
  | wakeUp c k hc =>
    have hk := hput _ (wakeUp_sameUse s.mgr k)
    have hslot : (callStage (.freeCmd k)).slot = (callStage (s.pc c)).slot := by rw [hc]; rfl
    exact hk.move (by simp) (Or.inr hslot) (by simp)
  | giveUp c k hc =>
    have ha : view s (some c) = .waiting k := view_at hc
    have hk : Owned (s.giveUp k) := ho.keep (timedOut_sameUse hw ha) rfl rfl
    exact hk.ret c
  | freeCmd c k =>
    exact (hput _ (free_sameUse s.mgr k)).move (by simp) (Or.inl rfl) (by simp)
  | wake c =>
    have hk : Owned { s with workPending := true } := ho.keep (fun j => sameUse_refl _) rfl rfl
    exact hk.ret c
  | freeRet c k => exact (hput _ (free_sameUse s.mgr k)).ret c
  | callTimeout c k hc =>
    have hslot : (callStage (.timedOut k)).slot = (callStage (s.pc c)).slot := by rw [hc]; rfl
    exact ho.move (by simp) (Or.inr hslot) (by simp)
  | clearFlag k => exact ho.keep (pushed_sameUse s.mgr k) rfl rfl
  | workWakeUp k => exact ho.keep (wakeUp_sameUse s.mgr k) rfl rfl
  | workGiveUp k hc =>
    have ha : view s none = .waiting k := view_worker hc
    exact ho.keep (timedOut_sameUse hw ha) rfl rfl
  | workFree k => exact ho.keep (free_sameUse s.mgr k) rfl rfl
  | startWork | rest | claim | workPush | workTimeout | busDown =>
    exact ho.keep (fun k => sameUse_refl _) rfl rfl
  | confirm c param =>
    have ho' : Owned { s with sent := s.sent.erase c } := ho.keep (fun k => sameUse_refl _) rfl rfl
    exact msgind_owned (s := { s with sent := s.sent.erase c }) hw ho' (s.request c).reqid (some c)
      param
  | stray msg param => exact msgind_owned hw ho msg none param

end

/-! ## What a move does to the list -/

/-- The list and its commands stay, and nobody lets go of one. -/
structure Still (s t : Sys) : Prop where
  cmds : t.mgr.cmds = s.mgr.cmds
  slots : ∀ k ∈ s.mgr.cmds, t.mgr.cmdArray k = s.mgr.cmdArray k
  held : ∀ b, ∀ k ∈ s.mgr.cmds, (view s b).slot = some k → (view t b).slot = some k

inductive Effect (s : Sys) (a : Act) (t : Sys) : Prop where
  | still (h : Still s t)
  | append (c k : ℕ) (d : Bool) (st : Stage) (ha : a = .call c) (hc : s.pc c = .queue k)
      (hmgr : t.mgr = s.mgr.enqueue k d) (hview : view t = Function.update (view s) (some c) st)
      (hnew : (d = true ∧ ((s.request c).via = .sendMsg1 true ∨ s.mgr.cmds ≠ [] ∨
        CmdMgr.alwaysDeferred (s.mgr.cmdArray k).id = true)) ∨ (d = false ∧ st = .pushing k))
  | clear (k : ℕ) (hc : view s none = .claimed k) (hmgr : t.mgr = s.mgr.setFlags k pushed)
      (hview : view t = Function.update (view s) none (.pushing k))
  | expire (b : Option ℕ) (k : ℕ) (hb : view s b = .waiting k)
      (hcall : ∀ c, b = some c → a = .call c ∧ s.pc c = .timedOut k) (hmgr : t.mgr = s.mgr.timedOut k)
      (hview : view t = Function.update (view s) b .none)
  | take (k : ℕ) (hk : k ∈ s.mgr.cmds) (hmgr : t.mgr = s.mgr.confirm k) (hview : view t = view s)

section
variable {s t : Sys}

theorem held_call {c : ℕ} {p : Pc} (hpc : t.pc = Function.update s.pc c p)
    (hwork : t.worker = s.worker)
    (hp : ∀ k ∈ s.mgr.cmds, (callStage (s.pc c)).slot = some k → (callStage p).slot = some k) :
    ∀ b, ∀ k ∈ s.mgr.cmds, (view s b).slot = some k → (view t b).slot = some k := by
  intro b k hk hb
  rw [view_call hpc hwork]
  by_cases hbc : b = some c
  · subst hbc
    rw [Function.update_self]
    exact hp k hk hb
  · rwa [Function.update_of_ne hbc]

theorem held_work {w : WorkPc} (hpc : t.pc = s.pc) (hwork : t.worker = w)
    (hp : ∀ k ∈ s.mgr.cmds, (workStage s.worker).slot = some k → (workStage w).slot = some k) :
    ∀ b, ∀ k ∈ s.mgr.cmds, (view s b).slot = some k → (view t b).slot = some k := by
  intro b k hk hb
  rw [view_work hpc hwork]
  by_cases hbc : b = none
  · subst hbc
    rw [Function.update_self]
    exact hp k hk hb
  · rwa [Function.update_of_ne hbc]

/-- A party may let go of a slot off the list. -/
theorem release {cmds : List ℕ} {st st' : Stage} {k : ℕ} (hst : st.slot = some k)
    (hk : k ∉ cmds) : ∀ j ∈ cmds, st.slot = some j → st'.slot = some j := by
  intro j hj he
  rw [hst] at he
  exact absurd (Option.some.inj he ▸ hj) hk

theorem unheld {cmds : List ℕ} {st st' : Stage} (hst : st.slot = none) :
    ∀ j ∈ cmds, st.slot = some j → st'.slot = some j := by
  intro j _ he
  rw [hst] at he
  cases he

theorem msgind_effect (s : Sys) (a : Act) (msg : ℕ) (cause : Option ℕ) (param : List UInt8) :
    Effect s a (s.msgind msg cause param) := by
  rcases msgind_cases s msg cause param with ⟨he, -⟩ | ⟨k, hk, he⟩ <;> rw [he]
  · exact .still ⟨rfl, fun _ _ => rfl, fun _ _ _ hb => hb⟩
  · exact .take k (findCmd_mem hk) rfl (view_still rfl rfl)

theorem move_effect {a : Act} (hs : Sound s) (hm : Move s a t) : Effect s a t := by
  have hw := hs.wf
  cases hm with
  | start c r hc =>
    exact .still ⟨rfl, fun _ _ => rfl, held_call (p := .entry) rfl rfl (unheld (by rw [hc]; rfl))⟩
  | poll => exact .still ⟨rfl, fun _ _ => rfl, fun _ _ _ hb => hb⟩
  | jump c p hj =>
    refine .still ⟨rfl, fun _ _ => rfl, held_call rfl rfl ?_⟩
    cases hj with
    | emptied k hc =>
      have ha : view s (some c) = .fresh k := view_at hc
      exact release (by rw [hc]; rfl) (fresh_unlisted hw ha)
    | sendNoCfm k hc =>
      have ha : view s (some c) = .fresh k := view_at hc
      exact release (by rw [hc]; rfl) (fresh_unlisted hw ha)
    | entry hc | full hc | notEmpty hc | short _ hc => exact unheld (by rw [hc]; rfl)
  | leave c hl =>
    refine .still ⟨rfl, fun _ _ => rfl, held_call (p := .returned 0) rfl rfl (unheld ?_)⟩
    cases hl with
    | down hc | empty hc | behind _ hc => rw [hc]; rfl
  | malloc c k hc hk =>
    exact .still ⟨rfl, modify_listed ((hw.slots k).free hk).1 _,
      held_call rfl rfl (unheld (by rw [hc]; rfl))⟩
  | refused c k r hc =>
    have ha : view s (some c) = .fresh k := view_at hc
    have hk := fresh_unlisted hw ha
    exact .still ⟨rfl, setResult_listed hk r, held_call rfl rfl (release (by rw [hc]; rfl) hk)⟩
  | direct c k hc =>
    exact .append c k false _ rfl hc rfl (view_call (s := s) (p := .push k) rfl rfl)
      (Or.inr ⟨rfl, rfl⟩)
  | deferred c k p hc _ hd =>
    exact .append c k true _ rfl hc rfl (view_call (s := s) (p := p) rfl rfl) (Or.inl ⟨rfl, hd⟩)
  | push c k hc =>
    exact .still ⟨rfl, fun _ _ => rfl,
      held_call (p := .wait k) rfl rfl (by rw [hc]; exact fun _ _ hj => hj)⟩
  | wakeUp c k hc hn =>
    have ha : view s (some c) = .waiting k := view_at hc
    have hk := (waiting_gone hw ha hn).1
    exact .still ⟨rfl, modify_listed hk _, held_call rfl rfl (release (by rw [hc]; rfl) hk)⟩
  | giveUp c k hc =>
    have ha : view s (some c) = .waiting k := view_at hc
    have hcall : ∀ d, some c = some d → Act.call c = .call d ∧ s.pc d = .timedOut k := by
      intro d hd
      obtain rfl := Option.some.inj hd
      exact ⟨rfl, hc⟩
    exact .expire (some c) k ha hcall rfl (view_call (p := .returned 0) rfl rfl)
  | freeCmd c k hc =>
    have ha : view s (some c) = .finished k := view_at hc
    have hk := finished_unlisted hw ha
    exact .still ⟨rfl, free_listed hk,
      held_call (p := .testEmpty) rfl rfl (release (by rw [hc]; rfl) hk)⟩
  | wake c hc =>
    exact .still ⟨rfl, fun _ _ => rfl,
      held_call (p := .returned 0) rfl rfl (unheld (by rw [hc]; rfl))⟩
  | freeRet c k hc =>
    have ha : view s (some c) = .fresh k := view_at hc
    have hk := fresh_unlisted hw ha
    exact .still ⟨rfl, free_listed hk,
      held_call (p := .returned 0) rfl rfl (release (by rw [hc]; rfl) hk)⟩
  | callTimeout c k hc =>
    exact .still ⟨rfl, fun _ _ => rfl, held_call rfl rfl (by rw [hc]; exact fun _ _ hj => hj)⟩
  | startWork hc =>
    exact .still ⟨rfl, fun _ _ => rfl, held_work (w := .scan) rfl rfl (unheld (by rw [hc]; rfl))⟩
  | rest hc =>
    exact .still ⟨rfl, fun _ _ => rfl, held_work (w := .idle) rfl rfl (unheld (by rw [hc]; rfl))⟩
  | claim k hc =>
    exact .still ⟨rfl, fun _ _ => rfl,
      held_work (w := .clearFlag k) rfl rfl (unheld (by rw [hc]; rfl))⟩
  | clearFlag k hc =>
    have ha : view s none = .claimed k := view_worker hc
    exact .clear k ha rfl (view_work (w := .push k) rfl rfl)
  | workPush k hc =>
    exact .still ⟨rfl, fun _ _ => rfl,
      held_work (w := .wait k) rfl rfl (by rw [hc]; exact fun _ _ hj => hj)⟩
  | workWakeUp k hc hn =>
    have ha : view s none = .waiting k := view_worker hc
    have hk := (waiting_gone hw ha hn).1
    exact .still ⟨rfl, modify_listed hk _,
      held_work (w := .freeCmd k) rfl rfl (release (by rw [hc]; rfl) hk)⟩
  | workGiveUp k hc =>
    have ha : view s none = .waiting k := view_worker hc
    exact .expire none k ha (by simp) rfl (view_work (w := .scan) rfl rfl)
  | workFree k hc =>
    have ha : view s none = .finished k := view_worker hc
    have hk := finished_unlisted hw ha
    exact .still ⟨rfl, free_listed hk,
      held_work (w := .scan) rfl rfl (release (by rw [hc]; rfl) hk)⟩
  | workTimeout k hc =>
    exact .still ⟨rfl, fun _ _ => rfl,
      held_work (w := .timedOut k) rfl rfl (by rw [hc]; exact fun _ _ hj => hj)⟩
  | confirm c param =>
    have hsame : Effect { s with sent := s.sent.erase c } (.confirm c param)
        ({ s with sent := s.sent.erase c }.msgind (s.request c).reqid (some c) param) :=
      msgind_effect _ _ _ _ _
    cases hsame with
    | still h => exact .still ⟨h.cmds, h.slots, h.held⟩
    | append d _ _ _ ha => cases ha
    | clear k hc hmgr hview => exact .clear k hc hmgr hview
    | expire b k hb hcall hmgr hview => exact .expire b k hb hcall hmgr hview
    | take k hk hmgr hview => exact .take k hk hmgr hview
  | stray msg param => exact msgind_effect s _ msg none param
  | busDown => exact .still ⟨rfl, fun _ _ => rfl, fun _ _ _ hb => hb⟩

end

/-- The arguments of a call stay once it has begun. -/
theorem move_request {s t : Sys} {a : Act} {c : ℕ} (hm : Move s a t) (hc : s.pc c ≠ .idle) :
    t.request c = s.request c := by
  cases hm with
  | start d r hd =>
    have hcd : c ≠ d := fun he => hc (he ▸ hd)
    exact Function.update_of_ne hcd r s.request
  | confirm d param => rw [msgind_request]
  | stray msg param => rw [msgind_request]
  | _ => rfl

theorem step_sound {s t : Sys} {a : Act} (h : Sound s) (hs : step s a = some t) : Sound t where
  wf := move_wf h (step_move h.wf hs)
  owned := move_owned h (step_move h.wf hs)

theorem view_init (a : Option ℕ) : view init a = .none := by
  cases a <;> rfl

theorem init_sound : Sound init where
  wf := by
    have hslot : ∀ k, SlotOk init.mgr k := fun k => ⟨⟨rfl, rfl⟩, fun _ => ⟨by simp [init], rfl, rfl⟩,
      fun hk => by simp [init] at hk⟩
    constructor
    · rfl
    · exact List.nodup_nil
    · exact hslot
    · intro a
      rw [view_init]
      trivial
    · intro a b k ha
      rw [view_init] at ha
      cases ha
  owned := by
    constructor
    · intro k hk
      cases hk
    · intro c k hk
      cases hk
    · intro c k hk
      cases hk

theorem run_sound {as : List Act} {s : Sys} (h : exec step init as = some s) : Sound s :=
  exec_preserves (fun _ _ _ hs hi => step_sound hi hs) init_sound h

end AIC.CommandMoves
