import Aic8800.BspCommand

/-!
# Every command is freed once

Where the bus is up for those who want a confirmation and for nobody else, no
command is turned away, no wait times out or is killed, no command is drained
and every confirmation is that of the first command that waits for its id.
-/

set_option autoImplicit false

namespace AIC.BspCommand
open Lib.GuardedRun

structure Sound (m : Mgr) : Prop where
  freed : ∀ c, ∀ k ∈ m.calls c, k.cmdFrees ≤ 1 ∧ k.msgFrees ≤ 1 ∧
    ∀ r, k.place = .returned r → k.cmdFrees = (if k.allocated then 1 else 0) ∧ k.msgFrees = 1
  linked : ∀ c ∈ m.cmds, ∃ k ∈ m.calls c, k.cmdFrees = 0
  size : m.queueSz = m.cmds.length
  answered : ∀ c, ∀ k ∈ m.calls c, k.reqcfm = true → k.place = .returned 0 → k.confirmed = true
  late : m.late = false

def Orderly (m : Mgr) : Act → Prop
  | .sendMsg _ _ reqcfm _ => reqcfm = !m.busDown
  | .queue _ => m.crashed = false ∧ (m.cmds = [] ∨ m.queueSz ≠ RWNX_CMD_MAX_QUEUED)
  | .push _ => True
  | .wake _ how => how = .done
  | .expire _ => True
  | .msgind id origin _ => ∀ c ∈ m.firstWaiting id, origin = some c
  | .drain => m.cmds = []
  | .bus _ => True

instance (m : Mgr) (a : Act) : Decidable (Orderly m a) := by
  cases a <;> unfold Orderly <;> infer_instance

/-! ## What is kept -/

/-- A command that its caller has put on the list and not freed yet. -/
structure InHand (linked : Prop) (k : Call) : Prop where
  allocated : k.allocated = true
  kept : k.cmdFrees = 0
  pushed : k.flags.waitPush = false
  acked : k.flags.waitAck = false
  linked_iff : linked ↔ k.completed = false
  waits : k.flags.waitCfm = !k.completed
  confirmed : k.completed = true → k.confirmed = true

def Tidy (linked : Prop) (k : Call) : Prop :=
  match k.place with
  | .queueing => ¬ linked ∧ k.reqcfm = true ∧ k.allocated = true ∧
      k.flags = ⟨true, false, false, false, false⟩ ∧ k.cmdFrees = 0 ∧ k.msgFrees = 0
  | .pushing => InHand linked k ∧ k.msgFrees = 0
  | .waiting => InHand linked k ∧ k.msgFrees = 1
  | .timedOut => False
  | .returned r => ¬ linked ∧ k.cmdFrees = (if k.allocated then 1 else 0) ∧ k.msgFrees = 1 ∧
      (k.reqcfm = true → r = 0 → k.confirmed = true)

structure Fit (m : Mgr) : Prop where
  tidy : ∀ c, ∀ k ∈ m.calls c, Tidy (c ∈ m.cmds) k
  known : ∀ c ∈ m.cmds, ∃ k, m.calls c = some k
  nodup : m.cmds.Nodup
  size : m.queueSz = m.cmds.length
  short : m.cmds.length ≤ RWNX_CMD_MAX_QUEUED
  late : m.late = false

section Steps
variable {m : Mgr} {c : CallId} {k : Call}

/-- Who is on the list has a call in hand. -/
theorem Tidy.inHand {linked : Prop} (h : Tidy linked k) (hl : linked) :
    (k.place = .pushing ∨ k.place = .waiting) ∧ InHand linked k := by
  unfold Tidy at h
  cases hp : k.place with
  | queueing =>
    rw [hp] at h
    exact absurd hl h.1
  | pushing =>
    rw [hp] at h
    exact ⟨Or.inl rfl, h.1⟩
  | waiting =>
    rw [hp] at h
    exact ⟨Or.inr rfl, h.1⟩
  | timedOut =>
    rw [hp] at h
    exact h.elim
  | returned r =>
    rw [hp] at h
    exact absurd hl h.1

theorem Fit.sound (h : Fit m) : Sound m where
  freed c k hk := by
    have ht := h.tidy c k hk
    unfold Tidy at ht
    cases hp : k.place with
    | queueing =>
      rw [hp] at ht
      exact ⟨by omega, by omega, fun r hr => nomatch hr⟩
    | pushing =>
      rw [hp] at ht
      have hkept := ht.1.kept
      exact ⟨by omega, by omega, fun r hr => nomatch hr⟩
    | waiting =>
      rw [hp] at ht
      have hkept := ht.1.kept
      exact ⟨by omega, by omega, fun r hr => nomatch hr⟩
    | timedOut =>
      rw [hp] at ht
      exact ht.elim
    | returned r =>
      rw [hp] at ht
      obtain ⟨-, hcmd, hmsg, -⟩ := ht
      refine ⟨?_, by omega, fun _ _ => ⟨hcmd, hmsg⟩⟩
      split_ifs at hcmd <;> omega
  linked c hc := by
    obtain ⟨k, hk⟩ := h.known c hc
    exact ⟨k, hk, ((h.tidy c k hk).inHand hc).2.kept⟩
  size := h.size
  answered c k hk hreq hret := by
    have ht := h.tidy c k hk
    rw [Tidy, hret] at ht
    exact ht.2.2.2 hreq rfl
  late := h.late

@[simp] theorem put_self (m : Mgr) (c : CallId) (k : Call) : (m.put c k).calls c = some k := by
  simp [Mgr.put]

theorem put_other (m : Mgr) {c c' : CallId} (k : Call) (h : c' ≠ c) :
    (m.put c k).calls c' = m.calls c' := by
  simp [Mgr.put, h]

theorem cmdComplete_calls (m : Mgr) (c : CallId) (k : Call) : (m.cmdComplete c k).calls =
    (m.put c { k with
      flags := { k.flags with done := true }
      completed := k.completed || k.flags.waitComplete }).calls := rfl

theorem cmdComplete_cmds (m : Mgr) (c : CallId) (k : Call) :
    (m.cmdComplete c k).cmds = m.cmds.erase c := rfl

theorem cmdComplete_queueSz (m : Mgr) (c : CallId) (k : Call) :
    (m.cmdComplete c k).queueSz = dec32 m.queueSz := rfl

/-- One call changes, and the list does not. -/
theorem Fit.put (h : Fit m) (hk : Tidy (c ∈ m.cmds) k) : Fit (m.put c k) where
  tidy c' k' hk' := by
    by_cases hc : c' = c
    · subst hc
      obtain rfl := Option.some.inj ((put_self m c' k).symm.trans hk')
      exact hk
    · exact h.tidy c' k' ((put_other m k hc).symm.trans hk')
  known c' hc' := by
    by_cases hc : c' = c
    · subst hc
      exact ⟨k, put_self m c' k⟩
    · obtain ⟨k', hk'⟩ := h.known c' hc'
      exact ⟨k', (put_other m k hc).trans hk'⟩
  nodup := h.nodup
  size := h.size
  short := h.short
  late := h.late

theorem Fit.sendMsg (h : Fit m) (hnew : m.calls c = none) (reqid : ℕ) {reqcfm : Bool} (cfm : Bool)
    (hbus : reqcfm = !m.busDown) : Fit (m.sendMsg c reqid reqcfm cfm) := by
  have hnot : c ∉ m.cmds := by
    intro hc
    obtain ⟨k, hk⟩ := h.known c hc
    rw [hnew] at hk
    cases hk
  apply h.put
  subst hbus
  cases hdown : m.busDown <;> simp [Tidy, hnot]

theorem Fit.deferPush (h : Fit m) : m.deferPush = false := by
  unfold Mgr.deferPush
  cases hlast : m.cmds.getLast? with
  | none => rfl
  | some last =>
    have hmem := List.mem_of_getLast? hlast
    obtain ⟨k, hk⟩ := h.known last hmem
    obtain ⟨-, hin⟩ := (h.tidy last k hk).inHand hmem
    simp [hk, hin.pushed, hin.acked]

/-- A command that is taken comes to the end of the list. -/
theorem Fit.queue (h : Fit m) (hk : m.calls c = some k) (hp : k.place = .queueing)
    (hup : m.crashed = false) (hroom : m.cmds = [] ∨ m.queueSz ≠ RWNX_CMD_MAX_QUEUED) :
    Fit (m.cmdMgrQueue c k) := by
  have ht := h.tidy c k hk
  rw [Tidy, hp] at ht
  obtain ⟨hnot, hreq, halloc, hflags, hcmd, hmsg⟩ := ht
  have hfull : ¬ (m.cmds ≠ [] ∧ m.queueSz = RWNX_CMD_MAX_QUEUED) := by tauto
  rw [Mgr.cmdMgrQueue, hup, if_neg Bool.false_ne_true, if_neg hfull, h.deferPush, hflags]
  have hsize := h.size
  have hshort := h.short
  have hlength : m.cmds.length < RWNX_CMD_MAX_QUEUED := by
    rcases hroom with hnil | hne
    · rw [hnil]
      decide
    · omega
  rw [RWNX_CMD_MAX_QUEUED] at hlength
  refine ⟨?_, ?_, ?_, ?_, ?_, h.late⟩
  · intro c' k' hk'
    by_cases hc : c' = c
    · subst hc
      obtain rfl := Option.some.inj ((by simpa [Mgr.put] using hk') : some _ = some k')
      refine ⟨⟨halloc, hcmd, rfl, rfl, ?_, rfl, fun hno => nomatch hno⟩, hmsg⟩
      simp
    · have hold := h.tidy c' k' (by simpa [Mgr.put, hc] using hk')
      have hsame : (c' ∈ m.cmds++[c]) = (c' ∈ m.cmds) := by simp [hc]
      change Tidy (c' ∈ m.cmds++[c]) k'
      rw [hsame]
      exact hold
  · intro c' hc'
    by_cases hc : c' = c
    · subst hc
      exact ⟨_, by simp [Mgr.put]; rfl⟩
    · obtain ⟨k', hk'⟩ := h.known c' (by simpa [hc] using hc')
      exact ⟨k', by simpa [Mgr.put, hc] using hk'⟩
  · rw [← List.concat_eq_append]
    exact List.Nodup.concat hnot h.nodup
  · change inc32 m.queueSz = (m.cmds++[c]).length
    rw [List.length_append, List.length_singleton, inc32, if_neg (by omega)]
    omega
  · change (m.cmds++[c]).length ≤ RWNX_CMD_MAX_QUEUED
    rw [List.length_append, List.length_singleton, RWNX_CMD_MAX_QUEUED]
    omega

/-- A command leaves the list. -/
theorem Fit.complete (h : Fit m) (hc : c ∈ m.cmds) (hk : Tidy False { k with
    flags := { k.flags with done := true }
    completed := k.completed || k.flags.waitComplete }) : Fit (m.cmdComplete c k) := by
  have hsize := h.size
  have hshort := h.short
  have hpos := List.length_pos_of_mem hc
  have herase := List.length_erase_of_mem hc
  rw [RWNX_CMD_MAX_QUEUED] at hshort
  refine ⟨?_, ?_, ?_, ?_, ?_, h.late⟩ <;> rw [cmdComplete_cmds]
  · intro c' k' hk'
    rw [cmdComplete_calls] at hk'
    by_cases hcc : c' = c
    · subst hcc
      rw [put_self] at hk'
      obtain rfl := Option.some.inj hk'
      have hout : (c' ∈ m.cmds.erase c') = False := by simp [h.nodup.mem_erase_iff]
      rw [hout]
      exact hk
    · have hsame : (c' ∈ m.cmds.erase c) = (c' ∈ m.cmds) := by simp [h.nodup.mem_erase_iff, hcc]
      rw [hsame]
      exact h.tidy c' k' ((put_other m _ hcc).symm.trans hk')
  · intro c' hc'
    obtain ⟨hne, hmem⟩ := h.nodup.mem_erase_iff.mp hc'
    obtain ⟨k', hk'⟩ := h.known c' hmem
    rw [cmdComplete_calls]
    exact ⟨k', (put_other m _ hne).trans hk'⟩
  · exact h.nodup.erase c
  · rw [cmdComplete_queueSz, dec32, if_neg (by omega)]
    omega
  · rw [RWNX_CMD_MAX_QUEUED]
    omega

/-! ## Confirmations -/

theorem Tidy.confirm {linked : Prop} (h : Tidy linked k) :
    Tidy linked { k with confirmed := true } := by
  have hin : ∀ hi : InHand linked k, InHand linked { k with confirmed := true } := fun hi =>
    ⟨hi.allocated, hi.kept, hi.pushed, hi.acked, hi.linked_iff, hi.waits, fun _ => rfl⟩
  unfold Tidy at h ⊢
  cases hp : k.place <;> rw [hp] at h <;> rw [hp] at hin
  · exact h
  · exact ⟨hin h.1, h.2⟩
  · exact ⟨hin h.1, h.2⟩
  · exact h
  · exact ⟨h.1, h.2.1, h.2.2.1, fun _ _ => rfl⟩

theorem Fit.confirm (h : Fit m) (origin : Option CallId) : Fit (m.confirm origin) := by
  cases origin with
  | none => exact h
  | some c =>
    cases hk : m.calls c with
    | none =>
      simp only [Mgr.confirm, hk]
      exact h
    | some k =>
      simp only [Mgr.confirm, hk]
      exact h.put (h.tidy c k hk).confirm

/-- The call of a command whose confirmation has come. -/
theorem confirm_calls (m : Mgr) (origin : Option CallId) (c : CallId) :
    (m.confirm origin).calls c = (m.calls c).map fun k =>
      { k with confirmed := k.confirmed || decide (origin = some c) } := by
  cases origin with
  | none =>
    change m.calls c = _
    cases m.calls c <;> simp
  | some o =>
    cases ho : m.calls o with
    | none =>
      simp only [Mgr.confirm, ho]
      by_cases hc : o = c
      · subst hc
        simp [ho]
      · cases m.calls c <;> simp [hc]
    | some k =>
      simp only [Mgr.confirm, ho]
      by_cases hc : o = c
      · subst hc
        simp [ho]
      · rw [put_other m _ (Ne.symm hc)]
        cases m.calls c <;> simp [hc]

theorem confirm_cmds (m : Mgr) (origin : Option CallId) : (m.confirm origin).cmds = m.cmds := by
  unfold Mgr.confirm
  split
  · rfl
  · split <;> rfl

/-- A confirmation changes nothing of what the list is searched for. -/
theorem confirm_firstWaiting (m : Mgr) (origin : Option CallId) (id : ℕ) :
    (m.confirm origin).firstWaiting id = m.firstWaiting id := by
  unfold Mgr.firstWaiting
  rw [confirm_cmds]
  congr 1
  funext c
  rw [confirm_calls]
  cases m.calls c <;> rfl

/-- The first command that waits for the id is given its own confirmation. -/
theorem Fit.msgind (h : Fit m) {id : ℕ} {origin : Option CallId}
    (hown : ∀ c ∈ m.firstWaiting id, origin = some c) (empty : Bool) :
    Fit ((m.confirm origin).cmdMgrMsgind id empty) := by
  have hfit := h.confirm origin
  rw [Mgr.cmdMgrMsgind, confirm_firstWaiting]
  cases hfirst : m.firstWaiting id with
  | none => exact hfit
  | some c =>
    obtain rfl := hown c hfirst
    dsimp only
    have hc : c ∈ (m.confirm (some c)).cmds := by
      rw [confirm_cmds]
      exact List.mem_of_find?_eq_some hfirst
    obtain ⟨k, hk⟩ := hfit.known c hc
    have hconf : k.confirmed = true := by
      rw [confirm_calls] at hk
      obtain ⟨k0, -, rfl⟩ := Option.map_eq_some_iff.mp hk
      simp
    rw [hk]
    dsimp only
    have ht := hfit.tidy c k hk
    obtain ⟨hplace, hin⟩ := ht.inHand hc
    have hlate : Mgr.lateWrite k empty = false := by
      rcases hplace with hp | hp <;> simp [Mgr.lateWrite, hp]
    have hdone : Tidy False { k with
        flags := { k.flags with waitCfm := false, done := true }
        completed := true } := by
      have hin' : InHand False { k with
          flags := { k.flags with waitCfm := false, done := true }
          completed := true } :=
        ⟨hin.allocated, hin.kept, hin.pushed, hin.acked, by simp, rfl, fun _ => hconf⟩
      unfold Tidy at ht ⊢
      rcases hplace with hp | hp <;> rw [hp] at ht hin' <;> dsimp only <;> rw [hp] <;>
        exact ⟨hin', ht.2⟩
    have hcompleted := hfit.complete (k := { k with flags := { k.flags with waitCfm := false } }) hc
      (by simpa [Flags.waitComplete, hin.acked] using hdone)
    have hanswer : (m.confirm (some c)).answer c k = (m.confirm (some c)).cmdComplete c { k with
        flags := { k.flags with waitCfm := false } } := by
      rw [Mgr.answer, if_pos (by simp [Flags.waitComplete, hin.acked])]
    rw [hanswer, hlate, Bool.or_false]
    exact ⟨hcompleted.tidy, hcompleted.known, hcompleted.nodup, hcompleted.size, hcompleted.short,
      hfit.late⟩

theorem callAt_some {p : Place} (h : m.callAt c p = some k) : m.calls c = some k ∧ k.place = p := by
  obtain ⟨hk, hp⟩ := Option.filter_eq_some_iff.mp h
  exact ⟨hk, of_decide_eq_true hp⟩

/-- Nothing is on the list that could be drained. -/
theorem Fit.drain (h : Fit m) (hnil : m.cmds = []) : Fit m.cmdMgrDrain := by
  have hcalls : m.cmdMgrDrain.calls = m.calls := by
    funext c
    simp [Mgr.cmdMgrDrain, hnil]
  have hsize : m.cmdMgrDrain.queueSz = m.queueSz := by
    simp [Mgr.cmdMgrDrain, hnil]
  have hcmds : m.cmdMgrDrain.cmds = m.cmds := hnil.symm
  refine ⟨?_, ?_, ?_, ?_, ?_, h.late⟩ <;> rw [hcmds]
  · rw [hcalls]
    exact h.tidy
  · rw [hcalls]
    exact h.known
  · exact h.nodup
  · rw [hsize]
    exact h.size
  · exact h.short

theorem step_fit (m : Mgr) (a : Act) (m' : Mgr) (ho : Orderly m a) (hs : step m a = some m')
    (h : Fit m) : Fit m' := by
  cases a with
  | sendMsg c reqid reqcfm cfm =>
    rw [step] at hs
    split_ifs at hs with hnew
    obtain rfl := Option.some.inj hs
    exact h.sendMsg (Option.isNone_iff_eq_none.mp hnew) reqid cfm ho
  | queue c =>
    obtain ⟨k, hk, rfl⟩ := Option.map_eq_some_iff.mp hs
    obtain ⟨hk, hp⟩ := callAt_some hk
    exact h.queue hk hp ho.1 ho.2
  | push c =>
    obtain ⟨k, hk, rfl⟩ := Option.map_eq_some_iff.mp hs
    obtain ⟨hk, hp⟩ := callAt_some hk
    have ht := h.tidy c k hk
    rw [Tidy, hp] at ht
    obtain ⟨hin, hmsg⟩ := ht
    apply h.put
    refine ⟨⟨hin.allocated, hin.kept, hin.pushed, hin.acked, hin.linked_iff, hin.waits,
      hin.confirmed⟩, ?_⟩
    change k.msgFrees+1 = 1
    rw [hmsg]
  | wake c how =>
    obtain rfl : how = .done := ho
    obtain ⟨k, hk, hs⟩ := Option.bind_eq_some_iff.mp hs
    obtain ⟨hk, hp⟩ := callAt_some hk
    have ht := h.tidy c k hk
    rw [Tidy, hp] at ht
    obtain ⟨hin, hmsg⟩ := ht
    cases hdone : k.completed with
    | false =>
      rw [hdone] at hs
      cases hs
    | true =>
      rw [hdone] at hs
      obtain rfl := Option.some.inj hs
      apply h.put
      refine ⟨?_, ?_, hmsg, fun _ _ => hin.confirmed hdone⟩
      · rw [hin.linked_iff, hdone]
        exact Bool.noConfusion
      · change k.cmdFrees+1 = if k.allocated then 1 else 0
        rw [hin.kept, hin.allocated]
        rfl
  | expire c =>
    obtain ⟨k, hk, rfl⟩ := Option.map_eq_some_iff.mp hs
    obtain ⟨hk, hp⟩ := callAt_some hk
    have ht := h.tidy c k hk
    rw [Tidy, hp] at ht
    exact ht.elim
  | msgind id origin empty =>
    obtain rfl := Option.some.inj hs
    exact h.msgind ho empty
  | drain =>
    obtain rfl := Option.some.inj hs
    exact h.drain ho
  | bus down =>
    obtain rfl := Option.some.inj hs
    exact ⟨h.tidy, h.known, h.nodup, h.size, h.short, h.late⟩

end Steps

/-! ## Runs -/

theorem init_fit : Fit init where
  tidy _ _ hk := nomatch hk
  known _ hc := absurd hc List.not_mem_nil
  nodup := List.nodup_nil
  size := rfl
  short := Nat.zero_le _
  late := rfl

/-- Along every run whose steps are orderly. -/
theorem run_commands_sound (acts : List Act) (h : Meets step Orderly init acts) :
    Throughout step Sound init acts :=
  throughout_of_meets step_fit (fun _ => Fit.sound) init_fit h

/-- Two commands with one id, and a call while the bus is down. -/
def twoReads : List Act :=
  [.sendMsg 1 7 true true, .sendMsg 2 7 true false, .queue 1, .queue 2, .push 2, .push 1,
    .msgind 7 (some 1) false, .wake 1 .done, .bus true, .sendMsg 3 9 false false,
    .msgind 7 (some 2) true, .wake 2 .done, .drain]

theorem twoReads_sound : Throughout step Sound init twoReads :=
  run_commands_sound twoReads (by decide +kernel)

/-- A caller is killed while it waits: its command is freed on the list, and the call returns 0
without a confirmation. -/
theorem killed_caller : ∃ m, exec step init
    [.sendMsg 1 7 true true, .queue 1, .push 1, .wake 1 .killed] = some m ∧
      (∃ c ∈ m.cmds, ∃ k ∈ m.calls c, k.cmdFrees = 1 ∧ k.place = .returned 0 ∧
        k.confirmed = false) ∧ ¬ Sound m := by
  have hrun : ∃ m ∈ exec step init
      [.sendMsg 1 7 true true, .queue 1, .push 1, .wake 1 .killed], 1 ∈ m.cmds ∧
        ∃ k ∈ m.calls 1, k.cmdFrees = 1 ∧ k.place = .returned 0 ∧ k.confirmed = false := by
    decide +kernel
  obtain ⟨m, hm, hlinked, k, hk, hfreed, hret, hconf⟩ := hrun
  refine ⟨m, hm, ⟨1, hlinked, k, hk, hfreed, hret, hconf⟩, ?_⟩
  intro h
  obtain ⟨k', hk', hkept⟩ := h.linked 1 hlinked
  obtain rfl := Option.some.inj (hk.symm.trans hk')
  omega

end AIC.BspCommand
