import Aic8800.CommandMoves

/-!
# After a time-out

A wait that ends without a completion crashes the manager. The command is taken
off the list only when its slot does not carry the flag of an earlier
completion, which nothing ever clears. A command that was taken off keeps its
slot for good, and no message finds it again.
-/

set_option autoImplicit false

namespace AIC.CommandTimeout
open AIC.CommandMachine AIC.CommandSlots AIC.CommandMoves Lib.GuardedRun

/-- The command in slot `k` has left the queue, and no later message is taken for it. -/
structure Left (s : Sys) (k : ℕ) : Prop where
  unlisted : k ∉ s.mgr.cmds
  size : s.mgr.queueSz = s.mgr.cmds.length
  result : (s.mgr.cmdArray k).result = -ETIMEDOUT
  unheard : ∀ as t msg, exec step s as = some t → t.mgr.findCmd msg ≠ some k

/-! ## A slot nobody holds -/

structure Abandoned (s : Sys) (k : ℕ) : Prop where
  used : (s.mgr.cmdArray k).used = true
  unlisted : k ∉ s.mgr.cmds
  unheld : ∀ b, (view s b).slot ≠ some k

section
variable {s t : Sys} {k : ℕ}

theorem Abandoned.frame (h : Abandoned s k) (hk : Keeps s.mgr t.mgr k)
    (hv : ∀ b, (view t b).slot = some k → (view s b).slot = some k) : Abandoned t k where
  used := by
    rw [hk.cmd]
    exact h.used
  unlisted := fun hmem => h.unlisted (hk.mem.mp hmem)
  unheld := fun b hb => h.unheld b (hv b hb)

theorem slot_call {c : ℕ} {p : Pc} (hpc : t.pc = Function.update s.pc c p)
    (hwork : t.worker = s.worker)
    (hp : (callStage p).slot = some k → (callStage (s.pc c)).slot = some k) :
    ∀ b, (view t b).slot = some k → (view s b).slot = some k := by
  intro b hb
  rw [view_call hpc hwork] at hb
  by_cases hbc : b = some c
  · subst hbc
    rw [Function.update_self] at hb
    exact hp hb
  · rwa [Function.update_of_ne hbc] at hb

theorem slot_work {w : WorkPc} (hpc : t.pc = s.pc) (hwork : t.worker = w)
    (hp : (workStage w).slot = some k → (workStage s.worker).slot = some k) :
    ∀ b, (view t b).slot = some k → (view s b).slot = some k := by
  intro b hb
  rw [view_work hpc hwork] at hb
  by_cases hbc : b = none
  · subst hbc
    rw [Function.update_self] at hb
    exact hp hb
  · rwa [Function.update_of_ne hbc] at hb

theorem Abandoned.ne_call (h : Abandoned s k) {c j : ℕ} (hc : (callStage (s.pc c)).slot = some j) :
    k ≠ j := fun he => h.unheld (some c) (he ▸ hc)

theorem Abandoned.ne_work (h : Abandoned s k) {j : ℕ} (hc : (workStage s.worker).slot = some j) :
    k ≠ j := fun he => h.unheld none (he ▸ hc)

theorem no_slot {st : Stage} {P : Prop} (h : st.slot = .none) (hk : st.slot = some k) : P := by
  rw [h] at hk
  cases hk

theorem Jump.slot {c : ℕ} {p : Pc} (hj : Jump s c p) (hp : (callStage p).slot = some k) :
    (callStage (s.pc c)).slot = some k := by
  rcases hj.stage with he | he
  · rwa [← he]
  · rw [he] at hp
    cases hp

theorem msgind_abandoned (hw : Wf s.mgr (view s)) (h : Abandoned s k) (msg : ℕ)
    (cause : Option ℕ) (param : List UInt8) : Abandoned (s.msgind msg cause param) k := by
  rcases msgind_cases s msg cause param with ⟨he, -⟩ | ⟨j, hj, he⟩ <;> rw [he]
  · exact h
  · have hkj : k ≠ j := fun heq => h.unlisted (heq ▸ findCmd_mem hj)
    exact h.frame ((confirm_taken (hw.slots j)).keeps hkj) fun _ hb => hb

theorem move_abandoned {a : Act} (hs : Sound s) (hm : Move s a t) (h : Abandoned s k) :
    Abandoned t k := by
  have hw := hs.wf
  have hsame : Keeps s.mgr s.mgr k := Keeps.refl s.mgr k
  cases hm with
  | start c r => exact h.frame hsame (slot_call (p := .entry) rfl rfl (no_slot rfl))
  | poll => exact h
  | jump c p hj => exact h.frame hsame (slot_call rfl rfl (Jump.slot hj))
  | leave c | wake c => exact h.frame hsame (slot_call (c := c) (p := .returned 0) rfl rfl (no_slot rfl))
  | malloc c j hc hj =>
    have hkj : k ≠ j := by
      intro he
      have hused := h.used
      rw [he, hj] at hused
      cases hused
    refine h.frame (keeps_modify _ hkj) (slot_call rfl rfl ?_)
    rw [mallocNext_stage]
    intro he
    exact absurd (Option.some.inj he).symm hkj
  | refused c j r hc =>
    have hkj := h.ne_call (c := c) (j := j) (by rw [hc]; rfl)
    exact h.frame (keeps_setResult r hkj) (slot_call rfl rfl (by rw [hc]; exact id))
  | direct c j hc =>
    have hkj := h.ne_call (c := c) (j := j) (by rw [hc]; rfl)
    exact h.frame (keeps_enqueue false hkj)
      (slot_call (s := s) (p := .push j) rfl rfl (by rw [hc]; exact id))
  | deferred c j p hc _ _ hp =>
    have hkj := h.ne_call (c := c) (j := j) (by rw [hc]; rfl)
    exact h.frame (keeps_enqueue true hkj)
      (slot_call (s := s) (p := p) rfl rfl (no_slot (by rcases hp with rfl | rfl <;> rfl)))
  | push c j hc => exact h.frame hsame (slot_call (p := .wait j) rfl rfl (by rw [hc]; exact id))
  | wakeUp c j hc =>
    have hkj := h.ne_call (c := c) (j := j) (by rw [hc]; rfl)
    exact h.frame (keeps_modify _ hkj) (slot_call rfl rfl (by rw [hc]; exact id))
  | giveUp c j hc =>
    have hkj := h.ne_call (c := c) (j := j) (by rw [hc]; rfl)
    have ha : view s (some c) = .waiting j := view_at hc
    exact h.frame (keeps_timedOut hw ha hkj) (slot_call (p := .returned 0) rfl rfl (no_slot rfl))
  | freeCmd c j hc =>
    have hkj := h.ne_call (c := c) (j := j) (by rw [hc]; rfl)
    exact h.frame (keeps_free hkj) (slot_call (p := .testEmpty) rfl rfl (no_slot rfl))
  | freeRet c j hc =>
    have hkj := h.ne_call (c := c) (j := j) (by rw [hc]; rfl)
    exact h.frame (keeps_free hkj) (slot_call (p := .returned 0) rfl rfl (no_slot rfl))
  | callTimeout c j hc => exact h.frame hsame (slot_call rfl rfl (by rw [hc]; exact id))
  | startWork => exact h.frame hsame (slot_work (w := .scan) rfl rfl (no_slot rfl))
  | rest => exact h.frame hsame (slot_work (w := .idle) rfl rfl (no_slot rfl))
  | claim j _ hj =>
    refine h.frame hsame (slot_work (w := .clearFlag j) rfl rfl ?_)
    intro he
    obtain rfl := Option.some.inj he
    exact absurd (List.mem_of_mem_head? hj) h.unlisted
  | clearFlag j hc =>
    have hkj := h.ne_work (j := j) (by rw [hc]; rfl)
    exact h.frame (keeps_setFlags _ hkj) (slot_work (w := .push j) rfl rfl (by rw [hc]; exact id))
  | workPush j hc =>
    exact h.frame hsame (slot_work (w := .wait j) rfl rfl (by rw [hc]; exact id))
  | workWakeUp j hc =>
    have hkj := h.ne_work (j := j) (by rw [hc]; rfl)
    exact h.frame (keeps_modify _ hkj)
      (slot_work (w := .freeCmd j) rfl rfl (by rw [hc]; exact id))
  | workGiveUp j hc =>
    have hkj := h.ne_work (j := j) (by rw [hc]; rfl)
    have ha : view s none = .waiting j := view_worker hc
    exact h.frame (keeps_timedOut hw ha hkj) (slot_work (w := .scan) rfl rfl (no_slot rfl))
  | workFree j hc =>
    have hkj := h.ne_work (j := j) (by rw [hc]; rfl)
    exact h.frame (keeps_free hkj) (slot_work (w := .scan) rfl rfl (no_slot rfl))
  | workTimeout j hc =>
    exact h.frame hsame (slot_work (w := .timedOut j) rfl rfl (by rw [hc]; exact id))
  | confirm c param =>
    have hsent : Abandoned { s with sent := s.sent.erase c } k := h.frame hsame fun _ hb => hb
    exact msgind_abandoned (s := { s with sent := s.sent.erase c }) hw hsent _ _ _
  | stray msg param => exact msgind_abandoned hw h _ _ _
  | busDown => exact h.frame hsame fun _ hb => hb

theorem abandoned_unheard (hs : Sound s) (h : Abandoned s k) {as : List Act}
    (hrun : exec step s as = some t) (msg : ℕ) : t.mgr.findCmd msg ≠ some k := by
  have hnext : ∀ s a t, step s a = some t → Sound s ∧ Abandoned s k → Sound t ∧ Abandoned t k := by
    intro s a t hst hi
    exact ⟨step_sound hi.1 hst, move_abandoned hi.1 (step_move hi.1.wf hst) hi.2⟩
  have hend := exec_preserves hnext ⟨hs, h⟩ hrun
  intro hfind
  exact hend.2.unlisted (findCmd_mem hfind)

/-! ## The step that handles a time-out -/

theorem expiring_step {a : Act} (hk : expiring s a = some k) (ht : step s a = some t) :
    ∃ b, view s b = .waiting k ∧ t.mgr = s.mgr.timedOut k ∧
      view t = Function.update (view s) b .none := by
  cases a with
  | call c =>
    cases hc : s.pc c with
    | timedOut j =>
      obtain rfl : j = k := by simpa [expiring, hc] using hk
      have hst : (s.giveUp j).ret c 0 = t := by simpa [step, Sys.callStep, hc] using ht
      subst hst
      exact ⟨some c, view_at hc, rfl,
        view_call (p := .returned 0) rfl rfl⟩
    | _ => simp [expiring, hc] at hk
  | work =>
    cases hc : s.worker with
    | timedOut j =>
      obtain rfl : j = k := by simpa [expiring, hc] using hk
      have hst : { s.giveUp j with worker := .scan } = t := by
        simpa [step, Sys.workStep, hc] using ht
      subst hst
      exact ⟨none, view_worker hc, rfl, view_work (w := .scan) rfl rfl⟩
    | _ => simp [expiring, hc] at hk
  | _ => cases hk

theorem expired_abandoned (hs : Sound s) {b : Option ℕ} (ha : view s b = .waiting k)
    (hd : (s.mgr.cmdArray k).flags.done = false) (hmgr : t.mgr = s.mgr.timedOut k)
    (hview : view t = Function.update (view s) b .none) :
    (t.mgr.cmdArray k).result = -ETIMEDOUT ∧ Abandoned t k := by
  have hw := hs.wf
  have hmem : k ∈ s.mgr.cmds := List.mem_of_mem_head? (waiting_listed hw ha (Or.inl hd))
  obtain ⟨hused, hcfm, -⟩ := (hw.slots k).listed hmem
  have htaken := timedOut_taken (hw.slots k) hcfm hd
  rw [← hmgr] at htaken
  constructor
  · rw [htaken.self]
    rfl
  · constructor
    · rw [htaken.self]
      exact hused
    · exact htaken.unlisted hw.nodup
    · intro d hdk
      rw [hview] at hdk
      by_cases hdb : d = b
      · rw [hdb, Function.update_self] at hdk
        cases hdk
      · rw [Function.update_of_ne hdb] at hdk
        exact hdb (hw.sole d b k hdk (stage_slot ha))

end

/-- A command that times out unconfirmed leaves the queue exactly when its slot
does not carry the flag of an earlier completion. -/
theorem timeout_leaves_iff {as : List Act} {s t : Sys} {a : Act} {k : ℕ}
    (h : exec step init as = some s) (hk : expiring s a = some k)
    (hcfm : (s.mgr.cmdArray k).flags.waitCfm = true) (ht : step s a = some t) :
    Left t k ↔ (s.mgr.cmdArray k).flags.done = false := by
  have hs := run_sound h
  obtain ⟨b, ha, hmgr, hview⟩ := expiring_step hk ht
  constructor
  · intro hleft
    cases hd : (s.mgr.cmdArray k).flags.done with
    | false => rfl
    | true =>
      have hhead := waiting_listed hs.wf ha (Or.inr hcfm)
      have hnot := hleft.unlisted
      rw [hmgr, timedOut_done hd] at hnot
      exact absurd (List.mem_of_mem_head? hhead) hnot
  · intro hd
    obtain ⟨hresult, habandoned⟩ := expired_abandoned hs ha hd hmgr hview
    have hsound := step_sound hs ht
    exact ⟨habandoned.unlisted, hsound.wf.size, hresult,
      fun _ _ msg hrun => abandoned_unheard hsound habandoned hrun msg⟩

/-- The first use of a slot, and its time-out. -/
def freshRun : List Act :=
  [.start 0 ⟨1, 2, true, true, .sendMsg⟩, .call 0, .call 0, .call 0, .call 0, .call 0,
    .callTimeout 0]

theorem timeout_leaves_fresh : ∃ s t, exec step init freshRun = some s ∧
    expiring s (.call 0) = some 0 ∧ step s (.call 0) = some t ∧ Left t 0 := by
  have hrun : exec step init freshRun = some ((exec step init freshRun).get (by decide)) :=
    (Option.some_get _).symm
  have hlast : step ((exec step init freshRun).get (by decide)) (.call 0) =
      some ((step ((exec step init freshRun).get (by decide)) (.call 0)).get (by decide)) :=
    (Option.some_get _).symm
  exact ⟨_, _, hrun, by decide, hlast,
    (timeout_leaves_iff hrun (by decide) (by decide) hlast).mpr (by decide)⟩

/-- A slot whose first command was confirmed is used again, and times out. -/
def recycledRun : List Act :=
  [.start 0 ⟨1, 2, true, false, .sendMsg⟩, .start 1 ⟨3, 4, true, true, .sendMsg⟩, .call 0, .call 0,
    .call 0, .call 0, .confirm 0 [], .call 0, .call 0, .call 0, .call 1, .call 1, .call 1, .call 1,
    .call 1, .callTimeout 1]

theorem recycled_slot_stays : ∃ s t, exec step init recycledRun = some s ∧
    expiring s (.call 1) = some 0 ∧ (s.mgr.cmdArray 0).flags.waitCfm = true ∧
    step s (.call 1) = some t ∧ ¬ Left t 0 := by
  have hrun : exec step init recycledRun = some ((exec step init recycledRun).get (by decide)) :=
    (Option.some_get _).symm
  have hlast : step ((exec step init recycledRun).get (by decide)) (.call 1) =
      some ((step ((exec step init recycledRun).get (by decide)) (.call 1)).get (by decide)) :=
    (Option.some_get _).symm
  refine ⟨_, _, hrun, by decide, by decide, hlast, ?_⟩
  intro hleft
  have hmem : 0 ∈ ((step ((exec step init recycledRun).get (by decide)) (.call 1)).get
      (by decide)).mgr.cmds := by decide
  exact hleft.unlisted hmem

end AIC.CommandTimeout
