import Aic8800.CommandLedger

/-!
# Holders in every run

What holds of the slots whatever happens, the drain and the time-outs included:
a slot that is held or on the list is marked used, one party holds it at most,
and only the work item holds one that still waits to be pushed. A slot that was
given up stays marked and is left alone.
-/

set_option autoImplicit false

namespace AIC.CommandHolders
open AIC.CommandMachine hiding step Act
open AIC.CommandSlots AIC.CommandMoves AIC.CommandLedger

/-- What the stage of a party says of its slot. -/
structure Holding (m : CmdMgr) (st : Stage) (k : ℕ) : Prop where
  used : (m.cmdArray k).used = true
  unlisted : st = .fresh k ∨ st = .finished k → k ∉ m.cmds
  pushed : st ≠ .claimed k → (m.cmdArray k).flags.waitPush = false

structure Slot (m : CmdMgr) (k : ℕ) : Prop where
  plain : (m.cmdArray k).flags.nonblock = false ∧ (m.cmdArray k).flags.waitAck = false
  free : (m.cmdArray k).used = false → (m.cmdArray k).flags.waitPush = false
  listed : k ∈ m.cmds → (m.cmdArray k).used = true ∧ (m.cmdArray k).complete = 0

structure Fit (m : CmdMgr) (v : Option ℕ → Stage) : Prop where
  nodup : m.cmds.Nodup
  worker : ∀ c k, v (some c) ≠ .claimed k
  sole : ∀ a b k, (v a).slot = some k → (v b).slot = some k → a = b
  slot : ∀ k, Slot m k
  held : ∀ a k, (v a).slot = some k → Holding m (v a) k

section
variable {m m' : CmdMgr} {v v' : Option ℕ → Stage} {a : Option ℕ} {k : ℕ} {st : Stage}

theorem Fit.plain (h : Fit m v) : Plain m := fun k => (h.slot k).plain

theorem slot_keeps {j : ℕ} (hkeep : Keeps m m' j) (h : Slot m j) : Slot m' j := by
  obtain ⟨h1, h2, h3⟩ := h
  constructor
  · rwa [hkeep.cmd]
  · rwa [hkeep.cmd]
  · rwa [hkeep.cmd, hkeep.mem]

theorem holding_keeps {j : ℕ} (hkeep : Keeps m m' j) (h : Holding m st j) : Holding m' st j := by
  obtain ⟨h1, h2, h3⟩ := h
  constructor
  · rwa [hkeep.cmd]
  · rwa [hkeep.mem]
  · rwa [hkeep.cmd]

theorem Fit.at (h : Fit m v) (ha : v a = st) (hk : st.slot = some k) : Holding m st k := by
  rw [← ha] at hk ⊢
  exact h.held a k hk

/-- Party `a` goes to a new stage, and only slot `k` is concerned. -/
theorem Fit.change (h : Fit m v) (hnew : st = .none ∨ st.slot = some k)
    (hother : ∀ b, b ≠ a → (v b).slot ≠ some k) (hworker : ∀ c j, a = some c → st ≠ .claimed j)
    (hkeep : ∀ j, j ≠ k → Keeps m m' j) (hnodup : m'.cmds.Nodup) (hslot : Slot m' k)
    (hhold : st.slot = some k → Holding m' st k) : Fit m' (Function.update v a st) := by
  have hcases : ∀ b j, (Function.update v a st b).slot = some j →
      b = a ∧ j = k ∧ st.slot = some k ∨ b ≠ a ∧ j ≠ k ∧ (v b).slot = some j := by
    intro b j hb
    by_cases hba : b = a
    · rw [hba, Function.update_self] at hb
      rcases hnew with rfl | hn
      · cases hb
      · exact Or.inl ⟨hba, Option.some.inj (hb.symm.trans hn), hn⟩
    · rw [Function.update_of_ne hba] at hb
      exact Or.inr ⟨hba, fun hj => hother b hba (hj ▸ hb), hb⟩
  constructor
  · exact hnodup
  · intro c j
    by_cases hca : some c = a
    · rw [hca, Function.update_self]
      exact hworker c j hca.symm
    · rw [Function.update_of_ne hca]
      exact h.worker c j
  · intro b d j hb hd
    rcases hcases b j hb with ⟨hba, hjk, -⟩ | ⟨-, hjk, hb'⟩ <;>
      rcases hcases d j hd with ⟨hda, hjk', -⟩ | ⟨-, hjk', hd'⟩
    · rw [hba, hda]
    · exact absurd hjk hjk'
    · exact absurd hjk' hjk
    · exact h.sole b d j hb' hd'
  · intro j
    by_cases hjk : j = k
    · exact hjk ▸ hslot
    · exact slot_keeps (hkeep j hjk) (h.slot j)
  · intro b j hb
    rcases hcases b j hb with ⟨hba, hjk, hn⟩ | ⟨hba, hjk, hb'⟩
    · rw [hba, hjk, Function.update_self]
      exact hhold hn
    · rw [Function.update_of_ne hba]
      exact holding_keeps (hkeep j hjk) (h.held b j hb')

/-- The party that holds slot `k` keeps it or lets it go. -/
theorem Fit.pass (h : Fit m v) (ha : (v a).slot = some k) (hnew : st = .none ∨ st.slot = some k)
    (hworker : ∀ c j, a = some c → st ≠ .claimed j) (hkeep : ∀ j, j ≠ k → Keeps m m' j)
    (hnodup : m'.cmds.Nodup) (hslot : Slot m' k) (hhold : st.slot = some k → Holding m' st k) :
    Fit m' (Function.update v a st) :=
  h.change hnew (fun b hb hk => hb (h.sole b a k hk ha)) hworker hkeep hnodup hslot hhold

/-- The manager changes at slot `k`, and its holder stays where it is. -/
theorem Fit.stay (h : Fit m v) (hkeep : ∀ j, j ≠ k → Keeps m m' j) (hnodup : m'.cmds.Nodup)
    (hslot : Slot m' k) (hhold : ∀ b, (v b).slot = some k → Holding m' (v b) k) : Fit m' v where
  nodup := hnodup
  worker := h.worker
  sole := h.sole
  slot := by
    intro j
    by_cases hjk : j = k
    · exact hjk ▸ hslot
    · exact slot_keeps (hkeep j hjk) (h.slot j)
  held := by
    intro b j hb
    by_cases hjk : j = k
    · rw [hjk] at hb ⊢
      exact hhold b hb
    · exact holding_keeps (hkeep j hjk) (h.held b j hb)

/-- Nobody but the work item holds a command that waits to be pushed. -/
theorem Fit.unheld (h : Fit m v) (hp : (m.cmdArray k).flags.waitPush = true)
    (hw : v none ≠ .claimed k) (b : Option ℕ) : (v b).slot ≠ some k := by
  intro hb
  by_cases hst : v b = .claimed k
  · cases b with
    | none => exact hw hst
    | some c => exact h.worker c k hst
  · have hpush := (h.held b k hb).pushed hst
    rw [hp] at hpush
    cases hpush

/-! ## Each entry of the ledger -/

theorem malloc_fit (h : Fit m v) (c : ℕ) (r : Request) (hk : (m.cmdArray k).used = false) :
    Fit (m.modify k (Sys.initCmd r c)) (Function.update v (some c) (.fresh k)) := by
  have hold := h.slot k
  have hmem : k ∉ m.cmds := by
    intro hmem
    have hused := (hold.listed hmem).1
    rw [hk] at hused
    cases hused
  apply h.change (Or.inr rfl) _ (by simp) (fun j hj => keeps_modify _ hj) h.nodup
  · constructor
    · simpa [Sys.initCmd] using ⟨hold.plain.1, fun _ => hold.plain.2⟩
    · simp [Sys.initCmd]
    · exact fun hin => absurd hin hmem
  · intro _
    constructor
    · simp [Sys.initCmd]
    · exact fun _ => hmem
    · intro _
      simpa [Sys.initCmd] using hold.free hk
  · intro b _ hb
    have hused := (h.held b k hb).used
    rw [hk] at hused
    cases hused

theorem refused_fit (h : Fit m v) (r : ℤ) : Fit (m.setResult k r) v := by
  have hold := h.slot k
  apply h.stay (fun j hj => keeps_modify _ hj) h.nodup
  · constructor
    · simpa [CmdMgr.setResult] using hold.plain
    · simpa [CmdMgr.setResult] using hold.free
    · simpa [CmdMgr.setResult] using hold.listed
  · intro b hb
    obtain ⟨h1, h2, h3⟩ := h.held b k hb
    constructor
    · simpa [CmdMgr.setResult] using h1
    · exact h2
    · simpa [CmdMgr.setResult] using h3

theorem enqueue_fit (h : Fit m v) (ha : v a = .fresh k) (d : Bool)
    (hst : st = .none ∧ d = true ∨ st = .pushing k ∧ d = false) :
    Fit (m.enqueue k d) (Function.update v a st) := by
  have hold := h.at ha rfl
  have hslot := h.slot k
  have hmem : k ∉ m.cmds := hold.unlisted (Or.inl rfl)
  apply h.pass (by rw [ha]; rfl) _ _ (fun j hj => keeps_enqueue d hj)
  · simpa [CmdMgr.enqueue] using h.nodup.concat hmem
  · constructor
    · simpa [CmdMgr.enqueue] using hslot.plain
    · simp [CmdMgr.enqueue, hold.used]
    · simp [CmdMgr.enqueue, hold.used, hslot.plain.1]
  · intro hk
    rcases hst with ⟨rfl, -⟩ | ⟨rfl, rfl⟩
    · cases hk
    · constructor
      · simp [CmdMgr.enqueue, hold.used]
      · simp
      · simpa [CmdMgr.enqueue] using hold.pushed
  · rcases hst with ⟨rfl, -⟩ | ⟨rfl, -⟩
    · exact Or.inl rfl
    · exact Or.inr rfl
  · rintro c j -
    rcases hst with ⟨rfl, -⟩ | ⟨rfl, -⟩ <;> simp

theorem push_fit (h : Fit m v) (ha : v a = .pushing k) :
    Fit m (Function.update v a (.waiting k)) := by
  have hold := h.at ha rfl
  apply h.pass (by rw [ha]; rfl) (Or.inr rfl) (by simp) (fun j _ => Keeps.refl m j) h.nodup (h.slot k)
  exact fun _ => ⟨hold.used, by simp, fun _ => hold.pushed (by simp)⟩

theorem wakeUp_fit (h : Fit m v) (ha : v a = .waiting k) (hc : (m.cmdArray k).complete ≠ 0) :
    Fit (m.modify k wakeUp) (Function.update v a (.finished k)) := by
  have hold := h.at ha rfl
  have hslot := h.slot k
  have hmem : k ∉ m.cmds := fun hk => hc (hslot.listed hk).2
  apply h.pass (by rw [ha]; rfl) (Or.inr rfl) (by simp) (fun j hj => keeps_modify _ hj) h.nodup
  · constructor
    · simpa [wakeUp] using hslot.plain
    · simp [wakeUp, hold.used]
    · exact fun hk => absurd hk hmem
  · intro _
    constructor
    · simp [wakeUp, hold.used]
    · exact fun _ => hmem
    · intro _
      simpa [wakeUp] using hold.pushed (by simp)

theorem free_fit (h : Fit m v) (ha : v a = .fresh k ∨ v a = .finished k) :
    Fit (m.rwnxCmdFree k) (Function.update v a .none) := by
  have hk : (v a).slot = some k := by rcases ha with ha | ha <;> rw [ha] <;> rfl
  have hold := h.held a k hk
  have hpush : (m.cmdArray k).flags.waitPush = false :=
    hold.pushed (by rcases ha with ha | ha <;> simp [ha])
  apply h.pass hk (Or.inl rfl) (by simp) (fun j hj => keeps_free hj) h.nodup
  · constructor
    · simpa [CmdMgr.rwnxCmdFree] using (h.slot k).plain
    · intro _
      simpa [CmdMgr.rwnxCmdFree] using hpush
    · exact fun hmem => absurd hmem (hold.unlisted ha)
  · intro hnone
    cases hnone

theorem claim_fit (h : Fit m v) (ha : v none = .none) (hk : k ∈ m.cmds)
    (hp : (m.cmdArray k).flags.waitPush = true) :
    Fit m (Function.update v none (.claimed k)) := by
  have hnot := h.unheld hp (by simp [ha])
  apply h.change (Or.inr rfl) (fun b _ => hnot b) (by simp) (fun j _ => Keeps.refl m j) h.nodup
    (h.slot k)
  exact fun _ => ⟨((h.slot k).listed hk).1, by simp, by simp⟩

theorem clearFlag_fit (h : Fit m v) (ha : v none = .claimed k) :
    Fit (m.setFlags k pushed) (Function.update v none (.pushing k)) := by
  have hold := h.at ha rfl
  have hslot := h.slot k
  apply h.pass (by rw [ha]; rfl) (Or.inr rfl) (by simp) (fun j hj => keeps_setFlags _ hj) h.nodup
  · constructor
    · simpa [CmdMgr.setFlags, CommandMoves.pushed] using hslot.plain
    · simp [CmdMgr.setFlags, hold.used]
    · simpa [CmdMgr.setFlags] using hslot.listed
  · intro _
    constructor
    · simp [CmdMgr.setFlags, hold.used]
    · simp
    · simp [CmdMgr.setFlags, CommandMoves.pushed]

theorem shift_fit (h : Fit m v) (hs : Shift m v m' v') : Fit m' v' := by
  cases hs with
  | stay => exact h
  | malloc c k r ha hk => exact malloc_fit h c r hk
  | refused c k r ha => exact refused_fit h r
  | direct c k ha => exact enqueue_fit h ha false (Or.inr ⟨rfl, rfl⟩)
  | deferred c k ha => exact enqueue_fit h ha true (Or.inl ⟨rfl, rfl⟩)
  | push a k ha => exact push_fit h ha
  | wakeUp a k ha hc => exact wakeUp_fit h ha hc
  | free a k ha => exact free_fit h ha
  | claim k ha hk hp => exact claim_fit h ha hk hp
  | clearFlag k ha => exact clearFlag_fit h ha

/-! ## Taking a command off the list -/

/-- The command leaves the list, completed or not, and its slot keeps the rest. -/
theorem taken_fit {cmd : RwnxCmd} (h : Fit m v) (ht : Taken m m' k cmd)
    (hused : cmd.used = (m.cmdArray k).used)
    (hplain : cmd.flags.nonblock = false ∧ cmd.flags.waitAck = false)
    (hpush : cmd.flags.waitPush = (m.cmdArray k).flags.waitPush) : Fit m' v := by
  have hmem : k ∉ m'.cmds := ht.unlisted h.nodup
  apply h.stay (fun j hj => ht.keeps hj)
  · rw [ht.cmds]
    exact h.nodup.erase k
  · constructor
    · rwa [ht.self]
    · rw [ht.self, hused, hpush]
      exact (h.slot k).free
    · exact fun hk => absurd hk hmem
  · intro b hb
    have hold := h.held b k hb
    constructor
    · rw [ht.self, hused]
      exact hold.used
    · exact fun _ => hmem
    · rw [ht.self, hpush]
      exact hold.pushed

theorem confirm_fit (h : Fit m v) : Fit (m.confirm k) v :=
  taken_fit h (plain_confirmed (h.plain k)) rfl (h.plain k) rfl

/-- `cmd_complete` after a time-out, as `done` and the flags have it. -/
theorem timedOut_cases (hp : Plain m) (k : ℕ) : m.timedOut k = { m with state := .crashed } ∨
    ∃ cmd, Taken m (m.timedOut k) k cmd ∧ cmd.used = (m.cmdArray k).used ∧
      (cmd.flags.nonblock = false ∧ cmd.flags.waitAck = false) ∧
      cmd.flags.waitPush = (m.cmdArray k).flags.waitPush ∧ cmd.owner = (m.cmdArray k).owner := by
  cases hd : (m.cmdArray k).flags.done with
  | true => exact Or.inl (timedOut_done hd)
  | false =>
    refine Or.inr ⟨(m.timedOut k).cmdArray k, ⟨?_, ?_, ?_, rfl⟩, ?_, ?_, ?_, ?_⟩
    all_goals simp only [CmdMgr.timedOut, CmdMgr.cmdComplete, CmdMgr.setFlags, CmdMgr.setResult, hd,
      modify_self, (hp k).1, Bool.false_eq_true, if_false]
    all_goals split_ifs
    all_goals simp +contextual [CmdMgr.modify, (hp k).1, (hp k).2]

theorem timedOut_fit (h : Fit m v) (ha : v a = .waiting k) :
    Fit (m.timedOut k) (Function.update v a .none) := by
  have hgo : Fit m (Function.update v a .none) := by
    apply h.pass (by rw [ha]; rfl) (Or.inl rfl) (by simp) (fun j _ => Keeps.refl m j) h.nodup
      (h.slot k)
    intro hnone
    cases hnone
  rcases timedOut_cases h.plain k with he | ⟨cmd, ht, hused, hplain, hpush, -⟩
  · rw [he]
    have hsame : ∀ j, Keeps m { m with state := .crashed } j := fun j => ⟨rfl, Iff.rfl, id⟩
    exact hgo.stay (k := k) (fun j _ => hsame j) h.nodup (slot_keeps (hsame k) (h.slot k))
      fun b hb => holding_keeps (hsame k) (hgo.held b k hb)
  · exact taken_fit hgo ht hused hplain hpush

theorem drain_fit (h : Fit m v) : Fit (cmdMgrDrain m) v := by
  have hcmds := drain_cmds h.plain
  constructor
  · rw [hcmds]
    exact List.nodup_nil
  · exact h.worker
  · exact h.sole
  · intro k
    have hold := h.slot k
    constructor
    · rw [drain_slot h.plain k]
      exact hold.plain
    · rw [drain_slot h.plain k]
      exact hold.free
    · simp [hcmds]
  · intro b k hb
    have hold := h.held b k hb
    constructor
    · rw [drain_slot h.plain k]
      exact hold.used
    · simp [hcmds]
    · rw [drain_slot h.plain k]
      exact hold.pushed

end

/-! ## Every step -/

section
variable {s t : Sys}

theorem fit_still (hpc : t.pc = s.pc) (hwork : t.worker = s.worker) (h : Fit t.mgr (view s)) :
    Fit t.mgr (view t) := by
  rwa [view_still hpc hwork]

theorem fit_call {c : ℕ} {p : Pc} (hpc : t.pc = Function.update s.pc c p)
    (hwork : t.worker = s.worker)
    (h : Fit t.mgr (Function.update (view s) (some c) (callStage p))) : Fit t.mgr (view t) := by
  rwa [view_call hpc hwork]

theorem fit_work {w : WorkPc} (hpc : t.pc = s.pc) (hwork : t.worker = w)
    (h : Fit t.mgr (Function.update (view s) none (workStage w))) : Fit t.mgr (view t) := by
  rwa [view_work hpc hwork]

theorem msgind_fit (h : Fit s.mgr (view s)) (id : ℕ) (cause : Option ℕ) (param : List UInt8) :
    Fit (s.msgind id cause param).mgr (view (s.msgind id cause param)) := by
  rcases msgind_cases s id cause param with ⟨he, -⟩ | ⟨k, hk, he⟩ <;> rw [he]
  · exact h
  · exact fit_still (s := s) rfl rfl (confirm_fit h)

theorem step_fit {a : Act} (h : Fit s.mgr (view s)) (hs : step s a = some t) :
    Fit t.mgr (view t) := by
  by_cases htake : Taking s a
  · cases a with
    | drain =>
      obtain rfl := Option.some.inj hs
      exact fit_still (s := s) rfl rfl (drain_fit h)
    | mgr a =>
      cases a with
      | call c =>
        obtain ⟨k, hk⟩ := htake
        simp only [step, CommandMachine.step, Sys.callStep, hk, Option.some.injEq] at hs
        subst hs
        exact fit_call (s := s) (p := .returned 0) rfl rfl (timedOut_fit h (view_at hk))
      | work =>
        obtain ⟨k, hk⟩ := htake
        simp only [step, CommandMachine.step, Sys.workStep, hk, Option.some.injEq] at hs
        subst hs
        exact fit_work (s := s) (w := .scan) rfl rfl (timedOut_fit h (view_worker hk))
      | confirm c param =>
        simp only [step, CommandMachine.step] at hs
        split_ifs at hs
        obtain rfl := Option.some.inj hs
        exact msgind_fit (s := { s with sent := s.sent.erase c }) h _ _ _
      | stray id param =>
        obtain rfl := Option.some.inj hs
        exact msgind_fit h id none param
      | start | callTimeout | startWork | workTimeout | busDown => exact htake.elim
  · exact shift_fit h (step_shift h.plain htake hs)

theorem init_fit : Fit init.mgr (view init) where
  nodup := List.nodup_nil
  worker c k := by simp [view_init]
  sole a b k ha := by simp [view_init, Stage.slot] at ha
  slot k := by constructor <;> simp [init, initSlot]
  held a k ha := by simp [view_init, Stage.slot] at ha

end

end AIC.CommandHolders
