import Aic8800.CommandLedger

/-!
# Slots are conserved

A slot is marked used while a call or the work item holds its command or the
list has it, and no longer. This fails in four steps only: a time-out gives a
slot up without freeing it, a message or the drain takes a command off the list
that nobody holds, and `rwnx_cmd_malloc` finds no slot and its caller writes
through NULL. Runs without these steps, and only these, conserve the slots.
-/

set_option autoImplicit false

namespace AIC.CommandConserved
open AIC.CommandMachine hiding step Act
open AIC.CommandSlots AIC.CommandMoves AIC.CommandLedger Lib.GuardedRun

/-! ## The property and the condition -/

/-- A call or the work item holds the command in slot `k`. -/
def Held (s : Sys) (k : ℕ) : Prop := ∃ a, (view s a).slot = some k

def Outstanding (s : Sys) (k : ℕ) : Prop := Held s k ∨ k ∈ s.mgr.cmds

structure Conserved (s : Sys) : Prop where
  used : ∀ k, (s.mgr.cmdArray k).used = true ↔ Outstanding s k
  full : s.mgr.freeSlot = none → ∀ k < RWNX_CMD_ARRAY_SIZE, Outstanding s k
  reported : ∀ c, s.pc c ≠ .oops

/-- The time-out leaves the command on the list, which has it marked as done. -/
def LeftListed (m : CmdMgr) (k : ℕ) : Prop :=
  k ∈ m.cmds ∧ (m.cmdArray k).flags.done = true

/-- The step takes no command off the list that nobody holds, gives none up
that is not left on the list, and finds a free slot when it needs one. -/
def Tidy (s : Sys) : Act → Prop
  | .mgr (.call c) => (s.pc c = .malloc → s.mgr.freeSlot ≠ none) ∧
      ∀ k, s.pc c = .timedOut k → LeftListed s.mgr k
  | .mgr .work => ∀ k, s.worker = .timedOut k → LeftListed s.mgr k
  | .mgr (.confirm c _) =>
      c ∈ s.sent → ∀ k, s.mgr.findCmd (s.request c).reqid = some k → Held s k
  | .mgr (.stray id _) => ∀ k, s.mgr.findCmd id = some k → Held s k
  | .drain => ∀ k ∈ s.mgr.cmds, Held s k
  | _ => True

/-! ## What is known of a slot -/

/-- Slot `k`, whose holder, if there is one, is at `st`. -/
structure Entry (m : CmdMgr) (k : ℕ) (st : Stage) : Prop where
  plain : (m.cmdArray k).flags.nonblock = false ∧ (m.cmdArray k).flags.waitAck = false
  free : (m.cmdArray k).used = false → k ∉ m.cmds ∧ (m.cmdArray k).flags.waitPush = false
  listed : k ∈ m.cmds → (m.cmdArray k).used = true ∧ (m.cmdArray k).complete = 0
  used : (m.cmdArray k).used = true ↔ st.slot = some k ∨ k ∈ m.cmds
  unlisted : st = .fresh k ∨ st = .finished k → k ∉ m.cmds
  pushed : st = .fresh k ∨ st = .finished k ∨ st = .pushing k ∨ st = .waiting k →
    (m.cmdArray k).flags.waitPush = false

structure Kept (m : CmdMgr) (v : Option ℕ → Stage) : Prop where
  nodup : m.cmds.Nodup
  worker : ∀ c k, v (some c) ≠ .claimed k
  sole : ∀ a b k, (v a).slot = some k → (v b).slot = some k → a = b
  held : ∀ a k, (v a).slot = some k → Entry m k (v a)
  rest : ∀ k, (∀ a, (v a).slot ≠ some k) → Entry m k .none

section
variable {m m' : CmdMgr} {v v' : Option ℕ → Stage} {a : Option ℕ} {k : ℕ} {st : Stage}

theorem Kept.plain (h : Kept m v) : Plain m := by
  intro k
  by_cases hk : ∃ a, (v a).slot = some k
  · obtain ⟨a, ha⟩ := hk
    exact (h.held a k ha).plain
  · exact (h.rest k (by simpa using hk)).plain

theorem Kept.used_iff (h : Kept m v) (k : ℕ) :
    (m.cmdArray k).used = true ↔ (∃ a, (v a).slot = some k) ∨ k ∈ m.cmds := by
  by_cases hk : ∃ a, (v a).slot = some k
  · obtain ⟨a, ha⟩ := hk
    have hused := (h.held a k ha).used.mpr (Or.inl ha)
    exact ⟨fun _ => Or.inl ⟨a, ha⟩, fun _ => hused⟩
  · rw [(h.rest k (by simpa using hk)).used]
    constructor
    · rintro (hn | hmem)
      · cases hn
      · exact Or.inr hmem
    · rintro (hheld | hmem)
      · exact absurd hheld hk
      · exact Or.inr hmem

theorem Kept.listed (h : Kept m v) (hk : k ∈ m.cmds) :
    (m.cmdArray k).used = true ∧ (m.cmdArray k).complete = 0 := by
  by_cases hh : ∃ a, (v a).slot = some k
  · obtain ⟨a, ha⟩ := hh
    exact (h.held a k ha).listed hk
  · exact (h.rest k (by simpa using hh)).listed hk

theorem entry_keeps {j : ℕ} (hkeep : Keeps m m' j) (h : Entry m j st) : Entry m' j st := by
  obtain ⟨h1, h2, h3, h4, h5, h6⟩ := h
  constructor
  · rwa [hkeep.cmd]
  · rwa [hkeep.cmd, hkeep.mem]
  · rwa [hkeep.cmd, hkeep.mem]
  · rwa [hkeep.cmd, hkeep.mem]
  · rwa [hkeep.mem]
  · rwa [hkeep.cmd]

/-- Party `a` goes to a new stage, and only slot `k` is concerned. -/
theorem Kept.change (h : Kept m v) (hold : ∀ j, (v a).slot = some j → j = k)
    (hnew : st = .none ∨ st.slot = some k) (hother : ∀ b, b ≠ a → (v b).slot ≠ some k)
    (hworker : ∀ c j, a = some c → st ≠ .claimed j) (hkeep : ∀ j, j ≠ k → Keeps m m' j)
    (hnodup : m'.cmds.Nodup) (hentry : Entry m' k st) : Kept m' (Function.update v a st) := by
  have hslot : ∀ b j, (Function.update v a st b).slot = some j →
      b = a ∧ j = k ∨ b ≠ a ∧ j ≠ k ∧ (v b).slot = some j := by
    intro b j hb
    by_cases hba : b = a
    · rw [hba, Function.update_self] at hb
      rcases hnew with rfl | hn
      · cases hb
      · exact Or.inl ⟨hba, Option.some.inj (hb.symm.trans hn)⟩
    · rw [Function.update_of_ne hba] at hb
      exact Or.inr ⟨hba, fun hj => hother b hba (hj ▸ hb), hb⟩
  constructor
  · exact hnodup
  · intro c j
    by_cases hca : some c = a
    · rw [hca, Function.update_self]
      exact hworker c j hca.symm
    · rw [Function.update_of_ne hca]
      exact h.worker c j
  · intro b d j hb hd
    rcases hslot b j hb with ⟨hba, hjk⟩ | ⟨-, hjk, hb'⟩ <;>
      rcases hslot d j hd with ⟨hda, hjk'⟩ | ⟨-, hjk', hd'⟩
    · rw [hba, hda]
    · exact absurd hjk hjk'
    · exact absurd hjk' hjk
    · exact h.sole b d j hb' hd'
  · intro b j hb
    rcases hslot b j hb with ⟨hba, hjk⟩ | ⟨hba, hjk, hb'⟩
    · rw [hba, hjk, Function.update_self]
      exact hentry
    · rw [Function.update_of_ne hba]
      exact entry_keeps (hkeep j hjk) (h.held b j hb')
  · intro j hj
    by_cases hjk : j = k
    · rw [hjk] at hj ⊢
      rcases hnew with rfl | hn
      · exact hentry
      · exact absurd (by rw [Function.update_self, hn]) (hj a)
    · refine entry_keeps (hkeep j hjk) (h.rest j ?_)
      intro b hb
      by_cases hba : b = a
      · rw [hba] at hb
        exact hjk (hold j hb)
      · exact hj b (by rwa [Function.update_of_ne hba])

/-- The party that holds slot `k` keeps it or lets it go. -/
theorem Kept.pass (h : Kept m v) (ha : (v a).slot = some k) (hnew : st = .none ∨ st.slot = some k)
    (hworker : ∀ c j, a = some c → st ≠ .claimed j) (hkeep : ∀ j, j ≠ k → Keeps m m' j)
    (hnodup : m'.cmds.Nodup) (hentry : Entry m' k st) : Kept m' (Function.update v a st) := by
  apply h.change _ hnew _ hworker hkeep hnodup hentry
  · intro j hj
    exact Option.some.inj (hj.symm.trans ha)
  · intro b hb hk
    exact hb (h.sole b a k hk ha)

/-- Nobody holds slot `k`, and party `a` takes it. -/
theorem Kept.take (h : Kept m v) (ha : v a = .none) (hk : ∀ b, (v b).slot ≠ some k)
    (hnew : st.slot = some k) (hworker : ∀ c j, a = some c → st ≠ .claimed j)
    (hkeep : ∀ j, j ≠ k → Keeps m m' j) (hnodup : m'.cmds.Nodup) (hentry : Entry m' k st) :
    Kept m' (Function.update v a st) := by
  apply h.change _ (Or.inr hnew) (fun b _ => hk b) hworker hkeep hnodup hentry
  intro j hj
  rw [ha] at hj
  cases hj

theorem Kept.at (h : Kept m v) (ha : v a = st) (hk : st.slot = some k) : Entry m k st := by
  rw [← ha] at hk ⊢
  exact h.held a k hk

/-! ## Each entry of the ledger -/

theorem malloc_kept (h : Kept m v) (c : ℕ) (r : Request) (ha : v (some c) = .none)
    (hk : (m.cmdArray k).used = false) :
    Kept (m.modify k (Sys.initCmd r c)) (Function.update v (some c) (.fresh k)) := by
  have hfree : ¬ ((∃ b, (v b).slot = some k) ∨ k ∈ m.cmds) := by
    rw [← h.used_iff k, hk]
    simp
  have hnot : ∀ b, (v b).slot ≠ some k := fun b hb => hfree (Or.inl ⟨b, hb⟩)
  have hold := h.rest k hnot
  apply h.take ha hnot rfl (by simp) (fun j hj => keeps_modify _ hj) h.nodup
  constructor
  · simpa [Sys.initCmd] using ⟨hold.plain.1, fun _ => hold.plain.2⟩
  · simp [Sys.initCmd]
  · exact fun hmem => absurd (Or.inr hmem) hfree
  · simp [Sys.initCmd, Stage.slot]
  · exact fun _ hmem => hfree (Or.inr hmem)
  · intro _
    simpa [Sys.initCmd] using (hold.free hk).2

theorem refused_kept (h : Kept m v) (c : ℕ) (r : ℤ) (ha : v (some c) = .fresh k) :
    Kept (m.setResult k r) v := by
  have hold := h.at ha rfl
  rw [← Function.update_eq_self (some c) v, ha]
  apply h.pass (by rw [ha]; rfl) (Or.inr rfl) (by simp) (fun j hj => keeps_modify _ hj) h.nodup
  obtain ⟨h1, h2, h3, h4, h5, h6⟩ := hold
  constructor
  · simpa [CmdMgr.setResult] using h1
  · simpa [CmdMgr.setResult] using h2
  · simpa [CmdMgr.setResult] using h3
  · simpa [CmdMgr.setResult] using h4
  · exact h5
  · simpa [CmdMgr.setResult] using h6

/-- The ledger entry of a fresh command once it is on the list. -/
theorem entry_enqueue {deferred : Bool} (h : Entry m k (.fresh k))
    (hst : st = .none ∧ deferred = true ∨ st = .pushing k ∧ deferred = false) :
    Entry (m.enqueue k deferred) k st := by
  have hused : (m.cmdArray k).used = true := h.used.mpr (Or.inl rfl)
  constructor
  · simpa [CmdMgr.enqueue] using h.plain
  · simp [CmdMgr.enqueue, hused]
  · simp [CmdMgr.enqueue, hused, h.plain.1]
  · simp [CmdMgr.enqueue, hused]
  · rcases hst with ⟨rfl, -⟩ | ⟨rfl, -⟩ <;> simp
  · rcases hst with ⟨rfl, -⟩ | ⟨rfl, rfl⟩
    · simp
    · simpa [CmdMgr.enqueue] using h.pushed (Or.inl rfl)

theorem direct_kept (h : Kept m v) (c : ℕ) (ha : v (some c) = .fresh k) :
    Kept (m.enqueue k false) (Function.update v (some c) (.pushing k)) := by
  have hold := h.at ha rfl
  have hmem : k ∉ m.cmds := hold.unlisted (Or.inl rfl)
  apply h.pass (by rw [ha]; rfl) (Or.inr rfl) (by simp) (fun j hj => keeps_enqueue false hj)
  · simpa [CmdMgr.enqueue] using h.nodup.concat hmem
  · exact entry_enqueue hold (Or.inr ⟨rfl, rfl⟩)

theorem deferred_kept (h : Kept m v) (c : ℕ) (ha : v (some c) = .fresh k) :
    Kept (m.enqueue k true) (Function.update v (some c) .none) := by
  have hold := h.at ha rfl
  have hmem : k ∉ m.cmds := hold.unlisted (Or.inl rfl)
  apply h.pass (by rw [ha]; rfl) (Or.inl rfl) (by simp) (fun j hj => keeps_enqueue true hj)
  · simpa [CmdMgr.enqueue] using h.nodup.concat hmem
  · exact entry_enqueue hold (Or.inl ⟨rfl, rfl⟩)

theorem push_kept (h : Kept m v) (ha : v a = .pushing k) :
    Kept m (Function.update v a (.waiting k)) := by
  obtain ⟨h1, h2, h3, h4, -, h6⟩ := h.at ha rfl
  apply h.pass (by rw [ha]; rfl) (Or.inr rfl) (by simp) (fun j _ => Keeps.refl m j) h.nodup
  exact ⟨h1, h2, h3, h4, by simp, fun _ => h6 (by simp)⟩

theorem wakeUp_kept (h : Kept m v) (ha : v a = .waiting k) (hc : (m.cmdArray k).complete ≠ 0) :
    Kept (m.modify k wakeUp) (Function.update v a (.finished k)) := by
  have hold := h.at ha rfl
  have hmem : k ∉ m.cmds := fun hk => hc (hold.listed hk).2
  have hused : (m.cmdArray k).used = true := hold.used.mpr (Or.inl rfl)
  apply h.pass (by rw [ha]; rfl) (Or.inr rfl) (by simp) (fun j hj => keeps_modify _ hj) h.nodup
  constructor
  · simpa [wakeUp] using hold.plain
  · simp [wakeUp, hused]
  · exact fun hk => absurd hk hmem
  · simp [wakeUp, hused, Stage.slot]
  · exact fun _ => hmem
  · intro _
    simpa [wakeUp] using hold.pushed (by simp)

theorem free_kept (h : Kept m v) (ha : v a = .fresh k ∨ v a = .finished k) :
    Kept (m.rwnxCmdFree k) (Function.update v a .none) := by
  have hslot : (v a).slot = some k := by rcases ha with ha | ha <;> rw [ha] <;> rfl
  have hold := h.held a k hslot
  have hmem : k ∉ m.cmds := hold.unlisted ha
  have hpush : (m.cmdArray k).flags.waitPush = false :=
    hold.pushed (by rcases ha with ha | ha <;> simp [ha])
  apply h.pass hslot (Or.inl rfl) (by simp) (fun j hj => keeps_free hj) h.nodup
  constructor
  · simpa [CmdMgr.rwnxCmdFree] using hold.plain
  · exact fun _ => ⟨hmem, by simpa [CmdMgr.rwnxCmdFree] using hpush⟩
  · exact fun hk => absurd hk hmem
  · simp [CmdMgr.rwnxCmdFree, hmem, Stage.slot]
  · simp
  · simp

theorem claim_kept (h : Kept m v) (ha : v none = .none) (hk : k ∈ m.cmds)
    (hp : (m.cmdArray k).flags.waitPush = true) :
    Kept m (Function.update v none (.claimed k)) := by
  have hnot : ∀ b, (v b).slot ≠ some k := by
    intro b hb
    have hold := h.held b k hb
    cases hst : v b with
    | none =>
      rw [hst] at hb
      cases hb
    | claimed j =>
      cases b with
      | none =>
        rw [ha] at hst
        cases hst
      | some c => exact h.worker c j hst
    | fresh j | finished j =>
      rw [hst] at hb
      obtain rfl := Option.some.inj hb
      exact hold.unlisted (by simp [hst]) hk
    | pushing j | waiting j =>
      rw [hst] at hb
      obtain rfl := Option.some.inj hb
      have hpush := hold.pushed (by simp [hst])
      rw [hp] at hpush
      cases hpush
  have hold := h.rest k hnot
  apply h.take ha hnot rfl (by simp) (fun j _ => Keeps.refl m j) h.nodup
  have hused := (h.listed hk).1
  exact ⟨hold.plain, hold.free, hold.listed, by simp [hused, hk], by simp, by simp⟩

theorem clearFlag_kept (h : Kept m v) (ha : v none = .claimed k) :
    Kept (m.setFlags k pushed) (Function.update v none (.pushing k)) := by
  have hold := h.at ha rfl
  have hused : (m.cmdArray k).used = true := hold.used.mpr (Or.inl rfl)
  apply h.pass (by rw [ha]; rfl) (Or.inr rfl) (by simp) (fun j hj => keeps_setFlags _ hj) h.nodup
  constructor
  · simpa [CmdMgr.setFlags, CommandMoves.pushed] using hold.plain
  · simp [CmdMgr.setFlags, hused]
  · simpa [CmdMgr.setFlags] using hold.listed
  · simp [CmdMgr.setFlags, hused, Stage.slot]
  · simp
  · simp [CmdMgr.setFlags, CommandMoves.pushed]

theorem shift_kept (h : Kept m v) (hs : Shift m v m' v') : Kept m' v' := by
  cases hs with
  | stay => exact h
  | malloc c k r ha hk => exact malloc_kept h c r ha hk
  | refused c k r ha => exact refused_kept h c r ha
  | direct c k ha => exact direct_kept h c ha
  | deferred c k ha => exact deferred_kept h c ha
  | push a k ha => exact push_kept h ha
  | wakeUp a k ha hc => exact wakeUp_kept h ha hc
  | free a k ha => exact free_kept h ha
  | claim k ha hk hp => exact claim_kept h ha hk hp
  | clearFlag k ha => exact clearFlag_kept h ha

/-! ## Taking a command off the list -/

theorem undone_lost (h : Entry m k st) (hd : (m.cmdArray k).flags.done = false) :
    (m.timedOut k).cmds = m.cmds.erase k ∧
      ((m.timedOut k).cmdArray k).used = (m.cmdArray k).used := by
  have hblock := h.plain.1
  simp only [CmdMgr.timedOut, CmdMgr.cmdComplete, CmdMgr.setFlags, CmdMgr.setResult, hd,
    modify_self, hblock, Bool.false_eq_true, if_false]
  split_ifs <;> simp [CmdMgr.modify]

theorem giveUp_kept (h : Kept m v) (ha : v a = .waiting k) (hk : LeftListed m k) :
    Kept (m.timedOut k) (Function.update v a .none) := by
  obtain ⟨hmem, hdone⟩ := hk
  have hold := h.at ha rfl
  have hused := (h.listed hmem).1
  have hkeep : ∀ j, j ≠ k → Keeps m { m with state := .crashed } j := fun j _ => ⟨rfl, Iff.rfl, id⟩
  rw [timedOut_done hdone]
  apply h.pass (by rw [ha]; rfl) (Or.inl rfl) (by simp) hkeep h.nodup
  exact ⟨hold.plain, hold.free, hold.listed, by simp [hused, hmem], by simp, by simp⟩

theorem giveUp_lost (h : Kept m v) (ha : v a = .waiting k) (hk : ¬ LeftListed m k) :
    ((m.timedOut k).cmdArray k).used = true ∧ k ∉ (m.timedOut k).cmds ∧
      ∀ b, (Function.update v a .none b).slot ≠ some k := by
  have hold := h.at ha rfl
  have hused : (m.cmdArray k).used = true := hold.used.mpr (Or.inl rfl)
  have hnot : ∀ b, (Function.update v a .none b).slot ≠ some k := by
    intro b hb
    by_cases hba : b = a
    · rw [hba, Function.update_self] at hb
      cases hb
    · rw [Function.update_of_ne hba] at hb
      exact hba (h.sole b a k hb (by rw [ha]; rfl))
  cases hd : (m.cmdArray k).flags.done with
  | true =>
    rw [timedOut_done hd]
    exact ⟨hused, fun hmem => hk ⟨hmem, hd⟩, hnot⟩
  | false =>
    obtain ⟨hcmds, hslot⟩ := undone_lost hold hd
    rw [hcmds, hslot]
    exact ⟨hused, h.nodup.not_mem_erase, hnot⟩

theorem confirm_kept (h : Kept m v) (hk : k ∈ m.cmds) (ha : (v a).slot = some k) :
    Kept (m.confirm k) v := by
  have hold := h.held a k ha
  have ht := plain_confirmed hold.plain
  have hused := (hold.listed hk).1
  have hmem : k ∉ (m.confirm k).cmds := ht.unlisted h.nodup
  rw [← Function.update_eq_self a v]
  apply h.pass ha (Or.inr ha) _ (fun j hj => ht.keeps hj)
  · rw [ht.cmds]
    exact h.nodup.erase k
  · constructor
    · simpa [ht.self, confirmedCmd] using hold.plain
    · simp [ht.self, confirmedCmd, hused]
    · exact fun hk => absurd hk hmem
    · simp [ht.self, confirmedCmd, hused, ha]
    · exact fun _ => hmem
    · simpa [ht.self, confirmedCmd] using hold.pushed
  · intro c j hc
    rw [hc]
    exact h.worker c j

theorem confirm_lost (h : Kept m v) (hk : k ∈ m.cmds) :
    ((m.confirm k).cmdArray k).used = true ∧ k ∉ (m.confirm k).cmds := by
  have ht := plain_confirmed (h.plain k)
  rw [ht.self]
  exact ⟨(h.listed hk).1, ht.unlisted h.nodup⟩

theorem drain_used (hm : Plain m) (k : ℕ) :
    ((cmdMgrDrain m).cmdArray k).used = (m.cmdArray k).used := by
  rw [drain_slot hm k]

theorem drain_kept (h : Kept m v) (hk : ∀ k ∈ m.cmds, ∃ a, (v a).slot = some k) :
    Kept (cmdMgrDrain m) v := by
  have hm := h.plain
  have hcmds := drain_cmds hm
  have hentry : ∀ k st, ((m.cmdArray k).used = true ↔ st.slot = some k) → Entry m k st →
      Entry (cmdMgrDrain m) k st := by
    intro k st hused hold
    rw [← drain_used hm k] at hused
    constructor
    · rw [drain_slot hm k]
      exact hold.plain
    · intro hu
      rw [drain_used hm k] at hu
      rw [drain_slot hm k, hcmds]
      exact ⟨List.not_mem_nil, (hold.free hu).2⟩
    · simp [hcmds]
    · simpa [hcmds] using hused
    · simp [hcmds]
    · rw [drain_slot hm k]
      exact hold.pushed
  constructor
  · rw [hcmds]
    exact List.nodup_nil
  · exact h.worker
  · exact h.sole
  · intro a k ha
    exact hentry k _ ⟨fun _ => ha, fun hs => (h.held a k ha).used.mpr (Or.inl hs)⟩ (h.held a k ha)
  · intro k hnot
    refine hentry k _ ?_ (h.rest k hnot)
    rw [h.used_iff k]
    constructor
    · rintro (⟨a, ha⟩ | hmem)
      · exact absurd ha (hnot a)
      · obtain ⟨a, ha⟩ := hk k hmem
        exact absurd ha (hnot a)
    · rintro hs
      cases hs

end

/-! ## The NULL pointer -/

section
variable {s t : Sys} {c : ℕ}

theorem oops_goto {p : Pc} (ho : ∀ d, s.pc d ≠ .oops) (hp : p ≠ .oops)
    (ht : t.pc = Function.update s.pc c p) : ∀ d, t.pc d ≠ .oops := by
  intro d
  rw [ht, Function.update_apply]
  split_ifs
  · exact hp
  · exact ho d

theorem afterMalloc_oops (r : Request) (k : ℕ) : Sys.afterMalloc r k ≠ .oops := by
  unfold Sys.afterMalloc
  split_ifs <;> simp

theorem mallocNext_oops (r : Request) (k : ℕ) : mallocNext r k ≠ .oops := by
  unfold mallocNext
  split_ifs
  · simp
  · exact afterMalloc_oops r k

theorem queueStep_oops (k : ℕ) (ho : ∀ d, s.pc d ≠ .oops) : ∀ d, (s.queueStep c k).pc d ≠ .oops := by
  simp only [Sys.queueStep]
  split
  · exact oops_goto (p := .freeRet k) ho (by simp) rfl
  · exact oops_goto (p := .push k) ho (by simp) rfl
  · split_ifs
    · exact oops_goto (p := .wake) ho (by simp) rfl
    · exact oops_goto (p := .deferTest (decide (s.mgr.cmds = []))) ho (by simp) rfl

/-- Only a `rwnx_cmd_malloc` that fails leads to the NULL pointer. -/
theorem callStep_oops (h : s.callStep c = some t) (hk : s.pc c = .malloc → s.mgr.freeSlot ≠ none)
    (ho : ∀ d, s.pc d ≠ .oops) : ∀ d, t.pc d ≠ .oops := by
  unfold Sys.callStep at h
  cases hpc : s.pc c with
  | idle | returned | oops => simp [hpc] at h
  | malloc =>
    obtain ⟨k, hfree⟩ := Option.ne_none_iff_exists'.mp (hk hpc)
    simp only [hpc, hfree, Option.some.injEq] at h
    subst h
    exact oops_goto ho (mallocNext_oops (s.request c) k) rfl
  | queue k =>
    simp only [hpc, Option.some.injEq] at h
    subst h
    exact queueStep_oops k ho
  | waitEmpty k =>
    simp only [hpc] at h
    split_ifs at h <;> obtain rfl := Option.some.inj h
    · exact oops_goto ho (afterMalloc_oops (s.request c) k) rfl
    · exact ho
  | entry | testEmpty | deferTest =>
    simp only [hpc, Option.some.injEq] at h
    split_ifs at h <;> subst h
    · exact oops_goto (p := _) ho (by simp) rfl
    · exact oops_goto (p := _) ho (by simp) rfl
  | push k =>
    simp only [hpc] at h
    split_ifs at h <;> obtain rfl := Option.some.inj h
    · exact oops_goto (p := .returned 0) ho (by simp) rfl
    · exact oops_goto (p := .wait k) ho (by simp) rfl
  | wait k =>
    simp only [hpc] at h
    split_ifs at h
    obtain rfl := Option.some.inj h
    exact oops_goto (p := .freeCmd k) ho (by simp) rfl
  | sendNoCfm k =>
    simp only [hpc, Option.some.injEq] at h
    subst h
    exact oops_goto (p := .freeRet k) ho (by simp) rfl
  | freeCmd k =>
    simp only [hpc, Option.some.injEq] at h
    subst h
    exact oops_goto (p := .testEmpty) ho (by simp) rfl
  | timedOut | wake | freeRet =>
    simp only [hpc, Option.some.injEq] at h
    subst h
    exact oops_goto (p := .returned 0) ho (by simp) rfl

theorem workStep_pc (h : s.workStep = some t) : t.pc = s.pc := by
  unfold Sys.workStep at h
  cases hpc : s.worker with
  | idle => simp [hpc] at h
  | scan =>
    simp only [hpc] at h
    cases hl : s.mgr.cmds <;> (simp only [hl, Option.some.injEq] at h; subst h; rfl)
  | wait k =>
    simp only [hpc] at h
    split_ifs at h
    obtain rfl := Option.some.inj h
    rfl
  | clearFlag | push | timedOut | freeCmd =>
    simp only [hpc, Option.some.injEq] at h
    subst h
    rfl

theorem step_oops {a : Act} (h : step s a = some t) (ht : Tidy s a) (ho : ∀ d, s.pc d ≠ .oops) :
    ∀ d, t.pc d ≠ .oops := by
  cases a with
  | drain =>
    obtain rfl := Option.some.inj h
    exact ho
  | mgr a =>
    cases a with
    | start c r =>
      simp only [step, CommandMachine.step] at h
      split_ifs at h
      obtain rfl := Option.some.inj h
      exact oops_goto (p := .entry) ho (by simp) rfl
    | call c => exact callStep_oops h ht.1 ho
    | callTimeout c =>
      simp only [step, CommandMachine.step] at h
      split at h
      · split_ifs at h
        obtain rfl := Option.some.inj h
        exact oops_goto (p := .timedOut _) ho (by simp) rfl
      · cases h
    | work =>
      rw [workStep_pc h]
      exact ho
    | startWork =>
      simp only [step, CommandMachine.step] at h
      split_ifs at h
      obtain rfl := Option.some.inj h
      exact ho
    | workTimeout =>
      simp only [step, CommandMachine.step] at h
      split at h
      · split_ifs at h
        obtain rfl := Option.some.inj h
        exact ho
      · cases h
    | confirm c param =>
      simp only [step, CommandMachine.step] at h
      split_ifs at h
      obtain rfl := Option.some.inj h
      rwa [msgind_pc]
    | stray id param =>
      obtain rfl := Option.some.inj h
      rwa [msgind_pc]
    | busDown =>
      obtain rfl := Option.some.inj h
      exact ho

end

/-! ## A step -/

/-- All slots are accounted for, and no call has met the NULL pointer. -/
structure Sound (s : Sys) : Prop where
  kept : Kept s.mgr (view s)
  oops : ∀ c, s.pc c ≠ .oops

section
variable {s t : Sys}

theorem sound_conserved (h : Sound s) : Conserved s where
  used := h.kept.used_iff
  full := by
    intro hfull k hk
    have hused : (s.mgr.cmdArray k).used = true := by
      simpa using List.find?_eq_none.mp hfull k (List.mem_range.mpr hk)
    exact (h.kept.used_iff k).mp hused
  reported := h.oops

theorem kept_still (hpc : t.pc = s.pc) (hwork : t.worker = s.worker) (h : Kept t.mgr (view s)) :
    Kept t.mgr (view t) := by
  rwa [view_still hpc hwork]

theorem kept_call {c : ℕ} {p : Pc} (hpc : t.pc = Function.update s.pc c p) (hwork : t.worker = s.worker)
    (h : Kept t.mgr (Function.update (view s) (some c) (callStage p))) : Kept t.mgr (view t) := by
  rwa [view_call hpc hwork]

theorem kept_work {w : WorkPc} (hpc : t.pc = s.pc) (hwork : t.worker = w)
    (h : Kept t.mgr (Function.update (view s) none (workStage w))) : Kept t.mgr (view t) := by
  rwa [view_work hpc hwork]

theorem held_still {k : ℕ} (hpc : t.pc = s.pc) (hwork : t.worker = s.worker) (h : Held t k) :
    Held s k := by
  rwa [Held, ← view_still hpc hwork]

theorem msgind_kept (h : Kept s.mgr (view s)) (id : ℕ) (cause : Option ℕ) (param : List UInt8)
    (ht : ∀ k, s.mgr.findCmd id = some k → Held s k) :
    Kept (s.msgind id cause param).mgr (view (s.msgind id cause param)) := by
  rcases msgind_cases s id cause param with ⟨he, -⟩ | ⟨k, hk, he⟩ <;> rw [he]
  · exact h
  · obtain ⟨a, ha⟩ := ht k hk
    exact kept_still (s := s) rfl rfl (confirm_kept h (findCmd_mem hk) ha)

theorem step_kept {a : Act} (h : Kept s.mgr (view s)) (ht : Tidy s a) (hs : step s a = some t) :
    Kept t.mgr (view t) := by
  by_cases htake : Taking s a
  · cases a with
    | drain =>
      obtain rfl := Option.some.inj hs
      exact kept_still (s := s) rfl rfl (drain_kept h ht)
    | mgr a =>
      cases a with
      | call c =>
        obtain ⟨k, hk⟩ := htake
        have ha : view s (some c) = .waiting k := view_at hk
        simp only [step, CommandMachine.step, Sys.callStep, hk, Option.some.injEq] at hs
        subst hs
        exact kept_call (s := s) (p := .returned 0) rfl rfl (giveUp_kept h ha (ht.2 k hk))
      | work =>
        obtain ⟨k, hk⟩ := htake
        have ha : view s none = .waiting k := view_worker hk
        simp only [step, CommandMachine.step, Sys.workStep, hk, Option.some.injEq] at hs
        subst hs
        exact kept_work (s := s) (w := .scan) rfl rfl (giveUp_kept h ha (ht k hk))
      | confirm c param =>
        simp only [step, CommandMachine.step] at hs
        split_ifs at hs with hc
        obtain rfl := Option.some.inj hs
        exact msgind_kept (s := { s with sent := s.sent.erase c }) h _ _ _ (ht hc)
      | stray id param =>
        obtain rfl := Option.some.inj hs
        exact msgind_kept h id none param ht
      | start | callTimeout | startWork | workTimeout | busDown => exact htake.elim
  · exact shift_kept h (step_shift h.plain htake hs)

theorem step_sound {a : Act} (h : Sound s) (ht : Tidy s a) (hs : step s a = some t) : Sound t where
  kept := step_kept h.kept ht hs
  oops := step_oops hs ht h.oops

/-! ## The condition is forced -/

theorem Conserved.held {k : ℕ} (hc : Conserved t) (hused : (t.mgr.cmdArray k).used = true)
    (hmem : k ∉ t.mgr.cmds) : Held t k := ((hc.used k).mp hused).resolve_right hmem

theorem giveUp_forced {a : Option ℕ} {k : ℕ} (h : Kept s.mgr (view s)) (ha : view s a = .waiting k)
    (hm : t.mgr = s.mgr.timedOut k) (hv : view t = Function.update (view s) a .none)
    (hc : Conserved t) : LeftListed s.mgr k := by
  by_contra hleft
  obtain ⟨hused, hmem, hnot⟩ := giveUp_lost h ha hleft
  rw [← hm] at hused hmem
  obtain ⟨b, hb⟩ := hc.held hused hmem
  rw [hv] at hb
  exact hnot b hb

theorem msgind_forced (h : Kept s.mgr (view s)) (id : ℕ) (cause : Option ℕ) (param : List UInt8)
    (hc : Conserved (s.msgind id cause param)) {k : ℕ} (hk : s.mgr.findCmd id = some k) :
    Held s k := by
  rw [msgind_found hk] at hc
  obtain ⟨hused, hmem⟩ := confirm_lost h (findCmd_mem hk)
  have hheld := hc.held hused hmem
  exact held_still (s := s) rfl rfl hheld

theorem drain_forced (h : Kept s.mgr (view s)) (hc : Conserved (s.put (cmdMgrDrain s.mgr))) :
    ∀ k ∈ s.mgr.cmds, Held s k := by
  intro k hk
  have hused : ((cmdMgrDrain s.mgr).cmdArray k).used = true := by
    rw [drain_used h.plain]
    exact (h.listed hk).1
  have hmem : k ∉ (cmdMgrDrain s.mgr).cmds := by simp [drain_cmds h.plain]
  have hheld := hc.held hused hmem
  exact held_still (s := s) rfl rfl hheld

theorem tidy_of_conserved {a : Act} (h : Sound s) (hall : ∀ t ∈ step s a, Conserved t) :
    Tidy s a := by
  have hk := h.kept
  cases a with
  | drain => exact drain_forced hk (hall _ rfl)
  | mgr a =>
    cases a with
    | call c =>
      constructor
      · intro hpc hfull
        have hstep : step s (.mgr (.call c)) = some (s.goto c .oops) := by
          simp [step, CommandMachine.step, Sys.callStep, hpc, hfull]
        exact (hall _ hstep).reported c (by simp [Sys.goto])
      · intro k hpc
        have hstep : step s (.mgr (.call c)) = some ((s.giveUp k).ret c 0) := by
          simp [step, CommandMachine.step, Sys.callStep, hpc]
        exact giveUp_forced (t := (s.giveUp k).ret c 0) hk (view_at hpc) rfl
          (view_call (s := s) (p := .returned 0) rfl rfl) (hall _ hstep)
    | work =>
      intro k hpc
      have hstep : step s (.mgr .work) = some { s.giveUp k with worker := .scan } := by
        simp [step, CommandMachine.step, Sys.workStep, hpc]
      exact giveUp_forced (t := { s.giveUp k with worker := .scan }) hk (view_worker hpc) rfl
        (view_work (s := s) (w := .scan) rfl rfl) (hall _ hstep)
    | confirm c param =>
      intro hc k hfind
      have hstep : step s (.mgr (.confirm c param)) = some ({ s with
          sent := s.sent.erase c }.msgind (s.request c).reqid (some c) param) := by
        simp [step, CommandMachine.step, hc]
      exact msgind_forced (s := { s with sent := s.sent.erase c }) hk _ _ _ (hall _ hstep) hfind
    | stray id param =>
      intro k hfind
      exact msgind_forced hk id none param (hall _ rfl) hfind
    | start | callTimeout | startWork | workTimeout | busDown => trivial

end

theorem init_sound : Sound init where
  kept := by
    constructor
    · exact List.nodup_nil
    · intro c k
      rw [view_init]
      simp
    · intro a b k ha
      rw [view_init] at ha
      cases ha
    · intro a k ha
      rw [view_init] at ha
      cases ha
    · intro k _
      constructor <;> simp [init, initSlot, Stage.slot]
  oops := by simp [init]

/-- A call sends one command, which is never answered. -/
def silentRun : List Act :=
  .mgr (.start 0 ⟨0, 1, true, false, .sendMsg⟩) :: List.replicate 4 (.mgr (.call 0)) ++
    [.mgr (.callTimeout 0), .mgr (.call 0)]

def silentEnd : Sys := (exec step init silentRun).get (by decide +kernel)

theorem silent_unheld : ¬ Held silentEnd 0 := by
  rintro ⟨a, ha⟩
  have hslot : (view silentEnd a).slot = none := by
    cases a with
    | none => rfl
    | some c =>
      cases c with
      | zero => rfl
      | succ c => rfl
  rw [hslot] at ha
  cases ha

end AIC.CommandConserved
