import Aic8800.CommandMessages

/-!
# Who frees a message

A message is with its builder, with the call that sends it, or with a command
that waits for the work item, and whoever has it frees it or passes it on. The
way out of this is a request that wants no confirmation, a queue that refuses a
command, a command taken off the list before it was pushed, and an error exit of
a builder that only returns.
-/

set_option autoImplicit false

namespace AIC.CommandOwnership
open AIC.CommandMachine hiding step Act init
open AIC.CommandSlots AIC.CommandMoves AIC.CommandHolders Lib.GuardedRun
open AIC.CommandLedger (cmdMgrDrain)
open AIC.CommandMessages

/-- The call has its message, and has neither freed nor queued it. -/
def calls : Pc → Bool
  | .entry | .malloc | .waitEmpty _ | .queue _ | .sendNoCfm _ | .push _ => true
  | _ => false

/-- The work item will push the command in slot `k`. -/
def Queued (s : Sys) (k : ℕ) : Prop :=
  k ∈ s.mgr.cmds ∧ (s.mgr.cmdArray k).flags.waitPush = true ∨
    s.worker = .clearFlag k ∨ s.worker = .push k

def InHand (m : Machine) (c : ℕ) : Prop :=
  m.built c = true ∨ calls (m.sys.pc c) = true ∨ ∃ k, Queued m.sys k ∧ a2eMsg m.sys k = c

structure Owned (m : Machine) : Prop where
  /-- A message is in one party's hands, or has been freed once. -/
  once : ∀ c, m.allocated c = true →
    InHand m c ∧ m.freed c = 0 ∨ ¬ InHand m c ∧ m.freed c = 1
  live : m.late = false

/-- No command leaves the list that waits to be pushed, unless the work item has it already. -/
def Pushes (s : Sys) (k : ℕ) : Prop :=
  (s.mgr.cmdArray k).flags.waitPush = true → s.worker = .clearFlag k

/-- The call gets a command, wants it confirmed, and the queue takes it. -/
def Sends (s : Sys) (r : Request) : Pc → Prop
  | .malloc => s.mgr.freeSlot ≠ none ∧ r.reqcfm = true
  | .queue _ => accepted s
  | _ => True

def Disposes (m : Machine) : Act → Prop
  | .zalloc _ => True
  | .exit _ e => e.frees = true
  | .cmd (.mgr (.call c)) => Sends m.sys (m.sys.request c) (m.sys.pc c)
  | .cmd (.mgr (.confirm c _)) =>
    c ∈ m.sys.sent → ∀ k ∈ m.sys.mgr.findCmd (m.sys.request c).reqid, Pushes m.sys k
  | .cmd (.mgr (.stray id _)) => ∀ k ∈ m.sys.mgr.findCmd id, Pushes m.sys k
  | .cmd .drain => ∀ k ∈ m.sys.mgr.cmds, Pushes m.sys k
  | .cmd _ => True

instance (s : Sys) (k : ℕ) : Decidable (Pushes s k) := inferInstanceAs (Decidable (_ → _))

instance (s : Sys) (r : Request) (p : Pc) : Decidable (Sends s r p) := by
  cases p <;> unfold Sends <;> infer_instance

instance : ∀ (m : Machine) (a : Act), Decidable (Disposes m a)
  | _, .zalloc _ => inferInstanceAs (Decidable True)
  | _, .exit _ e => inferInstanceAs (Decidable (e.frees = true))
  | _, .cmd (.mgr (.call _)) => inferInstanceAs (Decidable (Sends _ _ _))
  | _, .cmd (.mgr (.confirm _ _)) => inferInstanceAs (Decidable (_ → _))
  | m, .cmd (.mgr (.stray id _)) => inferInstanceAs (Decidable (∀ k ∈ m.sys.mgr.findCmd id, _))
  | m, .cmd .drain => inferInstanceAs (Decidable (∀ k ∈ m.sys.mgr.cmds, _))
  | _, .cmd (.mgr (.start _ _)) | _, .cmd (.mgr (.callTimeout _)) | _, .cmd (.mgr .startWork)
  | _, .cmd (.mgr .work) | _, .cmd (.mgr .workTimeout) | _, .cmd (.mgr .busDown) =>
    inferInstanceAs (Decidable True)

/-! ## The book -/

inductive Spot where
  | unborn | builder | call | slot (k : ℕ) | gone
  deriving DecidableEq

instance (s : Sys) (k : ℕ) : Decidable (Queued s k) := inferInstanceAs (Decidable (_ ∨ _))

def carried (s : Sys) (k : ℕ) : Option ℕ := if Queued s k then some (a2eMsg s k) else none

/-- What a call knows of its command. -/
structure Own (s : Sys) : Prop where
  owner : ∀ c k, (callStage (s.pc c)).slot = some k → a2eMsg s k = c
  confirmed : ∀ c k, s.pc c = .waitEmpty k → (s.request c).reqcfm = true
  never : ∀ c k, s.pc c ≠ .sendNoCfm k

/-- One place for every message. -/
structure Book (m : Machine) (spot : ℕ → Spot) : Prop where
  fit : Fit m.sys.mgr (view m.sys)
  own : Own m.sys
  unborn : ∀ c, m.allocated c = true ↔ spot c ≠ .unborn
  builder : ∀ c, m.built c = true ↔ spot c = .builder
  call : ∀ c, calls (m.sys.pc c) = true ↔ spot c = .call
  slot : ∀ c k, carried m.sys k = some c ↔ spot c = .slot k
  gone : ∀ c, m.freed c = if spot c = .gone then 1 else 0
  live : m.late = false

theorem carried_some {s : Sys} {k c : ℕ} :
    carried s k = some c ↔ Queued s k ∧ a2eMsg s k = c := by
  unfold carried
  split_ifs with h <;> simp [h]

theorem Book.inHand {m : Machine} {spot : ℕ → Spot} (h : Book m spot) (c : ℕ) :
    InHand m c ↔ spot c = .builder ∨ spot c = .call ∨ ∃ k, spot c = .slot k := by
  simp only [InHand, h.builder, h.call, ← h.slot, carried_some]

theorem Book.owned {m : Machine} {spot : ℕ → Spot} (h : Book m spot) : Owned m where
  once := by
    intro c hc
    have hborn := (h.unborn c).mp hc
    rw [h.inHand, h.gone]
    cases hspot : spot c <;> simp_all
  live := h.live

/-! ## Steps that leave the messages where they are -/

section Steps
variable {m : Machine} {spot : ℕ → Spot} {t : Sys} {a : CommandLedger.Act} {c : ℕ}

theorem not_touched (h : Book m spot) (htouch : ∀ d ∈ touched m.sys a, spot d ≠ .gone) :
    (m.after a t).late = false := by
  simp only [Machine.after, h.live, Bool.false_or, List.any_eq_false, decide_eq_true_eq]
  intro d hd
  rw [h.gone, if_neg (htouch d hd)]
  exact Nat.lt_irrefl 0

theorem Book.rest (h : Book m spot) (hfit : Fit t.mgr (view t)) (hown : Own t)
    (hcall : ∀ d, calls (t.pc d) = calls (m.sys.pc d)) (hslot : ∀ k, carried t k = carried m.sys k)
    (hpassed : m.passed a = m.built) (hfree : freedBy m.sys a = [])
    (htouch : ∀ d ∈ touched m.sys a, spot d ≠ .gone) : Book (m.after a t) spot where
  fit := hfit
  own := hown
  unborn := h.unborn
  builder := by
    rw [show (m.after a t).built = m.built from hpassed]
    exact h.builder
  call d := by
    rw [show (m.after a t).sys = t from rfl, hcall]
    exact h.call d
  slot d k := by
    rw [show (m.after a t).sys = t from rfl, hslot]
    exact h.slot d k
  gone d := by
    simp only [Machine.after, hfree, List.count_nil, Nat.add_zero]
    exact h.gone d
  live := not_touched h htouch

/-- One message goes from its place to another. -/
theorem Book.move (h : Book m spot) {d : ℕ} {p : Spot} (hfit : Fit t.mgr (view t)) (hown : Own t)
    (hold : spot d ≠ .unborn) (hnew : p ≠ .unborn)
    (hcall : ∀ b, calls (t.pc b) = true ↔ Function.update spot d p b = .call)
    (hslot : ∀ b k, carried t k = some b ↔ Function.update spot d p b = .slot k)
    (hbuilder : ∀ b, m.passed a b = true ↔ Function.update spot d p b = .builder)
    (hgone : ∀ b, m.freed b+(freedBy m.sys a).count b =
      if Function.update spot d p b = .gone then 1 else 0)
    (htouch : ∀ b ∈ touched m.sys a, spot b ≠ .gone) :
    Book (m.after a t) (Function.update spot d p) where
  fit := hfit
  own := hown
  unborn b := by
    rw [show (m.after a t).allocated = m.allocated from rfl, h.unborn]
    by_cases hb : b = d
    · simp [hb, hold, hnew]
    · simp [hb]
  builder := hbuilder
  call := hcall
  slot := hslot
  gone := hgone
  live := not_touched h htouch

theorem carried_congr {s : Sys} {k : ℕ} (hqueue : Queued t k ↔ Queued s k)
    (hmsg : a2eMsg t k = a2eMsg s k) : carried t k = carried s k := by
  unfold carried
  rw [hmsg]
  exact if_congr hqueue rfl rfl

theorem carried_same {s : Sys} (hwork : t.worker = s.worker) (hmsg : ∀ k, a2eMsg t k = a2eMsg s k)
    (hqueue : ∀ k, k ∈ t.mgr.cmds ∧ (t.mgr.cmdArray k).flags.waitPush = true ↔
      k ∈ s.mgr.cmds ∧ (s.mgr.cmdArray k).flags.waitPush = true) (k : ℕ) :
    carried t k = carried s k := by
  apply carried_congr _ (hmsg k)
  rw [Queued, Queued, hwork, hqueue]

/-- The call goes on with what it has. -/
theorem Own.call {s : Sys} (h : Own s) {p : Pc} (hpc : t.pc = Function.update s.pc c p)
    (hreq : t.request = s.request) (hmsg : ∀ k, a2eMsg t k = a2eMsg s k)
    (hslot : (callStage p).slot = none ∨ (callStage p).slot = (callStage (s.pc c)).slot)
    (hp : ∀ k, p ≠ .waitEmpty k ∧ p ≠ .sendNoCfm k) : Own t := by
  constructor
  · intro d k hd
    rw [hpc] at hd
    rw [hmsg]
    by_cases hdc : d = c
    · subst hdc
      rw [Function.update_self] at hd
      rcases hslot with hn | hn
      · rw [hn] at hd
        cases hd
      · exact h.owner d k (hn ▸ hd)
    · rw [Function.update_of_ne hdc] at hd
      exact h.owner d k hd
  · intro d k hd
    rw [hpc] at hd
    rw [hreq]
    by_cases hdc : d = c
    · rw [hdc, Function.update_self] at hd
      exact absurd hd (hp k).1
    · rw [Function.update_of_ne hdc] at hd
      exact h.confirmed d k hd
  · intro d k hd
    rw [hpc] at hd
    by_cases hdc : d = c
    · rw [hdc, Function.update_self] at hd
      exact (hp k).2 hd
    · rw [Function.update_of_ne hdc] at hd
      exact h.never d k hd

theorem Own.still {s : Sys} (h : Own s) (hpc : t.pc = s.pc) (hreq : t.request = s.request)
    (hmsg : ∀ k, a2eMsg t k = a2eMsg s k) : Own t where
  owner d k hd := by
    rw [hpc] at hd
    rw [hmsg]
    exact h.owner d k hd
  confirmed d k hd := by
    rw [hpc] at hd
    rw [hreq]
    exact h.confirmed d k hd
  never d k := by
    rw [hpc]
    exact h.never d k

theorem calls_update {s : Sys} {p : Pc} (hpc : t.pc = Function.update s.pc c p)
    (hcall : calls p = calls (s.pc c)) (d : ℕ) : calls (t.pc d) = calls (s.pc d) := by
  rw [hpc]
  by_cases hd : d = c
  · rw [hd, Function.update_self, hcall]
  · rw [Function.update_of_ne hd]

/-- A step of a call that keeps its message where it is. -/
theorem call_rest (h : Book m spot) (hfit : Fit t.mgr (view t)) {p : Pc}
    (hpc : t.pc = Function.update m.sys.pc c p) (hwork : t.worker = m.sys.worker)
    (hreq : t.request = m.sys.request) (hcall : calls p = calls (m.sys.pc c))
    (hmsg : ∀ k, a2eMsg t k = a2eMsg m.sys k)
    (hqueue : ∀ k, k ∈ t.mgr.cmds ∧ (t.mgr.cmdArray k).flags.waitPush = true ↔
      k ∈ m.sys.mgr.cmds ∧ (m.sys.mgr.cmdArray k).flags.waitPush = true)
    (hslot : (callStage p).slot = none ∨ (callStage p).slot = (callStage (m.sys.pc c)).slot)
    (hp : ∀ k, p ≠ .waitEmpty k ∧ p ≠ .sendNoCfm k)
    (hfree : freedBy m.sys (.mgr (.call c)) = [])
    (htouch : ∀ d ∈ touched m.sys (.mgr (.call c)), spot d ≠ .gone) :
    Book (m.after (.mgr (.call c)) t) spot :=
  h.rest hfit (h.own.call hpc hreq hmsg hslot hp) (calls_update hpc hcall)
    (carried_same hwork hmsg hqueue) rfl hfree htouch

theorem modify_msg {s : Sys} (k : ℕ) {f : RwnxCmd → RwnxCmd} (hf : ∀ cmd, (f cmd).owner = cmd.owner)
    (j : ℕ) : ((s.mgr.modify k f).cmdArray j).owner = a2eMsg s j := by
  by_cases hj : j = k
  · simp [a2eMsg, CmdMgr.modify, hj, hf]
  · simp [a2eMsg, CmdMgr.modify, hj]

theorem modify_queue {s : Sys} (k : ℕ) {f : RwnxCmd → RwnxCmd}
    (hf : ∀ cmd, (f cmd).flags.waitPush = cmd.flags.waitPush) (j : ℕ) :
    ((s.mgr.modify k f).cmdArray j).flags.waitPush = (s.mgr.cmdArray j).flags.waitPush := by
  by_cases hj : j = k
  · simp [CmdMgr.modify, hj, hf]
  · simp [CmdMgr.modify, hj]

/-- The call changes its slot, but not what is queued there. -/
theorem call_modify (h : Book m spot) (hfit : Fit t.mgr (view t)) {p : Pc} {k : ℕ}
    {f : RwnxCmd → RwnxCmd} (hpc : t.pc = Function.update m.sys.pc c p)
    (hwork : t.worker = m.sys.worker) (hreq : t.request = m.sys.request)
    (hmgr : t.mgr = m.sys.mgr.modify k f) (howner : ∀ cmd, (f cmd).owner = cmd.owner)
    (hpush : ∀ cmd, (f cmd).flags.waitPush = cmd.flags.waitPush)
    (hcall : calls p = calls (m.sys.pc c))
    (hslot : (callStage p).slot = none ∨ (callStage p).slot = (callStage (m.sys.pc c)).slot)
    (hp : ∀ k, p ≠ .waitEmpty k ∧ p ≠ .sendNoCfm k)
    (hfree : freedBy m.sys (.mgr (.call c)) = [])
    (htouch : ∀ d ∈ touched m.sys (.mgr (.call c)), spot d ≠ .gone) :
    Book (m.after (.mgr (.call c)) t) spot := by
  apply call_rest h hfit hpc hwork hreq hcall _ _ hslot hp hfree htouch
  · intro j
    rw [a2eMsg, hmgr]
    exact modify_msg k howner j
  · intro j
    rw [hmgr, modify_queue k hpush, modify_cmds]

/-- The message of a call that is about to free or queue it. -/
theorem Book.calling (h : Book m spot) (hc : calls (m.sys.pc c) = true) : spot c = .call :=
  (h.call c).mp hc

theorem call_owner (h : Book m spot) {p : Pc} {k : ℕ} (hpc : m.sys.pc c = p)
    (hk : (callStage p).slot = some k) : a2eMsg m.sys k = c := h.own.owner c k (hpc ▸ hk)

/-- The call gives its message away. -/
theorem call_gives (h : Book m spot) (hc : calls (m.sys.pc c) = true) {p : Pc}
    (hpc : t.pc = Function.update m.sys.pc c p) (hcall : calls p = false) {q : Spot}
    (hq : q ≠ .call) (d : ℕ) : calls (t.pc d) = true ↔ Function.update spot c q d = .call := by
  rw [hpc]
  by_cases hd : d = c
  · subst hd
    simp [hcall, hq]
  · rw [Function.update_of_ne hd, Function.update_of_ne hd]
    exact h.call d

theorem passed_call (h : Book m spot) (hc : spot c = .call) {q : Spot} (hq : q ≠ .builder) (d : ℕ) :
    m.built d = true ↔ Function.update spot c q d = .builder := by
  rw [h.builder]
  by_cases hd : d = c
  · subst hd
    simp [hc, hq]
  · rw [Function.update_of_ne hd]

/-- The slots keep their messages while one that is in none of them is freed. -/
theorem slots_rest (h : Book m spot) {d : ℕ} (hd : ∀ k, spot d ≠ .slot k)
    (hslot : ∀ k, carried t k = carried m.sys k) (b k : ℕ) :
    carried t k = some b ↔ Function.update spot d .gone b = .slot k := by
  rw [hslot, h.slot]
  by_cases hb : b = d
  · subst hb
    simp [hd]
  · rw [Function.update_of_ne hb]

theorem freed_one (h : Book m spot) {d : ℕ} (hd : spot d ≠ .gone) (b : ℕ) :
    m.freed b+[d].count b = if Function.update spot d .gone b = .gone then 1 else 0 := by
  rw [h.gone]
  by_cases hb : b = d
  · subst hb
    simp [hd]
  · simp [hb, Ne.symm hb]

/-- The call frees its message and goes on. -/
theorem call_frees (h : Book m spot) (hfit : Fit t.mgr (view t)) (hc : calls (m.sys.pc c) = true)
    {p : Pc} (hpc : t.pc = Function.update m.sys.pc c p) (hwork : t.worker = m.sys.worker)
    (hreq : t.request = m.sys.request) (hcall : calls p = false) (hmgr : t.mgr = m.sys.mgr)
    (hslot : (callStage p).slot = none ∨ (callStage p).slot = (callStage (m.sys.pc c)).slot)
    (hp : ∀ k, p ≠ .waitEmpty k ∧ p ≠ .sendNoCfm k)
    (hfree : freedBy m.sys (.mgr (.call c)) = [c])
    (htouch : ∀ d ∈ touched m.sys (.mgr (.call c)), d = c) :
    Book (m.after (.mgr (.call c)) t) (Function.update spot c .gone) := by
  have hspot := h.calling hc
  have hmsg : ∀ k, a2eMsg t k = a2eMsg m.sys k := fun k => by rw [a2eMsg, hmgr, a2eMsg]
  apply h.move hfit (h.own.call hpc hreq hmsg hslot hp)
  · simp [hspot]
  · simp
  · exact call_gives h hc hpc hcall (by simp)
  · exact slots_rest h (by simp [hspot]) (carried_same hwork hmsg fun k => by rw [hmgr])
  · exact passed_call h hspot (by simp)
  · rw [hfree]
    exact freed_one h (by simp [hspot])
  · intro d hd
    rw [htouch d hd, hspot]
    simp

theorem queueStep_accepted {s : Sys} (h : accepted s) (k : ℕ) :
    (∃ p, (p = .wake ∨ p = .deferTest (decide (s.mgr.cmds = []))) ∧ s.queueStep c k =
      ((s.put (s.mgr.enqueue k true)).goto c p).note (.appended c)) ∨
    s.queueStep c k = ((s.put (s.mgr.enqueue k false)).goto c (.push k)).note (.appended c) := by
  obtain ⟨hstate, hroom⟩ := h
  by_cases hforce : (s.request c).via = .sendMsg1 true
  · refine Or.inl ⟨.wake, Or.inl rfl, ?_⟩
    simp [Sys.queueStep, hforce, CmdMgr.cmdMgrQueueForceDefer, hstate, hroom]
  · by_cases hdefer : (s.mgr.lastBusy || CmdMgr.alwaysDeferred (s.mgr.cmdArray k).id) = true
    · refine Or.inl ⟨_, Or.inr rfl, ?_⟩
      simp [Sys.queueStep, hforce, CmdMgr.cmdMgrQueue, hstate, hroom, hdefer]
    · right
      simp [Sys.queueStep, hforce, CmdMgr.cmdMgrQueue, hstate, hroom, hdefer]

theorem enqueue_msg {s : Sys} (k : ℕ) (d : Bool) (j : ℕ) :
    ((s.mgr.enqueue k d).cmdArray j).owner = a2eMsg s j := by
  by_cases hj : j = k
  · simp [CmdMgr.enqueue, CmdMgr.modify, a2eMsg, hj]
  · simp [CmdMgr.enqueue, CmdMgr.modify, a2eMsg, hj]

theorem enqueue_other {s : Sys} {k : ℕ} (d : Bool) {j : ℕ} (hj : j ≠ k) :
    (s.mgr.enqueue k d).cmdArray j = s.mgr.cmdArray j ∧
      (j ∈ (s.mgr.enqueue k d).cmds ↔ j ∈ s.mgr.cmds) := by
  simp [CmdMgr.enqueue, CmdMgr.modify, hj]

/-- The queue takes the command: the call pushes it, or leaves it to the work item. -/
theorem queue_book (h : Book m spot) {k : ℕ} (hpc : m.sys.pc c = .queue k) (ha : accepted m.sys)
    (ht : m.sys.queueStep c k = t) (hfit : Fit t.mgr (view t)) :
    ∃ spot', Book (m.after (.mgr (.call c)) t) spot' := by
  have hmsg := call_owner h hpc rfl
  have hspot : spot c = .call := h.calling (by rw [hpc]; rfl)
  have hold := h.fit.at (view_at hpc) rfl
  have hmem : k ∉ m.sys.mgr.cmds := hold.unlisted (Or.inl rfl)
  have hfree : freedBy m.sys (.mgr (.call c)) = [] := by simp [freedBy, hpc]
  have htouch : ∀ d ∈ touched m.sys (.mgr (.call c)), spot d ≠ .gone := by
    intro d hd
    simp only [touched, hpc] at hd
    split_ifs at hd
    · cases hd
    · rw [List.mem_singleton.mp hd, hmsg, hspot]
      simp
  have hcarried : carried m.sys k = none := by
    apply if_neg
    rintro (⟨hin, -⟩ | hwork | hwork)
    · exact hmem hin
    · cases h.fit.sole none (some c) k (by rw [view_worker hwork]; rfl) (by rw [view_at hpc]; rfl)
    · cases h.fit.sole none (some c) k (by rw [view_worker hwork]; rfl) (by rw [view_at hpc]; rfl)
  rcases queueStep_accepted ha k with ⟨p, hp, he⟩ | he
  · obtain rfl := he.symm.trans ht
    have hcall : calls p = false := by rcases hp with rfl | rfl <;> rfl
    have hstage : callStage p = .none := by rcases hp with rfl | rfl <;> rfl
    refine ⟨_, h.move (d := c) (p := .slot k) hfit ?_ (by simp [hspot]) (by simp) ?_ ?_ ?_ ?_ htouch⟩
    · refine h.own.call (p := p) rfl rfl (enqueue_msg k true) (Or.inl (by rw [hstage]; rfl)) ?_
      rcases hp with rfl | rfl <;> simp
    · exact call_gives h (by rw [hpc]; rfl) rfl hcall (by simp)
    · intro b j
      by_cases hj : j = k
      · subst hj
        have hnew : carried (((m.sys.put (m.sys.mgr.enqueue j true)).goto c p).note (.appended c)) j =
            some c := by
          rw [carried_some]
          refine ⟨Or.inl ⟨?_, ?_⟩, (enqueue_msg j true j).trans hmsg⟩
          · simp [Sys.note, Sys.goto, Sys.put, CmdMgr.enqueue]
          · simp [Sys.note, Sys.goto, Sys.put, CmdMgr.enqueue]
        rw [hnew]
        by_cases hb : b = c
        · simp [hb]
        · rw [Function.update_of_ne hb, ← h.slot, hcarried]
          simp [Ne.symm hb]
      · obtain ⟨hcmd, hin⟩ := enqueue_other (s := m.sys) true hj
        have hsame : carried (((m.sys.put (m.sys.mgr.enqueue k true)).goto c p).note (.appended c)) j =
            carried m.sys j := by
          apply carried_congr
          · simp only [Queued, Sys.note, Sys.goto, Sys.put, hcmd, hin]
          · exact enqueue_msg k true j
        rw [hsame, h.slot]
        by_cases hb : b = c
        · simp [hb, hspot, Ne.symm hj]
        · rw [Function.update_of_ne hb]
    · exact passed_call h hspot (by simp)
    · intro b
      rw [hfree, List.count_nil, Nat.add_zero, h.gone]
      by_cases hb : b = c
      · simp [hb, hspot]
      · rw [Function.update_of_ne hb]
  · obtain rfl := he.symm.trans ht
    refine ⟨spot, call_rest h hfit (p := .push k) rfl rfl rfl (by rw [hpc]; rfl)
      (enqueue_msg k false) ?_ (Or.inr (by rw [hpc]; rfl)) (by simp) hfree htouch⟩
    intro j
    by_cases hj : j = k
    · subst hj
      have hpush : (m.sys.mgr.cmdArray j).flags.waitPush = false := hold.pushed (by simp [callStage])
      simp [Sys.note, Sys.goto, Sys.put, CmdMgr.enqueue, hpush, hmem]
    · obtain ⟨hcmd, hin⟩ := enqueue_other (s := m.sys) false hj
      simp only [Sys.note, Sys.goto, Sys.put, hcmd, hin]

/-- The call writes its message into a free slot. -/
theorem malloc_book (h : Book m spot) {k : ℕ} (hpc : m.sys.pc c = .malloc)
    (hk : m.sys.mgr.freeSlot = some k) (hreq : (m.sys.request c).reqcfm = true)
    (ht : (m.sys.put (m.sys.mgr.modify k (Sys.initCmd (m.sys.request c) c))).goto c
      (mallocNext (m.sys.request c) k) = t) (hfit : Fit t.mgr (view t)) :
    Book (m.after (.mgr (.call c)) t) spot := by
  have hunused := freeSlot_unused hk
  have hnot : ∀ b, (view m.sys b).slot ≠ some k := by
    intro b hb
    have hused := (h.fit.held b k hb).used
    rw [hunused] at hused
    cases hused
  have hmem : k ∉ m.sys.mgr.cmds := by
    intro hin
    have hused := ((h.fit.slot k).listed hin).1
    rw [hunused] at hused
    cases hused
  have hother : ∀ j, j ≠ k →
      (m.sys.mgr.modify k (Sys.initCmd (m.sys.request c) c)).cmdArray j = m.sys.mgr.cmdArray j :=
    fun j hj => (keeps_modify _ hj).cmd
  have hnext : mallocNext (m.sys.request c) k = .waitEmpty k ∨
      mallocNext (m.sys.request c) k = .queue k := by
    unfold mallocNext
    split_ifs
    · exact Or.inl rfl
    · simp [Sys.afterMalloc, hreq]
  obtain rfl := ht
  apply h.rest hfit
  · constructor
    · intro d j hd
      by_cases hdc : d = c
      · subst hdc
        have hj : j = k := by
          rcases hnext with hp | hp <;>
            simpa [Sys.goto, Sys.put, hp, callStage, Stage.slot, eq_comm] using hd
        simp [hj, a2eMsg, Sys.goto, Sys.put, Sys.initCmd]
      · have hd' : (callStage (m.sys.pc d)).slot = some j := by
          simpa [Sys.goto, Sys.put, hdc] using hd
        have hj : j ≠ k := fun hj => hnot (some d) (hj ▸ hd')
        simpa [a2eMsg, Sys.goto, Sys.put, hother j hj] using h.own.owner d j hd'
    · intro d j hd
      by_cases hdc : d = c
      · rw [hdc]
        exact hreq
      · exact h.own.confirmed d j (by simpa [Sys.goto, Sys.put, hdc] using hd)
    · intro d j hd
      by_cases hdc : d = c
      · subst hdc
        rcases hnext with hp | hp <;> simp [Sys.goto, Sys.put, hp] at hd
      · exact h.own.never d j (by simpa [Sys.goto, Sys.put, hdc] using hd)
  · apply calls_update (c := c) (p := mallocNext (m.sys.request c) k) rfl
    rw [hpc]
    rcases hnext with hp | hp <;> rw [hp] <;> rfl
  · intro j
    by_cases hj : j = k
    · subst hj
      have hwork : m.sys.worker ≠ .clearFlag j ∧ m.sys.worker ≠ .push j := by
        constructor
        · exact fun hw => hnot none (by rw [view_worker hw]; rfl)
        · exact fun hw => hnot none (by rw [view_worker hw]; rfl)
      simp [carried, Queued, Sys.goto, Sys.put, hmem, hwork]
    · apply carried_congr
      · simp only [Queued, Sys.goto, Sys.put, hother j hj, modify_cmds]
      · simp only [a2eMsg, Sys.goto, Sys.put, hother j hj]
  · rfl
  · simp [freedBy, hpc]
  · intro d hd
    simp only [touched, hpc, List.mem_singleton] at hd
    rw [hd, h.calling (by rw [hpc]; rfl)]
    simp

/-- A command that a party has pushed does not wait for it. -/
theorem waiting_pushed (h : Book m spot) {b : Option ℕ} {k : ℕ} (hb : view m.sys b = .waiting k) :
    (m.sys.mgr.cmdArray k).flags.waitPush = false := by
  have hslot : (view m.sys b).slot = some k := by rw [hb]; rfl
  exact (h.fit.held b k hslot).pushed (by simp [hb])

/-- What a time-out takes off the list has been pushed. -/
theorem timedOut_msg (h : Book m spot) {b : Option ℕ} {k : ℕ} (hb : view m.sys b = .waiting k)
    (j : ℕ) : ((m.sys.mgr.timedOut k).cmdArray j).owner = a2eMsg m.sys j ∧
      (j ∈ (m.sys.mgr.timedOut k).cmds ∧
        ((m.sys.mgr.timedOut k).cmdArray j).flags.waitPush = true ↔
        j ∈ m.sys.mgr.cmds ∧ (m.sys.mgr.cmdArray j).flags.waitPush = true) := by
  rcases timedOut_cases h.fit.plain k with he | ⟨cmd, ht, -, -, hpush, howner⟩
  · rw [he]
    exact ⟨rfl, Iff.rfl⟩
  · by_cases hj : j = k
    · subst hj
      rw [ht.self, howner, hpush, waiting_pushed h hb]
      exact ⟨rfl, by simp⟩
    · rw [ht.others j hj, (ht.keeps hj).mem]
      exact ⟨rfl, Iff.rfl⟩

theorem call_book (h : Book m spot) (hd : Disposes m (.cmd (.mgr (.call c))))
    (ht : m.sys.callStep c = some t) (hfit : Fit t.mgr (view t)) :
    ∃ spot', Book (m.after (.mgr (.call c)) t) spot' := by
  unfold Sys.callStep at ht
  cases hpc : m.sys.pc c with
  | idle | returned | oops => simp [hpc] at ht
  | entry =>
    simp only [hpc, Option.some.injEq] at ht
    split_ifs at ht with hdown <;> subst ht
    · refine ⟨_, call_frees h hfit (p := .returned 0) (by rw [hpc]; rfl) rfl rfl rfl rfl rfl
        (Or.inl rfl) (by simp) ?_ ?_⟩
      · simp [freedBy, hpc, hdown]
      · simp [touched, hpc]
    · exact ⟨spot, call_rest h hfit (p := .malloc) rfl rfl rfl (by rw [hpc]; rfl) (fun _ => rfl)
        (fun _ => Iff.rfl) (Or.inl rfl) (by simp) (by simp [freedBy, hpc, hdown])
        (by simp [touched, hpc])⟩
  | malloc =>
    obtain ⟨hslot, hreq⟩ : m.sys.mgr.freeSlot ≠ none ∧ (m.sys.request c).reqcfm = true := by
      simpa only [Disposes, hpc, Sends] using hd
    obtain ⟨k, hk⟩ := Option.ne_none_iff_exists'.mp hslot
    simp only [hpc, hk, Option.some.injEq] at ht
    exact ⟨spot, malloc_book h hpc hk hreq ht hfit⟩
  | waitEmpty k =>
    have hafter : Sys.afterMalloc (m.sys.request c) k = .queue k := by
      simp [Sys.afterMalloc, h.own.confirmed c k hpc]
    simp only [hpc] at ht
    split_ifs at ht with he <;> obtain rfl := Option.some.inj ht
    · exact ⟨spot, call_rest h hfit (p := .queue k) (by rw [hafter]; rfl) rfl rfl (by rw [hpc]; rfl)
        (fun _ => rfl) (fun _ => Iff.rfl) (Or.inr (by rw [hpc]; rfl)) (by simp)
        (by simp [freedBy, hpc]) (by simp [touched, hpc])⟩
    · exact ⟨spot, h.rest hfit h.own (fun _ => rfl) (fun _ => rfl) rfl (by simp [freedBy, hpc])
        (by simp [touched, hpc])⟩
  | queue k =>
    simp only [hpc, Option.some.injEq] at ht
    exact queue_book h hpc (by simpa only [Disposes, hpc, Sends] using hd) ht hfit
  | sendNoCfm k => exact absurd hpc (h.own.never c k)
  | push k =>
    have hmsg := call_owner h hpc rfl
    simp only [hpc, (h.fit.plain k).1, Bool.false_eq_true, if_false, Option.some.injEq] at ht
    subst ht
    exact ⟨_, call_frees h hfit (p := .wait k) (by rw [hpc]; rfl) rfl rfl rfl rfl rfl
      (Or.inr (by rw [hpc]; rfl)) (by simp) (by simp [freedBy, hpc, hmsg])
      (by simp [touched, hpc, hmsg])⟩
  | wait k =>
    simp only [hpc] at ht
    split_ifs at ht with hc
    obtain rfl := Option.some.inj ht
    exact ⟨spot, call_modify h hfit (p := .freeCmd k) (k := k)
      (f := fun cmd => { cmd with complete := cmd.complete-1 }) rfl rfl rfl rfl (fun _ => rfl)
      (fun _ => rfl) (by rw [hpc]; rfl) (Or.inr (by rw [hpc]; rfl)) (by simp)
      (by simp [freedBy, hpc]) (by simp [touched, hpc])⟩
  | timedOut k =>
    simp only [hpc, Option.some.injEq] at ht
    subst ht
    have hgive := timedOut_msg h (b := some c) (k := k) (by rw [view_at hpc]; rfl)
    exact ⟨spot, call_rest h hfit (p := .returned 0) rfl rfl rfl (by rw [hpc]; rfl)
      (fun j => (hgive j).1) (fun j => (hgive j).2) (Or.inl rfl) (by simp)
      (by simp [freedBy, hpc]) (by simp [touched, hpc])⟩
  | freeCmd k =>
    simp only [hpc, Option.some.injEq] at ht
    subst ht
    exact ⟨spot, call_modify h hfit (p := .testEmpty) (k := k)
      (f := fun cmd => { cmd with used := false }) rfl rfl rfl rfl (fun _ => rfl)
      (fun _ => rfl) (by rw [hpc]; rfl) (Or.inl rfl) (by simp) (by simp [freedBy, hpc])
      (by simp [touched, hpc])⟩
  | testEmpty =>
    simp only [hpc, Option.some.injEq] at ht
    split_ifs at ht <;> subst ht
    · exact ⟨spot, call_rest h hfit (p := .returned 0) rfl rfl rfl (by rw [hpc]; rfl) (fun _ => rfl)
        (fun _ => Iff.rfl) (Or.inl rfl) (by simp) (by simp [freedBy, hpc]) (by simp [touched, hpc])⟩
    · exact ⟨spot, call_rest h hfit (p := .wake) rfl rfl rfl (by rw [hpc]; rfl) (fun _ => rfl)
        (fun _ => Iff.rfl) (Or.inl rfl) (by simp) (by simp [freedBy, hpc]) (by simp [touched, hpc])⟩
  | deferTest first =>
    simp only [hpc, Option.some.injEq] at ht
    split_ifs at ht <;> subst ht
    · exact ⟨spot, call_rest h hfit (p := .wake) rfl rfl rfl (by rw [hpc]; rfl) (fun _ => rfl)
        (fun _ => Iff.rfl) (Or.inl rfl) (by simp) (by simp [freedBy, hpc]) (by simp [touched, hpc])⟩
    · exact ⟨spot, call_rest h hfit (p := .returned 0) rfl rfl rfl (by rw [hpc]; rfl) (fun _ => rfl)
        (fun _ => Iff.rfl) (Or.inl rfl) (by simp) (by simp [freedBy, hpc]) (by simp [touched, hpc])⟩
  | wake =>
    simp only [hpc, Option.some.injEq] at ht
    subst ht
    exact ⟨spot, call_rest h hfit (p := .returned 0) rfl rfl rfl (by rw [hpc]; rfl) (fun _ => rfl)
      (fun _ => Iff.rfl) (Or.inl rfl) (by simp) (by simp [freedBy, hpc]) (by simp [touched, hpc])⟩
  | freeRet k =>
    simp only [hpc, Option.some.injEq] at ht
    subst ht
    exact ⟨spot, call_modify h hfit (p := .returned 0) (k := k)
      (f := fun cmd => { cmd with used := false }) rfl rfl rfl rfl (fun _ => rfl)
      (fun _ => rfl) (by rw [hpc]; rfl) (Or.inl rfl) (by simp) (by simp [freedBy, hpc])
      (by simp [touched, hpc])⟩

/-- A step of the work item that pushes nothing. -/
theorem work_rest (h : Book m spot) (hfit : Fit t.mgr (view t)) {a : CommandLedger.Act}
    (hpc : t.pc = m.sys.pc) (hreq : t.request = m.sys.request)
    (hmsg : ∀ k, a2eMsg t k = a2eMsg m.sys k) (hqueue : ∀ k, Queued t k ↔ Queued m.sys k)
    (hpassed : m.passed a = m.built) (hfree : freedBy m.sys a = []) (htouch : touched m.sys a = []) :
    Book (m.after a t) spot := by
  apply h.rest hfit (h.own.still hpc hreq hmsg) _ _ hpassed hfree
  · rw [htouch]
    simp
  · intro d
    rw [hpc]
  · exact fun k => carried_congr (hqueue k) (hmsg k)

theorem work_book (h : Book m spot) (ht : m.sys.workStep = some t) (hfit : Fit t.mgr (view t)) :
    ∃ spot', Book (m.after (.mgr .work) t) spot' := by
  unfold Sys.workStep at ht
  cases hw : m.sys.worker with
  | idle => simp [hw] at ht
  | scan =>
    simp only [hw] at ht
    cases hl : m.sys.mgr.cmds with
    | nil =>
      simp only [hl, Option.some.injEq] at ht
      subst ht
      exact ⟨spot, work_rest h hfit rfl rfl (fun _ => rfl) (fun k => by simp [Queued, hw]) rfl
        (by simp [freedBy, hw]) (by simp [touched, hw])⟩
    | cons k ks =>
      simp only [hl, Option.some.injEq] at ht
      subst ht
      refine ⟨spot, work_rest h hfit rfl rfl (fun _ => rfl) (fun j => ?_) rfl
        (by simp [freedBy, hw]) (by simp [touched, hw])⟩
      cases hp : (m.sys.mgr.cmdArray k).flags.waitPush with
      | false => simp [Queued, hw]
      | true =>
        by_cases hj : j = k
        · simp [Queued, hw, hl, hp, hj]
        · simp [Queued, hw, Ne.symm hj]
  | clearFlag k =>
    simp only [hw, Option.some.injEq] at ht
    subst ht
    refine ⟨spot, work_rest h hfit rfl rfl ?_ ?_ rfl (by simp [freedBy, hw]) (by simp [touched, hw])⟩
    · intro j
      by_cases hj : j = k
      · simp [a2eMsg, Sys.put, CmdMgr.setFlags, CmdMgr.modify, hj]
      · simp [a2eMsg, Sys.put, CmdMgr.setFlags, CmdMgr.modify, hj]
    · intro j
      by_cases hj : j = k
      · simp [Queued, hw, hj]
      · have hcmd : (m.sys.mgr.setFlags k fun f => { f with waitPush := false }).cmdArray j =
            m.sys.mgr.cmdArray j := (keeps_setFlags _ hj).cmd
        have hmem : j ∈ (m.sys.mgr.setFlags k fun f => { f with waitPush := false }).cmds ↔
            j ∈ m.sys.mgr.cmds := Iff.rfl
        simp [Queued, hw, Sys.put, hcmd, hmem, Ne.symm hj]
  | push k =>
    simp only [hw, Option.some.injEq] at ht
    subst ht
    have hcarried : carried m.sys k = some (a2eMsg m.sys k) := by
      rw [carried_some]
      exact ⟨Or.inr (Or.inr hw), rfl⟩
    have hspot := (h.slot _ _).mp hcarried
    have hpush : (m.sys.mgr.cmdArray k).flags.waitPush = false := by
      have hheld := h.fit.held none k (by rw [view_worker hw]; rfl)
      exact hheld.pushed (by rw [view_worker hw]; simp [workStage])
    refine ⟨_, h.move (d := a2eMsg m.sys k) (p := .gone) hfit (h.own.still rfl rfl fun _ => rfl)
      (by simp [hspot]) (by simp) ?_ ?_ ?_ ?_ ?_⟩
    · intro b
      have hcall : calls (({ m.sys.send k with worker := .wait k } : Sys).pc b) = true ↔
          spot b = .call := h.call b
      rw [hcall]
      by_cases hb : b = a2eMsg m.sys k
      · subst hb
        simp [hspot]
      · rw [Function.update_of_ne hb]
    · intro b j
      by_cases hj : j = k
      · subst hj
        have hnone : carried { m.sys.send j with worker := .wait j } j = none := by
          simp [carried, Queued, Sys.send, Sys.note, hpush]
        rw [hnone]
        by_cases hb : b = a2eMsg m.sys j
        · subst hb
          simp
        · rw [Function.update_of_ne hb, ← h.slot, hcarried]
          simp [Ne.symm hb]
      · have hsame : carried { m.sys.send k with worker := .wait k } j = carried m.sys j := by
          apply carried_congr
          · simp [Queued, Sys.send, Sys.note, hw, Ne.symm hj]
          · rfl
        rw [hsame, h.slot]
        by_cases hb : b = a2eMsg m.sys k
        · subst hb
          simp [hspot, Ne.symm hj]
        · rw [Function.update_of_ne hb]
    · intro b
      rw [show m.passed (.mgr .work) = m.built from rfl, h.builder]
      by_cases hb : b = a2eMsg m.sys k
      · subst hb
        simp [hspot]
      · rw [Function.update_of_ne hb]
    · simp only [freedBy, hw]
      exact freed_one h (by simp [hspot])
    · simp [touched, hw, hspot]
  | wait k =>
    simp only [hw] at ht
    split_ifs at ht with hc
    obtain rfl := Option.some.inj ht
    have hqueue := modify_queue (s := m.sys) k
      (f := fun cmd => { cmd with complete := cmd.complete-1 }) fun _ => rfl
    exact ⟨spot, work_rest h hfit rfl rfl
      (modify_msg k (f := fun cmd => { cmd with complete := cmd.complete-1 }) fun _ => rfl)
      (fun j => by simp [Queued, hw, Sys.put, hqueue]) rfl (by simp [freedBy, hw])
      (by simp [touched, hw])⟩
  | timedOut k =>
    simp only [hw, Option.some.injEq] at ht
    subst ht
    have hgive := timedOut_msg h (b := none) (k := k) (by rw [view_worker hw]; rfl)
    refine ⟨spot, work_rest h hfit rfl rfl (fun j => (hgive j).1) (fun j => ?_) rfl
      (by simp [freedBy, hw]) (by simp [touched, hw])⟩
    simp [Queued, hw, Sys.giveUp, (hgive j).2]
  | freeCmd k =>
    simp only [hw, Option.some.injEq] at ht
    subst ht
    have hqueue := modify_queue (s := m.sys) k (f := fun cmd => { cmd with used := false })
      fun _ => rfl
    exact ⟨spot, work_rest h hfit rfl rfl
      (modify_msg k (f := fun cmd => { cmd with used := false }) fun _ => rfl)
      (fun j => by simp [Queued, hw, Sys.put, CmdMgr.rwnxCmdFree, hqueue]) rfl
      (by simp [freedBy, hw]) (by simp [touched, hw])⟩

/-- A message to the host takes no command that waits to be pushed. -/
theorem msgind_book {s : Sys} (h : Book m spot) (hs : s = m.sys ∨ ∃ l, s = { m.sys with sent := l })
    (id : ℕ) (cause : Option ℕ) (param : List UInt8)
    (hd : ∀ k ∈ m.sys.mgr.findCmd id, Pushes m.sys k) {a : CommandLedger.Act}
    (hfit : Fit (s.msgind id cause param).mgr (view (s.msgind id cause param)))
    (hpassed : m.passed a = m.built) (hfree : freedBy m.sys a = []) (htouch : touched m.sys a = []) :
    Book (m.after a (s.msgind id cause param)) spot := by
  have hmgr : s.mgr = m.sys.mgr := by rcases hs with rfl | ⟨l, rfl⟩ <;> rfl
  have hpc : s.pc = m.sys.pc := by rcases hs with rfl | ⟨l, rfl⟩ <;> rfl
  have hreq : s.request = m.sys.request := by rcases hs with rfl | ⟨l, rfl⟩ <;> rfl
  have hwork : s.worker = m.sys.worker := by rcases hs with rfl | ⟨l, rfl⟩ <;> rfl
  rcases msgind_cases s id cause param with ⟨he, -⟩ | ⟨k, hk, he⟩
  · rw [he] at hfit ⊢
    exact work_rest h hfit hpc hreq (fun j => by rw [a2eMsg, hmgr, a2eMsg])
      (fun j => by rw [Queued, Queued, hmgr, hwork]) hpassed hfree htouch
  · rw [hmgr] at hk
    have ht := plain_confirmed (h.fit.plain k)
    rw [he] at hfit ⊢
    apply work_rest h hfit hpc hreq _ _ hpassed hfree htouch
    · intro j
      by_cases hj : j = k
      · subst hj
        simp [a2eMsg, hmgr, ht.self, confirmedCmd]
      · simp [a2eMsg, hmgr, ht.others j hj]
    · intro j
      by_cases hj : j = k
      · subst hj
        have hpush := hd j hk
        simp only [Queued, hmgr, hwork, ht.unlisted h.fit.nodup, false_and, false_or]
        unfold Pushes at hpush
        tauto
      · simp only [Queued, hmgr, hwork, ht.others j hj, (ht.keeps hj).mem]

theorem drain_book (h : Book m spot) (hd : ∀ k ∈ m.sys.mgr.cmds, Pushes m.sys k)
    (hfit : Fit (cmdMgrDrain m.sys.mgr) (view (m.sys.put (cmdMgrDrain m.sys.mgr)))) :
    Book (m.after .drain (m.sys.put (cmdMgrDrain m.sys.mgr))) spot := by
  have hslot := CommandLedger.drain_slot h.fit.plain
  have hcmds := CommandLedger.drain_cmds h.fit.plain
  refine work_rest h (t := m.sys.put (cmdMgrDrain m.sys.mgr)) hfit rfl rfl ?_ ?_ rfl rfl rfl
  · intro k
    simp only [a2eMsg, Sys.put]
    rw [hslot k]
  · intro k
    simp only [Queued, Sys.put, hcmds, List.not_mem_nil, false_and, false_or]
    have hpush := hd k
    unfold Pushes at hpush
    tauto

end Steps

/-! ## Runs -/

section Runs
variable {m n : Machine} {spot : ℕ → Spot} {c : ℕ}

theorem zalloc_book (h : Book m spot) (hc : m.allocated c = false) :
    Book { m with
      allocated := Function.update m.allocated c true
      built := Function.update m.built c true } (Function.update spot c .builder) := by
  have hold : spot c = .unborn := by
    by_contra hne
    simp [(h.unborn c).mpr hne] at hc
  constructor
  · exact h.fit
  · exact h.own
  · intro b
    by_cases hb : b = c
    · simp [hb]
    · simpa [hb] using h.unborn b
  · intro b
    by_cases hb : b = c
    · simp [hb]
    · simpa [hb] using h.builder b
  · intro b
    by_cases hb : b = c
    · simp [hb, h.call, hold]
    · simpa [hb] using h.call b
  · intro b k
    by_cases hb : b = c
    · simp [hb, h.slot, hold]
    · simpa [hb] using h.slot b k
  · intro b
    by_cases hb : b = c
    · simp [hb, h.gone, hold]
    · simpa [hb] using h.gone b
  · exact h.live

theorem exit_book (h : Book m spot) (hc : m.built c = true) :
    Book { m with
      built := Function.update m.built c false
      freed := Function.update m.freed c (m.freed c+1) } (Function.update spot c .gone) := by
  have hold := (h.builder c).mp hc
  constructor
  · exact h.fit
  · exact h.own
  · intro b
    by_cases hb : b = c
    · simp [hb, h.unborn, hold]
    · simpa [hb] using h.unborn b
  · intro b
    by_cases hb : b = c
    · simp [hb]
    · simpa [hb] using h.builder b
  · intro b
    by_cases hb : b = c
    · simp [hb, h.call, hold]
    · simpa [hb] using h.call b
  · intro b k
    by_cases hb : b = c
    · simp [hb, h.slot, hold]
    · simpa [hb] using h.slot b k
  · intro b
    by_cases hb : b = c
    · simp [hb, h.gone, hold]
    · simpa [hb] using h.gone b
  · exact h.live

/-- The call takes the message from its builder. -/
theorem start_book {r : Request} {t : Sys} (h : Book m spot) (hc : m.built c = true)
    (ht : CommandMachine.step m.sys (.start c r) = some t) (hfit : Fit t.mgr (view t)) :
    Book (m.after (.mgr (.start c r)) t) (Function.update spot c .call) := by
  have hold := (h.builder c).mp hc
  simp only [CommandMachine.step] at ht
  split_ifs at ht with hidle
  obtain rfl := Option.some.inj ht
  apply h.move hfit
  · constructor
    · intro d k hd
      by_cases hdc : d = c
      · simp [hdc, Sys.goto, callStage, Stage.slot] at hd
      · exact h.own.owner d k (by simpa [Sys.goto, hdc] using hd)
    · intro d k hd
      by_cases hdc : d = c
      · simp [hdc, Sys.goto] at hd
      · simpa [Sys.goto, hdc] using h.own.confirmed d k (by simpa [Sys.goto, hdc] using hd)
    · intro d k hd
      by_cases hdc : d = c
      · simp [hdc, Sys.goto] at hd
      · exact h.own.never d k (by simpa [Sys.goto, hdc] using hd)
  · simp [hold]
  · simp
  · intro d
    by_cases hdc : d = c
    · simp [hdc, Sys.goto, calls]
    · simpa [Sys.goto, hdc] using h.call d
  · intro d k
    have hsame : carried (({ m.sys with request := Function.update m.sys.request c r } : Sys).goto c
        .entry) k = carried m.sys k := rfl
    rw [hsame, h.slot]
    by_cases hdc : d = c
    · simp [hdc, hold]
    · simp [hdc]
  · intro d
    by_cases hdc : d = c
    · simp [hdc, Machine.passed]
    · simpa [Machine.passed, hdc] using h.builder d
  · intro d
    by_cases hdc : d = c
    · simp [hdc, freedBy, h.gone, hold]
    · simpa [freedBy, hdc] using h.gone d
  · simp [touched]

theorem callTimeout_book {t : Sys} (h : Book m spot)
    (ht : CommandMachine.step m.sys (.callTimeout c) = some t) (hfit : Fit t.mgr (view t)) :
    Book (m.after (.mgr (.callTimeout c)) t) spot := by
  simp only [CommandMachine.step] at ht
  cases hpc : m.sys.pc c with
  | wait k =>
    simp only [hpc] at ht
    split_ifs at ht
    obtain rfl := Option.some.inj ht
    exact h.rest hfit (h.own.call (p := .timedOut k) rfl rfl (fun _ => rfl)
      (Or.inr (by rw [hpc]; rfl)) (by simp)) (calls_update (p := .timedOut k) rfl (by rw [hpc]; rfl))
      (fun _ => rfl) rfl rfl (by simp [touched])
  | _ => simp [hpc] at ht

theorem workTimeout_book {t : Sys} (h : Book m spot)
    (ht : CommandMachine.step m.sys .workTimeout = some t) (hfit : Fit t.mgr (view t)) :
    Book (m.after (.mgr .workTimeout) t) spot := by
  simp only [CommandMachine.step] at ht
  cases hw : m.sys.worker with
  | wait k =>
    simp only [hw] at ht
    split_ifs at ht
    obtain rfl := Option.some.inj ht
    exact work_rest h hfit rfl rfl (fun _ => rfl) (fun j => by simp [Queued, hw]) rfl rfl rfl
  | _ => simp [hw] at ht

theorem step_book {a : Act} (h : Book m spot) (hd : Disposes m a) (hs : step m a = some n) :
    ∃ spot', Book n spot' := by
  cases a with
  | zalloc c =>
    simp only [step] at hs
    split_ifs at hs with hc
    obtain rfl := Option.some.inj hs
    exact ⟨_, zalloc_book h (by simpa using hc)⟩
  | exit c e =>
    simp only [step] at hs
    split_ifs at hs with hc
    · obtain rfl := Option.some.inj hs
      exact ⟨_, exit_book h hc⟩
    · exact absurd hd (by assumption)
  | cmd a =>
    simp only [step] at hs
    split_ifs at hs with hready
    obtain ⟨t, ht, rfl⟩ := Option.map_eq_some_iff.mp hs
    have hfit := step_fit h.fit ht
    cases a with
    | drain =>
      obtain rfl := Option.some.inj ht
      exact ⟨spot, drain_book h hd hfit⟩
    | mgr a =>
      cases a with
      | start c r => exact ⟨_, start_book h hready ht hfit⟩
      | call c => exact call_book h hd ht hfit
      | callTimeout c => exact ⟨spot, callTimeout_book h ht hfit⟩
      | startWork =>
        simp only [CommandLedger.step, CommandMachine.step] at ht
        split_ifs at ht with hidle
        obtain rfl := Option.some.inj ht
        exact ⟨spot, work_rest h hfit rfl rfl (fun _ => rfl) (fun j => by simp [Queued, hidle.2])
          rfl rfl rfl⟩
      | work => exact work_book h ht hfit
      | workTimeout => exact ⟨spot, workTimeout_book h ht hfit⟩
      | confirm c param =>
        simp only [CommandLedger.step, CommandMachine.step] at ht
        split_ifs at ht with hc
        obtain rfl := Option.some.inj ht
        exact ⟨spot, msgind_book h (Or.inr ⟨_, rfl⟩) _ _ _ (hd hc) hfit rfl rfl rfl⟩
      | stray id param =>
        obtain rfl := Option.some.inj ht
        exact ⟨spot, msgind_book h (Or.inl rfl) _ _ _ hd hfit rfl rfl rfl⟩
      | busDown =>
        obtain rfl := Option.some.inj ht
        exact ⟨spot, work_rest h hfit rfl rfl (fun _ => rfl) (fun _ => Iff.rfl) rfl rfl rfl⟩

theorem init_book : Book init fun _ => .unborn := by
  have hcarried : ∀ k, carried init.sys k = none := fun k => by
    simp [carried, Queued, init, CommandMachine.init]
  constructor
  · exact init_fit
  · constructor <;> intro c k <;> simp [init, CommandMachine.init, callStage, Stage.slot]
  · simp [init]
  · simp [init]
  · simp [init, CommandMachine.init, calls]
  · simp [hcarried]
  · simp [init]
  · rfl

end Runs

/-- Where no condition fails on the way, no message is lost, freed twice or read after its free. -/
theorem run_owned {as : List Act} (h : Meets step Disposes init as) :
    Throughout step Owned init as := by
  refine throughout_of_meets (J := fun m => ∃ spot, Book m spot) ?_ ?_ ⟨_, init_book⟩ h
  · rintro m a n hd hs ⟨spot, hb⟩
    exact step_book hb hd hs
  · rintro m ⟨spot, hb⟩
    exact hb.owned

def calling (c n : ℕ) : List Act := List.replicate n (.cmd (.mgr (.call c)))

def working (n : ℕ) : List Act := List.replicate n (.cmd (.mgr .work))

/-- One command is pushed by its call, the next by the work item, and the bus goes down under a
third. -/
def sampleRun : List Act :=
  [.zalloc 0, .cmd (.mgr (.start 0 ⟨5, 6, true, false, .sendMsg⟩))] ++ calling 0 4 ++
    [.cmd (.mgr (.confirm 0 []))] ++ calling 0 3 ++
  [.zalloc 1, .cmd (.mgr (.start 1 ⟨5, 6, true, false, .sendMsg1 true⟩))] ++ calling 1 4 ++
    [.cmd (.mgr .startWork)] ++ working 3 ++ [.cmd (.mgr .workTimeout)] ++ working 2 ++
  [.zalloc 2, .cmd (.mgr .busDown), .cmd (.mgr (.start 2 ⟨5, 6, true, false, .sendMsg⟩))] ++
    calling 2 1 ++ [.zalloc 3, .exit 3 .addIfError]

theorem run_owned_sample : Throughout step Owned init sampleRun := run_owned (by decide +kernel)

/-- The request wants no confirmation. -/
def unconfirmedRun : List Act :=
  [.zalloc 0, .cmd (.mgr (.start 0 ⟨5, 6, false, false, .sendMsg⟩))] ++ calling 0 4

/-- The vendor element request of a scan cannot be allocated. -/
def scanuRun : List Act := [.zalloc 0, .exit 0 .noIeReq]

/-- Message 0 was made, and no party has it. -/
def Lost (m : Machine) : Prop :=
  m.allocated 0 = true ∧ m.built 0 = false ∧ calls (m.sys.pc 0) = false ∧ m.sys.mgr.cmds = [] ∧
    m.sys.worker = .idle ∧ m.freed 0 = 0

instance (m : Machine) : Decidable (Lost m) := inferInstanceAs (Decidable (_ ∧ _))

theorem Lost.not_owned {m : Machine} (h : Lost m) : ¬ Owned m := by
  obtain ⟨halloc, hbuilt, hcall, hcmds, hwork, hfreed⟩ := h
  intro howned
  rcases howned.once 0 halloc with ⟨hin, -⟩ | ⟨-, hone⟩
  · simp [InHand, Queued, hbuilt, hcall, hcmds, hwork] at hin
  · omega

theorem lost_of_map {as : List Act}
    (h : (exec step init as).map (fun m => decide (Lost m)) = some true) :
    ∃ m, exec step init as = some m ∧ ¬ Owned m := by
  obtain ⟨m, hm, hlost⟩ := Option.map_eq_some_iff.mp h
  exact ⟨m, hm, (of_decide_eq_true hlost).not_owned⟩

/-- A message goes out and nobody frees it, and another has nobody left to send it. -/
theorem messages_lost :
    (∃ m, exec step init unconfirmedRun = some m ∧ ¬ Owned m) ∧
      ∃ m, exec step init scanuRun = some m ∧ ¬ Owned m :=
  ⟨lost_of_map (by decide +kernel), lost_of_map (by decide +kernel)⟩

end AIC.CommandOwnership
