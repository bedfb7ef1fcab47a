import Aic8800.CommandMachine

/-!
# Who holds which slot

At any time a slot is free, held by one call or by the work item, on the list
waiting for the work item, or lost to a time-out. The stage of its holder says
what the list and the flags know of it. All of it is kept by every step, in
every order, whatever the firmware sends and whichever waits time out.
-/

set_option autoImplicit false

namespace AIC.CommandSlots
open AIC.CommandMachine Lib.GuardedRun

inductive Stage where
  | none
  | fresh (k : ℕ)
  | claimed (k : ℕ)
  | pushing (k : ℕ)
  | waiting (k : ℕ)
  | finished (k : ℕ)

def Stage.slot : Stage → Option ℕ
  | .none => .none
  | .fresh k | .claimed k | .pushing k | .waiting k | .finished k => some k

def callStage : Pc → Stage
  | .waitEmpty k | .queue k | .sendNoCfm k | .freeRet k => .fresh k
  | .push k => .pushing k
  | .wait k | .timedOut k => .waiting k
  | .freeCmd k => .finished k
  | _ => .none

def workStage : WorkPc → Stage
  | .clearFlag k => .claimed k
  | .push k => .pushing k
  | .wait k | .timedOut k => .waiting k
  | .freeCmd k => .finished k
  | _ => .none

/-- The stage of each party: a call, or the work item. -/
def view (s : Sys) : Option ℕ → Stage
  | some c => callStage (s.pc c)
  | .none => workStage s.worker

/-- Off the list, with nothing left to wait for. -/
def Clean (m : CmdMgr) (k : ℕ) : Prop :=
  k ∉ m.cmds ∧ (m.cmdArray k).flags.waitPush = false ∧ (m.cmdArray k).flags.waitCfm = false

/-- Taken off the list by a message, with its completion still to be taken. -/
def Gone (m : CmdMgr) (k : ℕ) : Prop :=
  k ∉ m.cmds ∧ (m.cmdArray k).flags.waitCfm = false ∧ (m.cmdArray k).flags.done = true ∧
    0 < (m.cmdArray k).complete

structure SlotOk (m : CmdMgr) (k : ℕ) : Prop where
  plain : (m.cmdArray k).flags.nonblock = false ∧ (m.cmdArray k).flags.waitAck = false
  free : (m.cmdArray k).used = false → Clean m k
  listed : k ∈ m.cmds → (m.cmdArray k).used = true ∧ (m.cmdArray k).flags.waitCfm = true ∧
    (m.cmdArray k).complete = 0

def Holds (m : CmdMgr) : Stage → Prop
  | .none => True
  | .fresh k | .finished k => (m.cmdArray k).used = true ∧ Clean m k
  | .claimed k => (m.cmdArray k).used = true ∧ (m.cmds.head? = some k ∨ Gone m k)
  | .pushing k | .waiting k => (m.cmdArray k).used = true ∧
      (m.cmdArray k).flags.waitPush = false ∧ (m.cmds.head? = some k ∨ Gone m k)

structure Wf (m : CmdMgr) (v : Option ℕ → Stage) : Prop where
  size : m.queueSz = m.cmds.length
  nodup : m.cmds.Nodup
  slots : ∀ k, SlotOk m k
  holds : ∀ a, Holds m (v a)
  sole : ∀ a b k, (v a).slot = some k → (v b).slot = some k → a = b

/-- Slot `j` and its place on the list are as before. -/
structure Keeps (m m' : CmdMgr) (j : ℕ) : Prop where
  cmd : m'.cmdArray j = m.cmdArray j
  mem : j ∈ m'.cmds ↔ j ∈ m.cmds
  head : m.cmds.head? = some j → m'.cmds.head? = some j

theorem Keeps.refl (m : CmdMgr) (j : ℕ) : Keeps m m j := ⟨rfl, Iff.rfl, id⟩

theorem Keeps.slotOk {m m' : CmdMgr} {j : ℕ} (h : Keeps m m' j) (hj : SlotOk m j) :
    SlotOk m' j := by
  obtain ⟨h1, h2, h3⟩ := hj
  constructor
  · rwa [h.cmd]
  · rw [h.cmd]
    intro hu
    have := h2 hu
    rwa [Clean, h.cmd, h.mem]
  · rwa [h.cmd, h.mem]

theorem holds_keeps {m m' : CmdMgr} {st : Stage} (h : ∀ j, st.slot = some j → Keeps m m' j)
    (hst : Holds m st) : Holds m' st := by
  cases st with
  | none => trivial
  | fresh k | finished k | claimed k | pushing k | waiting k =>
    have hk := h k rfl
    have hhead := hk.head
    simp only [Holds, Clean, Gone, hk.cmd, hk.mem] at hst ⊢
    tauto

section
variable {m m' : CmdMgr} {v : Option ℕ → Stage} {a : Option ℕ} {k : ℕ}

/-- Only slot `k` changes, and what its holder knows of it stays right. -/
theorem wf_stay (h : Wf m v) (others : ∀ j, j ≠ k → Keeps m m' j) (size : m'.queueSz = m'.cmds.length)
    (nodup : m'.cmds.Nodup) (slot : SlotOk m' k)
    (holder : ∀ b, (v b).slot = some k → Holds m' (v b)) : Wf m' v where
  size := size
  nodup := nodup
  slots := by
    intro j
    by_cases hj : j = k
    · rw [hj]
      exact slot
    · exact (others j hj).slotOk (h.slots j)
  holds := by
    intro b
    by_cases hb : (v b).slot = some k
    · exact holder b hb
    · apply holds_keeps _ (h.holds b)
      intro j hj
      exact others j fun he => hb (he ▸ hj)
  sole := h.sole

theorem holds_update (h : Wf m v) {st : Stage} (hst : Holds m st) :
    ∀ b, Holds m (Function.update v a st b) := by
  intro b
  by_cases hb : b = a
  · rw [hb, Function.update_self]
    exact hst
  · rw [Function.update_of_ne hb]
    exact h.holds b

/-- Party `a` goes to another stage without letting the machine change. -/
theorem wf_goto (h : Wf m v) {st : Stage} (hslot : st.slot = .none ∨ st.slot = (v a).slot)
    (hst : Holds m st) : Wf m (Function.update v a st) where
  size := h.size
  nodup := h.nodup
  slots := h.slots
  holds := holds_update h hst
  sole := by
    intro b c j hb hc
    have hold : ∀ d, (Function.update v a st d).slot = some j → (v d).slot = some j := by
      intro d hd
      by_cases he : d = a
      · rw [he, Function.update_self] at hd
        rcases hslot with hn | hn
        · rw [hn] at hd
          cases hd
        · rw [he, ← hn]
          exact hd
      · rwa [Function.update_of_ne he] at hd
    exact h.sole b c j (hold b hb) (hold c hc)

/-- Party `a` takes slot `k`, which no party holds. -/
theorem wf_take (h : Wf m v) {st : Stage} (hk : ∀ b, (v b).slot ≠ some k) (hslot : st.slot = some k)
    (hst : Holds m st) : Wf m (Function.update v a st) where
  size := h.size
  nodup := h.nodup
  slots := h.slots
  holds := holds_update h hst
  sole := by
    have hold : ∀ d j, (Function.update v a st d).slot = some j →
        (d = a ∧ j = k) ∨ (d ≠ a ∧ (v d).slot = some j) := by
      intro d j hd
      by_cases he : d = a
      · rw [he, Function.update_self, hslot] at hd
        exact Or.inl ⟨he, (Option.some.inj hd).symm⟩
      · rw [Function.update_of_ne he] at hd
        exact Or.inr ⟨he, hd⟩
    intro b c j hb hc
    rcases hold b j hb with ⟨hba, hbj⟩ | ⟨-, hb⟩ <;> rcases hold c j hc with ⟨hca, hcj⟩ | ⟨-, hc⟩
    · rw [hba, hca]
    · exact absurd hc (hbj ▸ hk c)
    · exact absurd hb (hcj ▸ hk b)
    · exact h.sole b c j hb hc

/-- Party `a` changes its slot and goes to a stage that fits the change. -/
theorem wf_change (h : Wf m v) (ha : (v a).slot = some k) (others : ∀ j, j ≠ k → Keeps m m' j)
    (size : m'.queueSz = m'.cmds.length) (nodup : m'.cmds.Nodup) (slot : SlotOk m' k) {st : Stage}
    (hslot : st.slot = .none ∨ st.slot = some k) (hst : Holds m' st) :
    Wf m' (Function.update v a st) := by
  have hrelease : Wf m (Function.update v a .none) := wf_goto h (Or.inl rfl) trivial
  have hnot : ∀ b, (Function.update v a .none b).slot ≠ some k := by
    intro b hb
    by_cases he : b = a
    · rw [he, Function.update_self] at hb
      cases hb
    · rw [Function.update_of_ne he] at hb
      exact he (h.sole b a k hb ha)
  have hchange := wf_stay hrelease others size nodup slot fun b hb => absurd hb (hnot b)
  rw [← Function.update_idem .none st v]
  rcases hslot with hn | hn
  · exact wf_goto hchange (Or.inl hn) hst
  · exact wf_take hchange hnot hn hst

end

/-! ## The operations on one slot -/

section
variable {m : CmdMgr} {v : Option ℕ → Stage} {a : Option ℕ} {k : ℕ}

theorem keeps_modify (f : RwnxCmd → RwnxCmd) {j : ℕ} (hj : j ≠ k) : Keeps m (m.modify k f) j where
  cmd := by simp [CmdMgr.modify, hj]
  mem := Iff.rfl
  head := id

theorem keeps_setResult (r : ℤ) {j : ℕ} (hj : j ≠ k) : Keeps m (m.setResult k r) j :=
  keeps_modify _ hj

theorem keeps_setFlags (f : Flags → Flags) {j : ℕ} (hj : j ≠ k) : Keeps m (m.setFlags k f) j :=
  keeps_modify _ hj

theorem keeps_free {j : ℕ} (hj : j ≠ k) : Keeps m (m.rwnxCmdFree k) j := keeps_modify _ hj

@[simp] theorem modify_self (f : RwnxCmd → RwnxCmd) :
    (m.modify k f).cmdArray k = f (m.cmdArray k) := by simp [CmdMgr.modify]

@[simp] theorem modify_cmds (f : RwnxCmd → RwnxCmd) : (m.modify k f).cmds = m.cmds := rfl

@[simp] theorem modify_queueSz (f : RwnxCmd → RwnxCmd) : (m.modify k f).queueSz = m.queueSz := rfl

@[simp] theorem modify_state (f : RwnxCmd → RwnxCmd) : (m.modify k f).state = m.state := rfl

theorem holds_used {st : Stage} (h : Holds m st) (hk : st.slot = some k) :
    (m.cmdArray k).used = true := by
  cases st with
  | none => cases hk
  | fresh j | finished j | claimed j | pushing j | waiting j =>
    obtain rfl := Option.some.inj hk
    exact h.1

theorem Wf.holder (h : Wf m v) {st : Stage} (ha : v a = st) : Holds m st := by
  rw [← ha]
  exact h.holds a

theorem stage_slot {st : Stage} (ha : v a = st) : (v a).slot = st.slot := by rw [ha]

theorem fresh_unlisted (h : Wf m v) (ha : v a = .fresh k) : k ∉ m.cmds :=
  (h.holder ha).2.1

theorem finished_unlisted (h : Wf m v) (ha : v a = .finished k) : k ∉ m.cmds :=
  (h.holder ha).2.1

/-- A party that holds a command on the list holds its head. -/
theorem held_head (h : Wf m v) (ha : (v a).slot = some k) (hk : k ∈ m.cmds) :
    m.cmds.head? = some k := by
  have hold := h.holds a
  cases hst : v a with
  | none =>
    rw [hst] at ha
    cases ha
  | fresh j | finished j =>
    rw [hst] at ha hold
    obtain rfl := Option.some.inj ha
    exact absurd hk hold.2.1
  | claimed j =>
    rw [hst] at ha hold
    obtain rfl := Option.some.inj ha
    rcases hold.2 with hhead | hgone
    · exact hhead
    · exact absurd hk hgone.1
  | pushing j | waiting j =>
    rw [hst] at ha hold
    obtain rfl := Option.some.inj ha
    rcases hold.2.2 with hhead | hgone
    · exact hhead
    · exact absurd hk hgone.1

/-- A slot may change off the list. -/
theorem modify_listed (hk : k ∉ m.cmds) (f : RwnxCmd → RwnxCmd) :
    ∀ j ∈ m.cmds, (m.modify k f).cmdArray j = m.cmdArray j := by
  intro j hj
  have hjk : j ≠ k := fun he => hk (he ▸ hj)
  exact (keeps_modify f hjk).cmd

theorem setResult_listed (hk : k ∉ m.cmds) (r : ℤ) :
    ∀ j ∈ m.cmds, (m.setResult k r).cmdArray j = m.cmdArray j := modify_listed hk _

theorem free_listed (hk : k ∉ m.cmds) :
    ∀ j ∈ m.cmds, (m.rwnxCmdFree k).cmdArray j = m.cmdArray j := modify_listed hk _

theorem wf_malloc (h : Wf m v) (hk : (m.cmdArray k).used = false) (r : Request) (c : ℕ) :
    Wf (m.modify k (Sys.initCmd r c)) (Function.update v a (.fresh k)) := by
  obtain ⟨hmem, hpush, hcfm⟩ := (h.slots k).free hk
  have hplain := (h.slots k).plain
  have hnot : ∀ b, (v b).slot ≠ some k := by
    intro b hb
    have hused := holds_used (h.holds b) hb
    rw [hk] at hused
    cases hused
  have hclean : Clean (m.modify k (Sys.initCmd r c)) k := by
    rw [Clean, modify_self]
    exact ⟨hmem, hpush, hcfm⟩
  have hslot : SlotOk (m.modify k (Sys.initCmd r c)) k := by
    refine ⟨?_, fun _ => hclean, fun hk => absurd hk hmem⟩
    rw [modify_self]
    simp only [Sys.initCmd, hplain.2, ite_self, and_true]
    exact hplain.1
  have hstay := wf_stay h (fun j hj => keeps_modify (Sys.initCmd r c) hj) h.size h.nodup hslot
    fun b hb => absurd hb (hnot b)
  refine wf_take hstay hnot rfl ?_
  exact ⟨by rw [modify_self]; rfl, hclean⟩

theorem wf_setResult (h : Wf m v) (ha : v a = .fresh k) (r : ℤ) : Wf (m.setResult k r) v := by
  have hold := h.holder ha
  have hclean : Clean (m.setResult k r) k := by
    simpa [Clean, CmdMgr.setResult] using hold.2
  have hused : ((m.setResult k r).cmdArray k).used = true := by
    simpa [CmdMgr.setResult] using hold.1
  have hslot : SlotOk (m.setResult k r) k := by
    refine ⟨?_, fun _ => hclean, fun hk => absurd hk hclean.1⟩
    simpa [CmdMgr.setResult] using (h.slots k).plain
  apply wf_stay h (fun j hj => keeps_modify _ hj) h.size h.nodup hslot
  intro b hb
  have hba : b = a := h.sole b a k hb (stage_slot ha)
  rw [hba, ha]
  exact ⟨hused, hclean⟩

theorem keeps_enqueue (d : Bool) {j : ℕ} (hj : j ≠ k) : Keeps m (m.enqueue k d) j where
  cmd := by simp [CmdMgr.enqueue, CmdMgr.modify, hj]
  mem := by simp [CmdMgr.enqueue, CmdMgr.modify, hj]
  head := by
    intro hh
    cases hc : m.cmds with
    | nil => simp [hc] at hh
    | cons x xs => simpa [CmdMgr.enqueue, CmdMgr.modify, hc] using hh

theorem enqueue_slot (h : SlotOk m k) (d : Bool) (hused : (m.cmdArray k).used = true)
    (hreq : (m.cmdArray k).flags.reqCfm = true) : SlotOk (m.enqueue k d) k := by
  obtain ⟨hplain, -, -⟩ := h
  constructor
  · simpa [CmdMgr.enqueue] using hplain
  · intro hu
    simp [CmdMgr.enqueue, hused] at hu
  · intro _
    simp [CmdMgr.enqueue, hused, hreq, hplain.1]

/-- On an idle list the command goes to the head and its call pushes it. -/
theorem wf_enqueue_direct (h : Wf m v) (ha : v a = .fresh k) (hempty : m.cmds = [])
    (hreq : (m.cmdArray k).flags.reqCfm = true) :
    Wf (m.enqueue k false) (Function.update v a (.pushing k)) := by
  have hold := h.holder ha
  have hused : ((m.enqueue k false).cmdArray k).used = true := by
    simpa [CmdMgr.enqueue] using hold.1
  have hpush : ((m.enqueue k false).cmdArray k).flags.waitPush = false := by
    simpa [CmdMgr.enqueue] using hold.2.2.1
  have hhead : (m.enqueue k false).cmds.head? = some k := by
    simp [CmdMgr.enqueue, CmdMgr.modify, hempty]
  apply wf_change h (stage_slot ha) (fun j hj => keeps_enqueue false hj)
  · simp [CmdMgr.enqueue, CmdMgr.modify, h.size]
  · simp [CmdMgr.enqueue, CmdMgr.modify, hempty]
  · exact enqueue_slot (h.slots k) false hold.1 hreq
  · exact Or.inr rfl
  · exact ⟨hused, hpush, Or.inl hhead⟩

/-- A deferred command is left to the work item. -/
theorem wf_enqueue_deferred (h : Wf m v) (ha : v a = .fresh k)
    (hreq : (m.cmdArray k).flags.reqCfm = true) :
    Wf (m.enqueue k true) (Function.update v a .none) := by
  have hold := h.holder ha
  have hmem : k ∉ m.cmds := hold.2.1
  apply wf_change h (stage_slot ha) (fun j hj => keeps_enqueue true hj)
  · simp [CmdMgr.enqueue, CmdMgr.modify, h.size]
  · have hn := h.nodup.concat hmem
    simpa [CmdMgr.enqueue, CmdMgr.modify] using hn
  · exact enqueue_slot (h.slots k) true hold.1 hreq
  · exact Or.inl rfl
  · trivial

theorem lastBusy_false (h : Wf m v) (hb : m.lastBusy = false) : m.cmds = [] := by
  unfold CmdMgr.lastBusy at hb
  cases hl : m.cmds.getLast? with
  | none => exact List.getLast?_eq_none_iff.mp hl
  | some l =>
    have hcfm := ((h.slots l).listed (List.mem_of_getLast? hl)).2.1
    simp [hl, hcfm] at hb

/-- The work item takes the head of the list, which waits for it. -/
theorem wf_claim (h : Wf m v) (hother : ∀ b, v b ≠ .claimed k) (hk : m.cmds.head? = some k)
    (hp : (m.cmdArray k).flags.waitPush = true) : Wf m (Function.update v a (.claimed k)) := by
  have hmem : k ∈ m.cmds := List.mem_of_mem_head? hk
  have hnot : ∀ b, (v b).slot ≠ some k := by
    intro b hb
    have hold := h.holds b
    cases hst : v b with
    | none =>
      rw [hst] at hb
      cases hb
    | claimed j =>
      rw [hst] at hb
      obtain rfl := Option.some.inj hb
      exact hother b hst
    | fresh j | finished j =>
      rw [hst] at hb hold
      obtain rfl := Option.some.inj hb
      exact hold.2.1 hmem
    | pushing j | waiting j =>
      rw [hst] at hb hold
      obtain rfl := Option.some.inj hb
      rw [hold.2.1] at hp
      cases hp
  exact wf_take h hnot rfl ⟨((h.slots k).listed hmem).1, Or.inl hk⟩

theorem wf_pushed (h : Wf m v) (ha : v a = .pushing k) :
    Wf m (Function.update v a (.waiting k)) := by
  have hold := h.holder ha
  exact wf_goto h (Or.inr (stage_slot ha).symm) hold

theorem wf_clear (h : Wf m v) (ha : v a = .claimed k) :
    Wf (m.setFlags k fun f => { f with waitPush := false }) (Function.update v a (.pushing k)) := by
  have hold := h.holder ha
  obtain ⟨hplain, -, hlisted⟩ := h.slots k
  apply wf_change h (stage_slot ha) (fun j hj => keeps_modify _ hj)
    h.size h.nodup _ (Or.inr rfl)
  · refine ⟨by simpa [CmdMgr.setFlags] using hold.1, by simp, ?_⟩
    rcases hold.2 with hhead | hgone
    · exact Or.inl hhead
    · right
      simpa [Gone, CmdMgr.setFlags] using hgone
  · constructor
    · simpa [CmdMgr.setFlags] using hplain
    · intro hu
      simp [hold.1] at hu
    · intro hk
      simpa [CmdMgr.setFlags] using hlisted hk

/-- A wait that ends has been completed by a message, off the list. -/
theorem waiting_gone (h : Wf m v) (ha : v a = .waiting k) (hc : (m.cmdArray k).complete ≠ 0) :
    Gone m k := by
  have hold := h.holder ha
  rcases hold.2.2 with hhead | hgone
  · exact absurd ((h.slots k).listed (List.mem_of_mem_head? hhead)).2.2 hc
  · exact hgone

theorem wf_wake (h : Wf m v) (ha : v a = .waiting k) (hc : (m.cmdArray k).complete ≠ 0) :
    Wf (m.modify k fun cmd => { cmd with complete := cmd.complete-1 })
      (Function.update v a (.finished k)) := by
  obtain ⟨hmem, hcfm, -⟩ := waiting_gone h ha hc
  have hold := h.holder ha
  have hclean : Clean (m.modify k fun cmd => { cmd with complete := cmd.complete-1 }) k := by
    rw [Clean, modify_self]
    exact ⟨hmem, hold.2.1, hcfm⟩
  apply wf_change h (stage_slot ha) (fun j hj => keeps_modify _ hj)
    h.size h.nodup _ (Or.inr rfl)
  · exact ⟨by simpa using hold.1, hclean⟩
  · exact ⟨by simpa using (h.slots k).plain, fun _ => hclean, fun hk => absurd hk hmem⟩

theorem wf_free (h : Wf m v) (ha : v a = .fresh k ∨ v a = .finished k) :
    Wf (m.rwnxCmdFree k) (Function.update v a .none) := by
  have hclean : Clean m k := by
    have hold := h.holds a
    rcases ha with ha | ha <;> rw [ha] at hold <;> exact hold.2
  have hclean' : Clean (m.rwnxCmdFree k) k := by
    simpa [Clean, CmdMgr.rwnxCmdFree] using hclean
  have hslot : SlotOk (m.rwnxCmdFree k) k :=
    ⟨by simpa [CmdMgr.rwnxCmdFree] using (h.slots k).plain, fun _ => hclean',
      fun hk => absurd hk hclean.1⟩
  have hnone : Holds (m.rwnxCmdFree k) .none := trivial
  exact wf_change h (show (v a).slot = some k by rcases ha with ha | ha <;> rw [ha] <;> rfl)
    (fun j hj => keeps_modify _ hj) h.size h.nodup hslot (Or.inl rfl) hnone

/-! ## Taking a command off the list -/

theorem keeps_erase {x : CmdMgr} (hcmds : x.cmds = m.cmds.erase k) {j : ℕ} (hj : j ≠ k)
    (hcmd : x.cmdArray j = m.cmdArray j) : Keeps m x j where
  cmd := hcmd
  mem := by rw [hcmds, List.mem_erase_of_ne hj]
  head := by
    intro hh
    rw [hcmds]
    cases hc : m.cmds with
    | nil => simp [hc] at hh
    | cons y ys =>
      obtain rfl : y = j := by simpa [hc] using hh
      rw [List.erase_cons_tail (by simpa using hj)]
      rfl

/-- Command `k` is off the list of `x`, and is `cmd` there. -/
structure Taken (m x : CmdMgr) (k : ℕ) (cmd : RwnxCmd) : Prop where
  cmds : x.cmds = m.cmds.erase k
  queueSz : x.queueSz = m.queueSz-1
  others : ∀ j, j ≠ k → x.cmdArray j = m.cmdArray j
  self : x.cmdArray k = cmd

theorem Taken.keeps {x : CmdMgr} {cmd : RwnxCmd} (ht : Taken m x k cmd) {j : ℕ} (hj : j ≠ k) :
    Keeps m x j := keeps_erase ht.cmds hj (ht.others j hj)

theorem Taken.unlisted {x : CmdMgr} {cmd : RwnxCmd} (ht : Taken m x k cmd) (h : m.cmds.Nodup) :
    k ∉ x.cmds := by
  rw [ht.cmds]
  exact h.not_mem_erase

theorem Taken.tail {x : CmdMgr} {cmd : RwnxCmd} (ht : Taken m x k cmd)
    (hk : m.cmds.head? = some k) : x.cmds = m.cmds.tail := by
  rw [ht.cmds, List.eq_cons_of_mem_head? hk, List.erase_cons_head, List.tail_cons]

theorem head_not_tail (h : Wf m v) (hk : m.cmds.head? = some k) : k ∉ m.cmds.tail := by
  have hnodup := h.nodup
  rw [List.eq_cons_of_mem_head? hk] at hnodup
  exact (List.nodup_cons.mp hnodup).1

theorem wf_taken {x : CmdMgr} {cmd : RwnxCmd} (h : Wf m v) (ht : Taken m x k cmd) (hk : k ∈ m.cmds)
    (hused : cmd.used = true) (hplain : cmd.flags.nonblock = false ∧ cmd.flags.waitAck = false)
    (holder : ∀ b, (v b).slot = some k → Holds x (v b)) : Wf x v := by
  apply wf_stay h (fun j hj => ht.keeps hj) _ _ _ holder
  · rw [ht.cmds, ht.queueSz, List.length_erase_of_mem hk, h.size]
  · rw [ht.cmds]
    exact h.nodup.erase k
  · constructor
    · rwa [ht.self]
    · intro hu
      rw [ht.self, hused] at hu
      cases hu
    · intro hk
      exact absurd hk (ht.unlisted h.nodup)

/-- The confirmed command: its holder may go on. -/
def confirmedCmd (cmd : RwnxCmd) : RwnxCmd :=
  { cmd with
    flags := { cmd.flags with waitCfm := false, done := true }
    result := 0
    complete := cmd.complete+1 }

theorem plain_confirmed
    (h : (m.cmdArray k).flags.nonblock = false ∧ (m.cmdArray k).flags.waitAck = false) :
    Taken m (m.confirm k) k (confirmedCmd (m.cmdArray k)) := by
  obtain ⟨hblock, hack⟩ := h
  constructor
  · simp [CmdMgr.confirm, CmdMgr.cmdComplete, CmdMgr.setFlags, waitComplete, hblock, hack]
  · simp [CmdMgr.confirm, CmdMgr.cmdComplete, CmdMgr.setFlags, waitComplete, hblock, hack]
  · intro j hj
    simp [CmdMgr.confirm, CmdMgr.cmdComplete, CmdMgr.setFlags, CmdMgr.modify, waitComplete, hblock,
      hack, hj]
  · simp [CmdMgr.confirm, CmdMgr.cmdComplete, CmdMgr.setFlags, CmdMgr.modify, waitComplete, hblock,
      hack, confirmedCmd]

theorem confirm_taken (h : SlotOk m k) : Taken m (m.confirm k) k (confirmedCmd (m.cmdArray k)) :=
  plain_confirmed h.plain

theorem wf_confirm (h : Wf m v) (hk : k ∈ m.cmds) : Wf (m.confirm k) v := by
  have ht := confirm_taken (h.slots k)
  obtain ⟨hused, -, -⟩ := (h.slots k).listed hk
  have hgone : Gone (m.confirm k) k := by
    rw [Gone, ht.self]
    exact ⟨ht.unlisted h.nodup, rfl, rfl, Nat.succ_pos _⟩
  apply wf_taken h ht hk hused (h.slots k).plain
  intro b hb
  have hold := h.holds b
  cases hst : v b with
  | none => trivial
  | fresh j | finished j =>
    rw [hst] at hb hold
    obtain rfl := Option.some.inj hb
    exact absurd hk hold.2.1
  | claimed j =>
    rw [hst] at hb
    obtain rfl := Option.some.inj hb
    exact ⟨by rw [ht.self]; exact hused, Or.inr hgone⟩
  | pushing j | waiting j =>
    rw [hst] at hb hold
    obtain rfl := Option.some.inj hb
    exact ⟨by rw [ht.self]; exact hused, by rw [ht.self]; exact hold.2.1, Or.inr hgone⟩

/-- The command given up, when its slot was never completed before. -/
def expiredCmd (cmd : RwnxCmd) : RwnxCmd :=
  { cmd with flags := { cmd.flags with done := true }, result := -ETIMEDOUT }

theorem timedOut_done (hd : (m.cmdArray k).flags.done = true) :
    m.timedOut k = { m with state := .crashed } := by
  simp [CmdMgr.timedOut, hd]

theorem timedOut_taken (h : SlotOk m k) (hcfm : (m.cmdArray k).flags.waitCfm = true)
    (hd : (m.cmdArray k).flags.done = false) :
    Taken m (m.timedOut k) k (expiredCmd (m.cmdArray k)) := by
  obtain ⟨hblock, hack⟩ := h.plain
  constructor
  · simp [CmdMgr.timedOut, CmdMgr.cmdComplete, CmdMgr.setFlags, CmdMgr.setResult, waitComplete,
      hblock, hd, hcfm]
  · simp [CmdMgr.timedOut, CmdMgr.cmdComplete, CmdMgr.setFlags, CmdMgr.setResult, waitComplete,
      hblock, hd, hcfm]
  · intro j hj
    simp [CmdMgr.timedOut, CmdMgr.cmdComplete, CmdMgr.setFlags, CmdMgr.setResult, CmdMgr.modify,
      waitComplete, hblock, hd, hcfm, hj]
  · simp [CmdMgr.timedOut, CmdMgr.cmdComplete, CmdMgr.setFlags, CmdMgr.setResult, CmdMgr.modify,
      waitComplete, hblock, hd, hcfm, expiredCmd]

theorem cmdComplete_state (x : CmdMgr) : (x.cmdComplete k).state = x.state := by
  simp only [CmdMgr.cmdComplete]
  split_ifs <;> rfl

theorem timedOut_state : (m.timedOut k).state = .crashed := by
  simp only [CmdMgr.timedOut]
  split_ifs
  · rfl
  · rw [cmdComplete_state]
    rfl

theorem confirm_state : (m.confirm k).state = m.state := by
  simp only [CmdMgr.confirm]
  split_ifs
  · rw [cmdComplete_state]
    rfl
  · rfl

theorem wf_crashed (h : Wf m v) : Wf { m with state := .crashed } v := by
  have hsame : ∀ j, Keeps m { m with state := .crashed } j := fun j => ⟨rfl, Iff.rfl, id⟩
  exact wf_stay h (fun j _ => hsame j) h.size h.nodup ((hsame 0).slotOk (h.slots 0))
    fun b _ => holds_keeps (fun j _ => hsame j) (h.holds b)

/-- A waiting party whose command is not done finds it at the head of the list. -/
theorem waiting_listed (h : Wf m v) (ha : v a = .waiting k)
    (hd : (m.cmdArray k).flags.done = false ∨ (m.cmdArray k).flags.waitCfm = true) :
    m.cmds.head? = some k := by
  have hold := h.holder ha
  rcases hold.2.2 with hhead | ⟨-, hcfm, hdone, -⟩
  · exact hhead
  · rw [hcfm, hdone] at hd
    simp at hd

/-- Giving up a command that is off the list only crashes the manager. -/
theorem timedOut_gone (h : Wf m v) (ha : v a = .waiting k) (hk : k ∉ m.cmds) :
    m.timedOut k = { m with state := .crashed } := by
  apply timedOut_done
  have hold := h.holder ha
  rcases hold.2.2 with hhead | hgone
  · exact absurd (List.mem_of_mem_head? hhead) hk
  · exact hgone.2.2.1

theorem keeps_timedOut (h : Wf m v) (ha : v a = .waiting k) {j : ℕ} (hj : j ≠ k) :
    Keeps m (m.timedOut k) j := by
  cases hd : (m.cmdArray k).flags.done with
  | true =>
    rw [timedOut_done hd]
    exact ⟨rfl, Iff.rfl, id⟩
  | false =>
    have hmem : k ∈ m.cmds := List.mem_of_mem_head? (waiting_listed h ha (Or.inl hd))
    exact (timedOut_taken (h.slots k) ((h.slots k).listed hmem).2.1 hd).keeps hj

theorem timedOut_mem (h : Wf m v) (ha : v a = .waiting k) {j : ℕ} (hj : j ∈ (m.timedOut k).cmds) :
    j ∈ m.cmds := by
  by_cases hjk : j = k
  · subst hjk
    by_contra hnot
    rw [timedOut_gone h ha hnot] at hj
    exact hnot hj
  · exact (keeps_timedOut h ha hjk).mem.mp hj

theorem wf_timedOut (h : Wf m v) (ha : v a = .waiting k) :
    Wf (m.timedOut k) (Function.update v a .none) := by
  have hleft : Wf m (Function.update v a .none) := wf_goto h (Or.inl rfl) trivial
  cases hd : (m.cmdArray k).flags.done with
  | true =>
    rw [timedOut_done hd]
    exact wf_crashed hleft
  | false =>
    have hmem : k ∈ m.cmds := List.mem_of_mem_head? (waiting_listed h ha (Or.inl hd))
    obtain ⟨hused, hcfm, -⟩ := (h.slots k).listed hmem
    have ht := timedOut_taken (h.slots k) hcfm hd
    apply wf_taken hleft ht hmem hused (h.slots k).plain
    intro b hb
    by_cases hba : b = a
    · rw [hba, Function.update_self]
      trivial
    · rw [Function.update_of_ne hba] at hb
      exact absurd (h.sole b a k hb (stage_slot ha)) hba

end

end AIC.CommandSlots
