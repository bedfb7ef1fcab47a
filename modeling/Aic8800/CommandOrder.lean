import Aic8800.CommandMoves
import Aic8800.Lib.SingleServer

/-!
# One command at a time, in the order of the list

While the firmware only confirms what it was given, and no command is given up,
the list of commands is a line before a single server: the firmware has the
head or nothing, the calls and the work item never push twice, and a message is
taken by the command that it confirms.
-/

set_option autoImplicit false

namespace AIC.CommandOrder
open AIC.CommandMachine AIC.CommandSlots AIC.CommandMoves Lib.GuardedRun Lib.SingleServer

/-- No command on the list waits for this message, unless the firmware confirms
a command by it. -/
def Solicited (s : Sys) : Act → Prop
  | .stray id _ => ∀ k ∈ s.mgr.cmds, (s.mgr.cmdArray k).reqid ≠ id
  | _ => True

structure Serial (m : CmdMgr) (v : Option ℕ → Stage) (sent : List ℕ) : Prop where
  busy : sent = [] ∨ ∃ k, m.cmds.head? = some k ∧ sent = [(m.cmdArray k).owner] ∧
    (m.cmdArray k).flags.waitPush = false
  tail : ∀ k ∈ m.cmds.tail, (m.cmdArray k).flags.waitPush = true
  ahead : ∀ b k, v b = .claimed k ∨ v b = .pushing k → m.cmds.head? = some k ∧ sent = []
  waits : ∀ b k, v b = .waiting k → k ∈ m.cmds → sent = [(m.cmdArray k).owner]

/-- Nothing of the order depends on a party in such a stage. -/
def Quiet (st : Stage) : Prop :=
  ∀ k, st ≠ .claimed k ∧ st ≠ .pushing k ∧ st ≠ .waiting k

section
variable {m m' : CmdMgr} {v v' : Option ℕ → Stage} {sent : List ℕ} {a : Option ℕ} {k : ℕ}

theorem quiet_none : Quiet .none := by simp [Quiet]

theorem quiet_fresh (j : ℕ) : Quiet (.fresh j) := by simp [Quiet]

theorem quiet_finished (j : ℕ) : Quiet (.finished j) := by simp [Quiet]

/-- The list and its commands stay, and nobody enters the order. -/
theorem Serial.frame (h : Serial m v sent) (hcmds : m'.cmds = m.cmds)
    (hslot : ∀ j ∈ m.cmds, m'.cmdArray j = m.cmdArray j) (hv : ∀ b, v' b = v b ∨ Quiet (v' b)) :
    Serial m' v' sent where
  busy := by
    rcases h.busy with hs | ⟨j, hj, hs, hp⟩
    · exact Or.inl hs
    · right
      rw [hcmds]
      exact ⟨j, hj, by rwa [hslot j (List.mem_of_mem_head? hj)],
        by rwa [hslot j (List.mem_of_mem_head? hj)]⟩
  tail := by
    intro j hj
    rw [hcmds] at hj
    rw [hslot j (List.mem_of_mem_tail hj)]
    exact h.tail j hj
  ahead := by
    intro b j hb
    rw [hcmds]
    rcases hv b with he | hq
    · rw [he] at hb
      exact h.ahead b j hb
    · rcases hb with hb | hb
      · exact absurd hb (hq j).1
      · exact absurd hb (hq j).2.1
  waits := by
    intro b j hb hj
    rw [hcmds] at hj
    rw [hslot j hj]
    rcases hv b with he | hq
    · exact h.waits b j (he ▸ hb) hj
    · exact absurd hb (hq j).2.2

/-- While the firmware has no command, nobody waits for one on the list. -/
theorem Serial.unwaited (h : Serial m v []) {b : Option ℕ} {j : ℕ} (hb : v b = .waiting j) :
    j ∉ m.cmds := by
  intro hj
  cases h.waits b j hb hj

theorem serial_push (hw : Wf m v) (h : Serial m v sent) (ha : v a = .pushing k) :
    Serial m (Function.update v a (.waiting k)) (sent++[(m.cmdArray k).owner]) := by
  obtain ⟨hhead, hsent⟩ := h.ahead a k (Or.inr ha)
  have hpush : (m.cmdArray k).flags.waitPush = false := (hw.holder ha).2.1
  have hone : ∀ b j, m.cmds.head? = some j → (v b).slot = some j → b = a := by
    intro b j hj hb
    obtain rfl : k = j := Option.some.inj (hhead.symm.trans hj)
    exact hw.sole b a k hb (stage_slot ha)
  subst hsent
  constructor
  · exact Or.inr ⟨k, hhead, rfl, hpush⟩
  · exact h.tail
  · intro b j hb
    by_cases hba : b = a
    · simp [hba] at hb
    · rw [Function.update_of_ne hba] at hb
      have hj := (h.ahead b j hb).1
      rcases hb with hb | hb
      · exact absurd (hone b j hj (by rw [hb]; rfl)) hba
      · exact absurd (hone b j hj (by rw [hb]; rfl)) hba
  · intro b j hb hj
    by_cases hba : b = a
    · obtain rfl : k = j := by simpa [hba] using hb
      rfl
    · rw [Function.update_of_ne hba] at hb
      exact absurd hj (h.unwaited hb)

theorem serial_direct (hw : Wf m v) (h : Serial m v sent) (ha : v a = .fresh k)
    (he : m.cmds = []) : Serial (m.enqueue k false) (Function.update v a (.pushing k)) sent := by
  have hsent : sent = [] := by
    rcases h.busy with hs | ⟨j, hj, -⟩
    · exact hs
    · simp [he] at hj
  subst hsent
  have hcmds : (m.enqueue k false).cmds = [k] := by simp [CmdMgr.enqueue, he]
  constructor
  · exact Or.inl rfl
  · simp [hcmds]
  · intro b j hb
    by_cases hba : b = a
    · obtain rfl : k = j := by simpa [hba] using hb
      simp [hcmds]
    · rw [Function.update_of_ne hba] at hb
      have hj := (h.ahead b j hb).1
      simp [he] at hj
  · intro b j hb hj
    by_cases hba : b = a
    · simp [hba] at hb
    · rw [Function.update_of_ne hba] at hb
      obtain rfl : j = k := by simpa [hcmds] using hj
      exact absurd (hw.sole b a j (by rw [hb]; rfl) (stage_slot ha)) hba

theorem serial_deferred (hw : Wf m v) (h : Serial m v sent) (ha : v a = .fresh k) :
    Serial (m.enqueue k true) (Function.update v a .none) sent := by
  have hmem := fresh_unlisted hw ha
  have hcmds : (m.enqueue k true).cmds = m.cmds++[k] := rfl
  have hkeep : ∀ j, j ≠ k → (m.enqueue k true).cmdArray j = m.cmdArray j :=
    fun j hj => (keeps_enqueue true hj).cmd
  have hother : ∀ b j, b ≠ a → (v b).slot = some j → j ≠ k := by
    intro b j hba hb he
    exact hba (hw.sole b a k (he ▸ hb) (stage_slot ha))
  constructor
  · rcases h.busy with hs | ⟨j, hj, hs, hp⟩
    · exact Or.inl hs
    · have hjk : j ≠ k := fun he => hmem (he ▸ List.mem_of_mem_head? hj)
      right
      rw [hcmds]
      exact ⟨j, by simp [hj], by rwa [hkeep j hjk], by rwa [hkeep j hjk]⟩
  · intro j hj
    by_cases hjk : j = k
    · simp [hjk, CmdMgr.enqueue]
    · rw [hkeep j hjk]
      rw [hcmds] at hj
      apply h.tail
      cases hc : m.cmds with
      | nil => simp [hc] at hj
      | cons x xs => simpa [hc, hjk] using hj
  · intro b j hb
    by_cases hba : b = a
    · simp [hba] at hb
    · rw [Function.update_of_ne hba] at hb
      obtain ⟨hj, hs⟩ := h.ahead b j hb
      exact ⟨by simp [hcmds, hj], hs⟩
  · intro b j hb hj
    by_cases hba : b = a
    · simp [hba] at hb
    · rw [Function.update_of_ne hba] at hb
      have hjk := hother b j hba (by rw [hb]; rfl)
      rw [hkeep j hjk]
      exact h.waits b j hb (by simpa [hcmds, hjk] using hj)

/-- Party `a` comes to the head of a list that nobody waits on. -/
theorem Serial.at_head (h : Serial m v []) (hk : m.cmds.head? = some k) {st : Stage}
    (hst : st = .claimed k ∨ st = .pushing k) :
    (∀ b j, Function.update v a st b = .claimed j ∨ Function.update v a st b = .pushing j →
      m.cmds.head? = some j) ∧
    ∀ b j, Function.update v a st b = .waiting j → j ∉ m.cmds := by
  constructor
  · intro b j hb
    by_cases hba : b = a
    · rw [hba, Function.update_self] at hb
      obtain rfl : k = j := by
        rcases hst with rfl | rfl
        · simpa using hb
        · simpa using hb
      exact hk
    · rw [Function.update_of_ne hba] at hb
      exact (h.ahead b j hb).1
  · intro b j hb
    by_cases hba : b = a
    · rw [hba, Function.update_self] at hb
      rcases hst with rfl | rfl <;> cases hb
    · rw [Function.update_of_ne hba] at hb
      exact h.unwaited hb

theorem serial_claim (h : Serial m v sent) (hk : m.cmds.head? = some k)
    (hp : (m.cmdArray k).flags.waitPush = true) :
    Serial m (Function.update v a (.claimed k)) sent := by
  have hsent : sent = [] := by
    rcases h.busy with hs | ⟨j, hj, -, hpush⟩
    · exact hs
    · obtain rfl : k = j := Option.some.inj (hk.symm.trans hj)
      rw [hp] at hpush
      cases hpush
  subst hsent
  obtain ⟨hahead, hwaits⟩ := h.at_head (a := a) hk (Or.inl rfl)
  constructor
  · exact Or.inl rfl
  · exact h.tail
  · exact fun b j hb => ⟨hahead b j hb, rfl⟩
  · exact fun b j hb hj => absurd hj (hwaits b j hb)

theorem serial_clear (hw : Wf m v) (h : Serial m v sent) (ha : v a = .claimed k) :
    Serial (m.setFlags k pushed) (Function.update v a (.pushing k)) sent := by
  obtain ⟨hhead, rfl⟩ := h.ahead a k (Or.inl ha)
  have hcmds : (m.setFlags k pushed).cmds = m.cmds := rfl
  obtain ⟨hahead, hwaits⟩ := h.at_head (a := a) hhead (Or.inr rfl)
  constructor
  · exact Or.inl rfl
  · intro j hj
    rw [hcmds] at hj
    have hjk : j ≠ k := fun he => head_not_tail hw hhead (he ▸ hj)
    rw [CmdMgr.setFlags, (keeps_modify _ hjk).cmd]
    exact h.tail j hj
  · exact fun b j hb => ⟨hahead b j hb, rfl⟩
  · exact fun b j hb hj => absurd hj (hwaits b j hb)

/-- The firmware has the command at the head, and confirms it. -/
theorem serial_confirm (hw : Wf m v) (h : Serial m v sent) (hs : sent ≠ [])
    (hk : m.cmds.head? = some k) : Serial (m.confirm k) v [] := by
  have ht := confirm_taken (hw.slots k)
  have hrest := ht.tail hk
  have hne : ∀ j ∈ m.cmds.tail, j ≠ k := fun j hj he => head_not_tail hw hk (he ▸ hj)
  constructor
  · exact Or.inl rfl
  · intro j hj
    rw [hrest] at hj
    have hj := List.mem_of_mem_tail hj
    rw [ht.others j (hne j hj)]
    exact h.tail j hj
  · intro b j hb
    exact absurd (h.ahead b j hb).2 hs
  · intro b j hb hj
    rw [hrest] at hj
    have hold := hw.holds b
    rw [hb] at hold
    rcases hold.2.2 with hhead | hgone
    · exact absurd (Option.some.inj (hhead.symm.trans hk)) (hne j hj)
    · exact absurd (List.mem_of_mem_tail hj) hgone.1

end

/-! ## The line that the machine runs -/

def served : Ev → Option (Event ℕ)
  | .appended c => some (.arrive c)
  | .pushed c => some (.take c)
  | .confirmed c _ _ => some (.finish c)
  | _ => none

/-- The calls whose commands the firmware has still to get. -/
def unsent (m : CmdMgr) (sent : List ℕ) : List ℕ :=
  (if sent = [] then m.cmds else m.cmds.tail).map fun k => (m.cmdArray k).owner

structure InLine (s : Sys) : Prop where
  serial : Serial s.mgr (view s) s.sent
  line : ∃ f, Run (s.log.filterMap served) ⟨f, s.sent.head?, unsent s.mgr s.sent⟩
  own : ∀ c cause param, .confirmed c cause param ∈ s.log → cause = some c

theorem unsent_same {m m' : CmdMgr} {sent : List ℕ} (hcmds : m'.cmds = m.cmds)
    (hslot : ∀ j ∈ m.cmds, (m'.cmdArray j).owner = (m.cmdArray j).owner) :
    unsent m' sent = unsent m sent := by
  unfold unsent
  rw [hcmds]
  apply List.map_congr_left
  intro j hj
  split_ifs at hj
  · exact hslot j hj
  · exact hslot j (List.mem_of_mem_tail hj)

section
variable {s t : Sys}

/-- A step that leaves the list, what was sent and the order alone. -/
theorem InLine.frame (h : InLine s) (hcmds : t.mgr.cmds = s.mgr.cmds)
    (hslot : ∀ j ∈ s.mgr.cmds, t.mgr.cmdArray j = s.mgr.cmdArray j) (hsent : t.sent = s.sent)
    (hlog : t.log = s.log ∨ ∃ c r, t.log = s.log++[.returned c r])
    (hv : ∀ b, view t b = view s b ∨ Quiet (view t b)) : InLine t where
  serial := by
    rw [hsent]
    exact h.serial.frame hcmds hslot hv
  line := by
    obtain ⟨f, hf⟩ := h.line
    rw [hsent, unsent_same hcmds fun j hj => by rw [hslot j hj]]
    rcases hlog with hl | ⟨c, r, hl⟩
    · exact ⟨f, by rwa [hl]⟩
    · have hnone : List.filterMap served [.returned c r] = [] := rfl
      exact ⟨f, by rwa [hl, List.filterMap_append, hnone, List.append_nil]⟩
  own := by
    intro c cause param hc
    rcases hlog with hl | ⟨d, r, hl⟩
    · exact h.own c cause param (hl ▸ hc)
    · exact h.own c cause param (by simpa [hl] using hc)

theorem quiet_call {c : ℕ} {p : Pc} (hpc : t.pc = Function.update s.pc c p)
    (hwork : t.worker = s.worker) (hp : callStage p = callStage (s.pc c) ∨ Quiet (callStage p)) :
    ∀ b, view t b = view s b ∨ Quiet (view t b) := by
  intro b
  cases b with
  | none =>
    left
    simp [view, hwork]
  | some d =>
    by_cases hd : d = c
    · subst hd
      simpa [view, hpc] using hp
    · left
      simp [view, hpc, hd]

theorem quiet_work {w : WorkPc} (hpc : t.pc = s.pc) (hwork : t.worker = w)
    (hw : workStage w = workStage s.worker ∨ Quiet (workStage w)) :
    ∀ b, view t b = view s b ∨ Quiet (view t b) := by
  intro b
  cases b with
  | none => simpa [view, hwork] using hw
  | some d =>
    left
    simp [view, hpc]

theorem appended_inLine (hs : Sound s) (h : InLine s) {c k : ℕ} (hc : s.pc c = .queue k)
    {t : Sys} {d : Bool} (hmgr : t.mgr = s.mgr.enqueue k d) (hsent : t.sent = s.sent)
    (hlog : t.log = s.log++[.appended c]) (hserial : Serial t.mgr (view t) t.sent) : InLine t where
  serial := hserial
  line := by
    have hown : (s.mgr.cmdArray k).owner = c := hs.owned.holder c k (by rw [hc]; rfl)
    have howner : ∀ j, ((s.mgr.enqueue k d).cmdArray j).owner = (s.mgr.cmdArray j).owner :=
      fun j => (enqueue_sameUse s.mgr k d j).owner
    have hunsent : unsent t.mgr t.sent = unsent s.mgr s.sent++[c] := by
      have hcmds : (s.mgr.enqueue k d).cmds = s.mgr.cmds++[k] := rfl
      have hnew : s.sent ≠ [] → s.mgr.cmds ≠ [] := by
        intro hne he
        rcases h.serial.busy with hempty | ⟨j, hj, -⟩
        · exact hne hempty
        · simp [he] at hj
      unfold unsent
      rw [hmgr, hsent, hcmds]
      simp only [howner]
      split_ifs with hempty
      · simp [hown]
      · rw [List.tail_append_of_ne_nil (hnew hempty)]
        simp [hown]
    obtain ⟨f, hf⟩ := h.line
    have hrun := hf.arrive c
    refine ⟨f, ?_⟩
    rw [hunsent, hlog, hsent, List.filterMap_append]
    exact hrun
  own := by
    intro e cause param he
    exact h.own e cause param (by simpa [hlog] using he)

theorem pushed_inLine (h : InLine s) {k : ℕ} (hhead : s.mgr.cmds.head? = some k)
    (hempty : s.sent = []) {t : Sys} (hmgr : t.mgr = s.mgr)
    (hsent : t.sent = s.sent++[(s.mgr.cmdArray k).owner])
    (hlog : t.log = s.log++[.pushed (s.mgr.cmdArray k).owner])
    (hserial : Serial t.mgr (view t) t.sent) : InLine t where
  serial := hserial
  line := by
    obtain ⟨f, hf⟩ := h.line
    have hcmds : s.mgr.cmds = k::s.mgr.cmds.tail := List.eq_cons_of_mem_head? hhead
    have hbefore : unsent s.mgr s.sent =
        (s.mgr.cmdArray k).owner::s.mgr.cmds.tail.map fun j => (s.mgr.cmdArray j).owner := by
      unfold unsent
      rw [if_pos hempty, hcmds]
      rfl
    have hafter : unsent t.mgr t.sent =
        s.mgr.cmds.tail.map fun j => (s.mgr.cmdArray j).owner := by
      unfold unsent
      rw [hmgr, hsent, hempty]
      rfl
    rw [hbefore, hempty] at hf
    refine ⟨f, ?_⟩
    rw [hafter, hsent, hempty, hlog, List.filterMap_append]
    exact hf.take
  own := by
    intro e cause param he
    exact h.own e cause param (by simpa [hlog] using he)

/-- The firmware can only confirm the command at the head, and that one takes the message. -/
theorem sent_found (hs : Sound s) (h : Serial s.mgr (view s) s.sent) {c : ℕ} (hc : c ∈ s.sent) :
    ∃ k, s.mgr.cmds.head? = some k ∧ s.sent = [c] ∧ (s.mgr.cmdArray k).owner = c ∧
      s.mgr.findCmd (s.request c).reqid = some k := by
  rcases h.busy with hempty | ⟨k, hhead, hsent, -⟩
  · rw [hempty] at hc
    cases hc
  · have hown : (s.mgr.cmdArray k).owner = c := by
      rw [hsent, List.mem_singleton] at hc
      exact hc.symm
    obtain ⟨hused, hcfm, -⟩ := (hs.wf.slots k).listed (List.mem_of_mem_head? hhead)
    have hreqid : (s.mgr.cmdArray k).reqid = (s.request c).reqid := by
      have hserves := (hs.owned.slot k hused).2.ident.2.1
      rwa [hown] at hserves
    refine ⟨k, hhead, by rw [hsent, hown], hown, ?_⟩
    rw [CmdMgr.findCmd, List.eq_cons_of_mem_head? hhead]
    simp [hreqid, hcfm]

theorem answer_served (cmd : RwnxCmd) (cause : Option ℕ) (param : List UInt8) :
    (answer cmd cause param).filterMap served = [.finish cmd.owner] := by
  unfold answer
  split_ifs <;> rfl

theorem answer_confirmed {cmd : RwnxCmd} {cause cause' : Option ℕ} {c : ℕ} {param q : List UInt8}
    (h : .confirmed c cause' q ∈ answer cmd cause param) :
    c = cmd.owner ∧ cause' = cause ∧ q = param := by
  unfold answer at h
  split_ifs at h <;> simpa using h

theorem confirmed_inLine (hs : Sound s) (h : InLine s) {c k : ℕ}
    (hhead : s.mgr.cmds.head? = some k) (hsent : s.sent = [c])
    (hown : (s.mgr.cmdArray k).owner = c) {t : Sys} (hmgr : t.mgr = s.mgr.confirm k)
    (hview : view t = view s) (hnone : t.sent = []) {param : List UInt8}
    (hlog : t.log = s.log++answer (s.mgr.cmdArray k) (some c) param) : InLine t := by
  have ht := confirm_taken (hs.wf.slots k)
  have hrest := ht.tail hhead
  have howner : ∀ j, ((s.mgr.confirm k).cmdArray j).owner = (s.mgr.cmdArray j).owner :=
    fun j => (taken_sameUse ht ⟨id, rfl, ⟨rfl, rfl, rfl⟩, id⟩ j).owner
  constructor
  · rw [hmgr, hview, hnone]
    exact serial_confirm hs.wf h.serial (by simp [hsent]) hhead
  · obtain ⟨f, hf⟩ := h.line
    have hunsent : unsent t.mgr t.sent = unsent s.mgr [c] := by
      simp [unsent, hmgr, hnone, hrest, howner]
    rw [hsent] at hf
    refine ⟨f++[c], ?_⟩
    rw [hunsent, hnone, hlog, List.filterMap_append, answer_served, hown]
    exact hf.finish
  · intro d cause q hd
    rw [hlog] at hd
    rcases List.mem_append.mp hd with hd | hd
    · exact h.own d cause q hd
    · obtain ⟨hd, hcause, -⟩ := answer_confirmed hd
      rw [hcause, hd, hown]

theorem serial_call {c : ℕ} {p : Pc} (hpc : t.pc = Function.update s.pc c p)
    (hwork : t.worker = s.worker)
    (h : Serial t.mgr (Function.update (view s) (some c) (callStage p)) t.sent) :
    Serial t.mgr (view t) t.sent := by
  rwa [view_call hpc hwork]

theorem serial_work {w : WorkPc} (hpc : t.pc = s.pc) (hwork : t.worker = w)
    (h : Serial t.mgr (Function.update (view s) none (workStage w)) t.sent) :
    Serial t.mgr (view t) t.sent := by
  rwa [view_work hpc hwork]

theorem giveUp_inLine (hs : Sound s) (h : InLine s) {b : Option ℕ} {k : ℕ}
    (ha : view s b = .waiting k) (hmgr : t.mgr = s.mgr.timedOut k)
    (hlost : (s.lost || decide (k ∈ s.mgr.cmds)) = false) (hsent : t.sent = s.sent)
    (hlog : t.log = s.log ∨ ∃ c r, t.log = s.log++[.returned c r])
    (hv : ∀ b, view t b = view s b ∨ Quiet (view t b)) : InLine t := by
  have hk : k ∉ s.mgr.cmds := by
    intro hk
    simp [hk] at hlost
  rw [timedOut_gone hs.wf ha hk] at hmgr
  exact h.frame (by rw [hmgr]) (fun j _ => by rw [hmgr]) hsent hlog hv

theorem move_inLine {a : Act} (hs : Sound s) (hm : Move s a t) (hsol : Solicited s a)
    (hlost : t.lost = false) (h : InLine s) : InLine t := by
  have hw := hs.wf
  cases hm with
  | start c r =>
    exact h.frame rfl (fun _ _ => rfl) rfl (Or.inl rfl)
      (quiet_call (p := .entry) rfl rfl (Or.inr quiet_none))
  | poll => exact h
  | jump c p hj =>
    have hp : callStage p = callStage (s.pc c) ∨ Quiet (callStage p) := by
      rcases hj.stage with hp | hp
      · exact Or.inl hp
      · right
        rw [hp]
        exact quiet_none
    exact h.frame rfl (fun _ _ => rfl) rfl (Or.inl rfl) (quiet_call rfl rfl hp)
  | leave c =>
    exact h.frame rfl (fun _ _ => rfl) rfl (Or.inr ⟨c, 0, rfl⟩)
      (quiet_call (p := .returned 0) rfl rfl (Or.inr quiet_none))
  | malloc c k _ hk =>
    have hp : Quiet (callStage (mallocNext (s.request c) k)) := by
      rw [mallocNext_stage]
      exact quiet_fresh k
    exact h.frame rfl (modify_listed ((hw.slots k).free hk).1 _) rfl (Or.inl rfl)
      (quiet_call rfl rfl (Or.inr hp))
  | refused c k r hc =>
    have ha : view s (some c) = .fresh k := view_at hc
    exact h.frame rfl (setResult_listed (fresh_unlisted hw ha) r) rfl (Or.inl rfl)
      (quiet_call rfl rfl (Or.inr (quiet_fresh k)))
  | direct c k hc _ he =>
    have ha : view s (some c) = .fresh k := view_at hc
    have hserial := serial_direct hw h.serial ha he
    exact appended_inLine hs h hc rfl rfl rfl (serial_call (s := s) rfl rfl hserial)
  | deferred c k p hc _ _ hp =>
    have ha : view s (some c) = .fresh k := view_at hc
    have hstage : callStage p = .none := by rcases hp with rfl | rfl <;> rfl
    have hserial := serial_deferred hw h.serial ha
    rw [← hstage] at hserial
    exact appended_inLine hs h hc rfl rfl rfl (serial_call (s := s) rfl rfl hserial)
  | push c k hc =>
    have ha : view s (some c) = .pushing k := view_at hc
    obtain ⟨hhead, hempty⟩ := h.serial.ahead (some c) k (Or.inr ha)
    have hserial := serial_push hw h.serial ha
    exact pushed_inLine h hhead hempty rfl rfl rfl (serial_call (s := s) rfl rfl hserial)
  | wakeUp c k hc hn =>
    have ha : view s (some c) = .waiting k := view_at hc
    exact h.frame rfl (modify_listed (waiting_gone hw ha hn).1 _) rfl (Or.inl rfl)
      (quiet_call rfl rfl (Or.inr (quiet_finished k)))
  | giveUp c k hc =>
    have ha : view s (some c) = .waiting k := view_at hc
    exact giveUp_inLine hs h ha rfl hlost rfl (Or.inr ⟨c, 0, rfl⟩)
      (quiet_call (p := .returned 0) rfl rfl (Or.inr quiet_none))
  | freeCmd c k hc =>
    have ha : view s (some c) = .finished k := view_at hc
    exact h.frame rfl (free_listed (finished_unlisted hw ha)) rfl (Or.inl rfl)
      (quiet_call (p := .testEmpty) rfl rfl (Or.inr quiet_none))
  | wake c =>
    exact h.frame rfl (fun _ _ => rfl) rfl (Or.inr ⟨c, 0, rfl⟩)
      (quiet_call (p := .returned 0) rfl rfl (Or.inr quiet_none))
  | freeRet c k hc =>
    have ha : view s (some c) = .fresh k := view_at hc
    exact h.frame rfl (free_listed (fresh_unlisted hw ha)) rfl (Or.inr ⟨c, 0, rfl⟩)
      (quiet_call (p := .returned 0) rfl rfl (Or.inr quiet_none))
  | callTimeout c k hc =>
    exact h.frame rfl (fun _ _ => rfl) rfl (Or.inl rfl)
      (quiet_call rfl rfl (Or.inl (by rw [hc]; rfl)))
  | startWork =>
    exact h.frame rfl (fun _ _ => rfl) rfl (Or.inl rfl)
      (quiet_work (w := .scan) rfl rfl (Or.inr quiet_none))
  | rest =>
    exact h.frame rfl (fun _ _ => rfl) rfl (Or.inl rfl)
      (quiet_work (w := .idle) rfl rfl (Or.inr quiet_none))
  | claim k hc hk hp =>
    have hserial := serial_claim (a := none) h.serial hk hp
    exact ⟨serial_work (s := s) (w := .clearFlag k) rfl rfl hserial, h.line, h.own⟩
  | clearFlag k hc =>
    have ha : view s none = .claimed k := view_worker hc
    have hserial := serial_clear hw h.serial ha
    have hsame : unsent (s.mgr.setFlags k pushed) s.sent = unsent s.mgr s.sent :=
      unsent_same rfl fun j _ => (pushed_sameUse s.mgr k j).owner
    have hline := h.line
    rw [← hsame] at hline
    exact ⟨serial_work (s := s) (w := .push k) rfl rfl hserial, hline, h.own⟩
  | workPush k hc =>
    have ha : view s none = .pushing k := view_worker hc
    obtain ⟨hhead, hempty⟩ := h.serial.ahead none k (Or.inr ha)
    have hserial := serial_push hw h.serial ha
    exact pushed_inLine h hhead hempty rfl rfl rfl
      (serial_work (s := s) (w := .wait k) rfl rfl hserial)
  | workWakeUp k hc hn =>
    have ha : view s none = .waiting k := view_worker hc
    exact h.frame rfl (modify_listed (waiting_gone hw ha hn).1 _) rfl (Or.inl rfl)
      (quiet_work (w := .freeCmd k) rfl rfl (Or.inr (quiet_finished k)))
  | workGiveUp k hc =>
    have ha : view s none = .waiting k := view_worker hc
    exact giveUp_inLine hs h ha rfl hlost rfl (Or.inl rfl)
      (quiet_work (w := .scan) rfl rfl (Or.inr quiet_none))
  | workFree k hc =>
    have ha : view s none = .finished k := view_worker hc
    exact h.frame rfl (free_listed (finished_unlisted hw ha)) rfl (Or.inl rfl)
      (quiet_work (w := .scan) rfl rfl (Or.inr quiet_none))
  | workTimeout k hc =>
    exact h.frame rfl (fun _ _ => rfl) rfl (Or.inl rfl)
      (quiet_work (w := .timedOut k) rfl rfl (Or.inl (by rw [hc]; rfl)))
  | confirm c param hc =>
    obtain ⟨k, hhead, hsent, hown, hfind⟩ := sent_found hs h.serial hc
    have hnone : s.sent.erase c = [] := by simp [hsent]
    have he := msgind_found (s := { s with sent := s.sent.erase c }) hfind (some c) param
    rw [he]
    exact confirmed_inLine hs h hhead hsent hown rfl (view_still rfl rfl) hnone rfl
  | stray msg param =>
    rcases msgind_cases s msg none param with ⟨he, -⟩ | ⟨k, hk, -⟩
    · rw [he]
      exact h
    · have hreqid := List.find?_some hk
      have hne := hsol k (findCmd_mem hk)
      simp [hne] at hreqid
  | busDown => exact h.frame rfl (fun _ _ => rfl) rfl (Or.inl rfl) fun b => Or.inl rfl

end

/-! ## A call appends its command once -/

def appendedCalls (log : List Ev) : List ℕ :=
  log.filterMap fun
    | .appended c => some c
    | _ => none

def pushedCalls (log : List Ev) : List ℕ :=
  log.filterMap fun
    | .pushed c => some c
    | _ => none

def confirmedCalls (log : List Ev) : List ℕ :=
  log.filterMap fun
    | .confirmed c _ _ => some c
    | _ => none

theorem served_arrival (log : List Ev) :
    (log.filterMap served).filterMap Event.arrival = appendedCalls log := by
  rw [List.filterMap_filterMap, appendedCalls]
  congr 1
  ext e
  cases e <;> rfl

theorem served_start (log : List Ev) :
    (log.filterMap served).filterMap Event.start = pushedCalls log := by
  rw [List.filterMap_filterMap, pushedCalls]
  congr 1
  ext e
  cases e <;> rfl

theorem served_ending (log : List Ev) :
    (log.filterMap served).filterMap Event.ending = confirmedCalls log := by
  rw [List.filterMap_filterMap, confirmedCalls]
  congr 1
  ext e
  cases e <;> rfl

/-- The call has appended its command. -/
def behind : Pc → Bool
  | .push _ | .wait _ | .timedOut _ | .freeCmd _ | .testEmpty | .deferTest _ | .wake
  | .returned _ => true
  | _ => false

structure Once (s : Sys) : Prop where
  nodup : (appendedCalls s.log).Nodup
  behind : ∀ c ∈ appendedCalls s.log, behind (s.pc c) = true

section
variable {s t : Sys}

theorem Once.frame (h : Once s) (hlog : appendedCalls t.log = appendedCalls s.log)
    (hpc : ∀ c, CommandOrder.behind (s.pc c) = true → CommandOrder.behind (t.pc c) = true) :
    Once t where
  nodup := by
    rw [hlog]
    exact h.nodup
  behind := by
    intro c hc
    rw [hlog] at hc
    exact hpc c (h.behind c hc)

theorem Once.call (h : Once s) {c : ℕ} {p : Pc} (hlog : appendedCalls t.log = appendedCalls s.log)
    (hpc : t.pc = Function.update s.pc c p)
    (hp : CommandOrder.behind (s.pc c) = true → CommandOrder.behind p = true) : Once t := by
  apply h.frame hlog
  intro d hd
  by_cases hdc : d = c
  · subst hdc
    simpa [hpc] using hp hd
  · simpa [hpc, hdc] using hd

theorem Once.append (h : Once s) {c k : ℕ} {p : Pc} (hc : s.pc c = .queue k)
    (hlog : t.log = s.log++[.appended c]) (hpc : t.pc = Function.update s.pc c p)
    (hp : CommandOrder.behind p = true) : Once t := by
  have hcalls : appendedCalls t.log = appendedCalls s.log++[c] := by
    rw [hlog, appendedCalls, List.filterMap_append]
    rfl
  have hnew : c ∉ appendedCalls s.log := by
    intro hmem
    have hb := h.behind c hmem
    rw [hc] at hb
    cases hb
  constructor
  · rw [hcalls, ← List.concat_eq_append]
    exact h.nodup.concat hnew
  · intro d hd
    rw [hcalls] at hd
    by_cases hdc : d = c
    · simpa [hpc, hdc] using hp
    · have hold : d ∈ appendedCalls s.log := by simpa [hdc] using hd
      simpa [hpc, hdc] using h.behind d hold

theorem appendedCalls_append {log es : List Ev} (h : appendedCalls es = []) :
    appendedCalls (log++es) = appendedCalls log := by
  unfold appendedCalls at h ⊢
  rw [List.filterMap_append, h, List.append_nil]

theorem msgind_once (h : Once s) (msg : ℕ) (cause : Option ℕ) (param : List UInt8) :
    Once (s.msgind msg cause param) := by
  rcases msgind_cases s msg cause param with ⟨he, -⟩ | ⟨k, -, he⟩ <;> rw [he]
  · exact h
  · have hnone : appendedCalls (answer (s.mgr.cmdArray k) cause param) = [] := by
      unfold answer
      split_ifs <;> rfl
    exact h.frame (appendedCalls_append hnone) fun c hc => hc

theorem jump_behind {c : ℕ} {p : Pc} (hj : Jump s c p) (hb : CommandOrder.behind (s.pc c) = true) :
    CommandOrder.behind p = true := by
  cases hj with
  | notEmpty | short => rfl
  | entry hc | full hc | emptied k hc | sendNoCfm k hc =>
    rw [hc] at hb
    cases hb

theorem move_once {a : Act} (hm : Move s a t) (h : Once s) : Once t := by
  have hret : ∀ c, appendedCalls (s.log++[.returned c 0]) = appendedCalls s.log :=
    fun c => appendedCalls_append rfl
  have hpush : ∀ c, appendedCalls (s.log++[.pushed c]) = appendedCalls s.log :=
    fun c => appendedCalls_append rfl
  cases hm with
  | start c r hc => exact h.call (c := c) (p := .entry) rfl rfl fun hb => by rw [hc] at hb; cases hb
  | poll => exact h
  | jump c p hj => exact h.call rfl rfl (jump_behind hj)
  | leave c => exact h.call (c := c) (p := .returned 0) (hret c) rfl fun _ => rfl
  | malloc c k hc => exact h.call rfl rfl fun hb => by rw [hc] at hb; cases hb
  | refused c k r hc => exact h.call rfl rfl fun hb => by rw [hc] at hb; cases hb
  | direct c k hc => exact h.append hc rfl rfl rfl
  | deferred c k p hc _ _ hp => exact h.append hc rfl rfl (by rcases hp with rfl | rfl <;> rfl)
  | push c k => exact h.call (hpush _) rfl fun _ => rfl
  | wakeUp | freeCmd | callTimeout => exact h.call rfl rfl fun _ => rfl
  | giveUp c | wake c | freeRet c =>
    exact h.call (c := c) (p := .returned 0) (hret c) rfl fun _ => rfl
  | workPush k => exact h.frame (hpush _) fun _ hb => hb
  | startWork | rest | claim | clearFlag | workWakeUp | workGiveUp | workFree | workTimeout
  | busDown => exact h.frame rfl fun _ hb => hb
  | confirm c param =>
    have hsame : Once { s with sent := s.sent.erase c } := h.frame rfl fun _ hb => hb
    exact msgind_once hsame _ _ _
  | stray msg param => exact msgind_once h _ _ _

end

/-! ## Runs in which no command is given up -/

/-- The firmware only confirms what it was given, and no command is given up
before its confirmation. -/
def Orderly (s : Sys) (a : Act) : Prop :=
  Solicited s a ∧ ∀ k ∈ expiring s a, k ∉ s.mgr.cmds

instance (s : Sys) (a : Act) : Decidable (Solicited s a) :=
  match a with
  | .stray id _ => inferInstanceAs (Decidable (∀ k ∈ s.mgr.cmds, (s.mgr.cmdArray k).reqid ≠ id))
  | .start _ _ | .call _ | .callTimeout _ | .startWork | .work | .workTimeout | .confirm _ _
  | .busDown => isTrue trivial

instance (s : Sys) (a : Act) : Decidable (Orderly s a) :=
  inferInstanceAs (Decidable (Solicited s a ∧ ∀ k ∈ expiring s a, k ∉ s.mgr.cmds))

theorem move_lost {s t : Sys} {a : Act} (hm : Move s a t) (ho : Orderly s a)
    (h : s.lost = false) : t.lost = false := by
  cases hm with
  | giveUp c k hc =>
    have hk := ho.2 k (by simp [expiring, hc])
    simp [Sys.giveUp, Sys.ret, Sys.note, Sys.goto, h, hk]
  | workGiveUp k hc =>
    have hk := ho.2 k (by simp [expiring, hc])
    simp [Sys.giveUp, h, hk]
  | confirm c param => rwa [msgind_lost]
  | stray msg param => rwa [msgind_lost]
  | _ => exact h

/-- What holds of the order in which commands are served. -/
structure InOrder (s : Sys) : Prop where
  inFlight : s.sent = [] ∨
    ∃ k, s.mgr.cmds.head? = some k ∧ s.sent = [(s.mgr.cmdArray k).owner]
  waitPush : ∀ k ∈ s.mgr.cmds.tail, (s.mgr.cmdArray k).flags.waitPush = true
  once : (appendedCalls s.log).Nodup
  pushed : appendedCalls s.log = pushedCalls s.log++unsent s.mgr s.sent
  confirmed : pushedCalls s.log = confirmedCalls s.log++s.sent
  own : ∀ c cause param, .confirmed c cause param ∈ s.log → cause = some c

structure Ordered (s : Sys) : Prop where
  sound : Sound s
  lost : s.lost = false
  inLine : InLine s
  once : Once s

theorem init_inLine : InLine init where
  serial := by
    constructor
    · exact Or.inl rfl
    · simp [init]
    · intro b k hb
      rw [view_init] at hb
      rcases hb with hb | hb <;> cases hb
    · intro b k hb
      rw [view_init] at hb
      cases hb
  line := ⟨[], .start⟩
  own := by simp [init]

theorem step_ordered {s t : Sys} {a : Act} (ho : Orderly s a) (h : step s a = some t)
    (hs : Ordered s) : Ordered t := by
  have hm := step_move hs.sound.wf h
  have hlost := move_lost hm ho hs.lost
  exact ⟨step_sound hs.sound h, hlost, move_inLine hs.sound hm ho.1 hlost hs.inLine,
    move_once hm hs.once⟩

theorem ordered_inOrder {s : Sys} (h : Ordered s) : InOrder s := by
  obtain ⟨f, hf⟩ := h.inLine.line
  have harrived := run_arrived hf
  have htaken := run_taken hf
  have hfinished := run_finished hf
  rw [served_arrival] at harrived
  rw [served_start] at htaken
  rw [served_ending] at hfinished
  have hhead : s.sent.head?.toList = s.sent := by
    rcases h.inLine.serial.busy with hs | ⟨k, -, hs, -⟩ <;> rw [hs] <;> rfl
  constructor
  · rcases h.inLine.serial.busy with hs | ⟨k, hk, hs, -⟩
    · exact Or.inl hs
    · exact Or.inr ⟨k, hk, hs⟩
  · exact h.inLine.serial.tail
  · exact h.once.nodup
  · rw [harrived, htaken]
    rfl
  · rw [htaken, hfinished]
    simp only [Line.taken, hhead]
  · exact h.inLine.own

/-- At every moment of every orderly run the commands are served one at a time,
in the order of the list. -/
theorem run_in_order {as : List Act} {s : Sys} (hm : Meets step Orderly init as)
    (h : exec step init as = some s) : InOrder s := by
  have honce : Once init := ⟨List.nodup_nil, by simp [init, appendedCalls]⟩
  have hinit : Ordered init := ⟨init_sound, rfl, init_inLine, honce⟩
  exact ordered_inOrder (exec_invariant (fun s a t ho hs hi => step_ordered ho hs hi) hinit hm h)

/-- Two calls that ask for the same confirmation; the work item sends the second command. -/
def pairRun : List Act :=
  [.start 0 ⟨1, 2, true, false, .sendMsg⟩, .start 1 ⟨1, 2, true, false, .sendMsg1 false⟩,
    .call 0, .call 1, .call 0, .call 1, .call 0, .call 1, .call 0, .confirm 0 [7], .call 1, .call 0,
    .call 0, .call 0, .call 0, .startWork, .work, .work, .work, .confirm 1 [8], .work, .work, .work]

theorem run_in_order_pair : ∃ s, exec step init pairRun = some s ∧ InOrder s ∧
    pushedCalls s.log = [0, 1] ∧ confirmedCalls s.log = [0, 1] := by
  have hrun : exec step init pairRun = some ((exec step init pairRun).get (by decide)) :=
    (Option.some_get _).symm
  exact ⟨_, hrun, run_in_order (by decide) hrun, by decide, by decide⟩

end AIC.CommandOrder
