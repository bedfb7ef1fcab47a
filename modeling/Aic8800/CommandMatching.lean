import Aic8800.CommandAnswer

/-!
# Which command a confirmation is taken for

`cmd_mgr_msgind` takes a message for the first command on the list with its id
that waits for a confirmation, and every command on the list does, pushed or
not. Only the head can have been pushed, and while its own confirmation is to
come the head is what that confirmation finds. So a confirmation finds the wrong
command when its own has left the list, by a time-out, and another one with the
same id is still there.
-/

set_option autoImplicit false

namespace AIC.CommandMatching
open AIC.CommandMachine AIC.CommandSlots AIC.CommandMoves AIC.CommandAnswer Lib.GuardedRun

/-! ## The property and the condition -/

/-- The call whose command is completed, or written a response for. -/
def completed : Ev → Option ℕ
  | .confirmed c _ _ | .wrote c _ => some c
  | _ => none

/-- The call whose command the message confirms. -/
def cause : Act → Option ℕ
  | .confirm c _ => some c
  | _ => none

/-- Whatever the step completes was handed to `aicwf_set_cmd_tx`, and its own
confirmation is the message at hand or has come before. -/
def Rightful (s : Sys) (a : Act) : Prop :=
  ∀ t ∈ step s a, ∀ e ∈ t.log.drop s.log.length, ∀ d ∈ completed e,
    .pushed d ∈ s.log ∧ (cause a = some d ∨ d ∉ s.sent)

def Listed (s : Sys) (c : ℕ) : Prop := ∃ k ∈ s.mgr.cmds, (s.mgr.cmdArray k).owner = c

/-- A confirmation comes while its command is on the list, or when no command
on the list has the same id; no other message has an id waited for. -/
def Timely (s : Sys) : Act → Prop
  | .confirm c _ => c ∈ s.sent →
      Listed s c ∨ ∀ k ∈ s.mgr.cmds, (s.mgr.cmdArray k).reqid ≠ (s.request c).reqid
  | .stray id _ => ∀ k ∈ s.mgr.cmds, (s.mgr.cmdArray k).reqid ≠ id
  | _ => True

/-! ## Only the head was pushed -/

def unallocated : Pc → Bool
  | .idle | .entry | .malloc => true
  | _ => false

/-- The call has not yet queued its command. -/
def early : Pc → Bool
  | .idle | .entry | .malloc | .waitEmpty _ | .queue _ => true
  | _ => false

structure Tracked (s : Sys) : Prop where
  one : ∀ j k, (s.mgr.cmdArray j).used = true → (s.mgr.cmdArray k).used = true →
    (s.mgr.cmdArray j).owner = (s.mgr.cmdArray k).owner → j = k
  begun : ∀ k, (s.mgr.cmdArray k).used = true →
    unallocated (s.pc (s.mgr.cmdArray k).owner) = false
  unpushed : ∀ c, early (s.pc c) = true → .pushed c ∉ s.log
  sent : ∀ c ∈ s.sent, .pushed c ∈ s.log
  head : ∀ k ∈ s.mgr.cmds, .pushed (s.mgr.cmdArray k).owner ∈ s.log →
    s.mgr.cmds.head? = some k ∧ (s.mgr.cmdArray k).owner ∈ s.sent

section
variable {s t : Sys}

theorem Tracked.frame (h : Tracked s)
    (huse : ∀ k, SameUse (s.mgr.cmdArray k) (t.mgr.cmdArray k))
    (halloc : ∀ c, unallocated (t.pc c) = true → unallocated (s.pc c) = true)
    (hearly : ∀ c, early (t.pc c) = true → early (s.pc c) = true)
    (hlog : ∀ c, .pushed c ∈ t.log ↔ .pushed c ∈ s.log) (hsent : ∀ c ∈ t.sent, c ∈ s.sent)
    (hlist : ∀ k ∈ t.mgr.cmds, .pushed (s.mgr.cmdArray k).owner ∈ s.log → k ∈ s.mgr.cmds ∧
      (s.mgr.cmds.head? = some k → t.mgr.cmds.head? = some k) ∧
      ((s.mgr.cmdArray k).owner ∈ s.sent → (s.mgr.cmdArray k).owner ∈ t.sent)) : Tracked t where
  one := by
    intro j k hj hk he
    rw [(huse j).owner, (huse k).owner] at he
    exact h.one j k ((huse j).used hj) ((huse k).used hk) he
  begun := by
    intro k hk
    rw [(huse k).owner]
    have hold := h.begun k ((huse k).used hk)
    cases hu : unallocated (t.pc (s.mgr.cmdArray k).owner) with
    | false => rfl
    | true => rwa [halloc _ hu] at hold
  unpushed := by
    intro c hc
    rw [hlog]
    exact h.unpushed c (hearly c hc)
  sent := by
    intro c hc
    rw [hlog]
    exact h.sent c (hsent c hc)
  head := by
    intro k hk hp
    rw [(huse k).owner, hlog] at hp
    obtain ⟨hmem, hhead, hin⟩ := hlist k hk hp
    obtain ⟨h1, h2⟩ := h.head k hmem hp
    rw [(huse k).owner]
    exact ⟨hhead h1, hin h2⟩

/-- A call that goes to `p` keeps what depends on where it is. -/
theorem kept_call {q : Pc → Bool} {c : ℕ} {p : Pc} (hpc : t.pc = Function.update s.pc c p)
    (hp : q p = true → q (s.pc c) = true) : ∀ d, q (t.pc d) = true → q (s.pc d) = true := by
  intro d hd
  by_cases hdc : d = c
  · subst hdc
    rw [hpc, Function.update_self] at hd
    exact hp hd
  · rwa [hpc, Function.update_of_ne hdc] at hd

/-- Nothing but the place of one call changes. -/
theorem Tracked.goto (h : Tracked s) {c : ℕ} {p : Pc} (hpc : t.pc = Function.update s.pc c p)
    (halloc : unallocated p = true → unallocated (s.pc c) = true)
    (hearly : early p = true → early (s.pc c) = true) (hmgr : t.mgr = s.mgr)
    (hlog : ∀ c, .pushed c ∈ t.log ↔ .pushed c ∈ s.log) (hsent : t.sent = s.sent) : Tracked t := by
  apply h.frame _ (kept_call hpc halloc) (kept_call hpc hearly) hlog
  · rw [hsent]
    exact fun c hc => hc
  · rw [hmgr, hsent]
    exact fun k hk _ => ⟨hk, id, id⟩
  · rw [hmgr]
    exact fun k => sameUse_refl _

/-- Nothing but the slots changes, and the list stays. -/
theorem Tracked.put (h : Tracked s) {m : CmdMgr}
    (huse : ∀ k, SameUse (s.mgr.cmdArray k) (m.cmdArray k)) (hcmds : m.cmds = s.mgr.cmds) :
    Tracked (s.put m) := by
  refine h.frame (t := s.put m) huse (fun _ hc => hc) (fun _ hc => hc) (fun _ => Iff.rfl)
    (fun _ hc => hc) ?_
  intro k hk _
  exact ⟨hcmds ▸ hk, fun hh => hcmds ▸ hh, id⟩

theorem Tracked.work (h : Tracked s) (w : WorkPc) : Tracked { s with worker := w } :=
  ⟨h.one, h.begun, h.unpushed, h.sent, h.head⟩

theorem Tracked.ret (h : Tracked s) (c : ℕ) (r : ℤ) : Tracked (s.ret c r) :=
  h.goto (c := c) (p := .returned r) rfl (by simp [unallocated]) (by simp [early]) rfl
    (by simp [Sys.ret, Sys.note, Sys.goto]) rfl

theorem jump_tracked {c : ℕ} {p : Pc} (h : Tracked s) (hj : Jump s c p) : Tracked (s.goto c p) := by
  refine h.goto (t := s.goto c p) (c := c) (p := p) rfl ?_ ?_ rfl (fun _ => Iff.rfl) rfl
  · cases hj with
    | entry hc => simp [unallocated, hc]
    | emptied k hc =>
      unfold Sys.afterMalloc
      split_ifs <;> simp [unallocated]
    | full | sendNoCfm | notEmpty | short => simp [unallocated]
  · cases hj with
    | entry hc | emptied k hc => simp [early, hc]
    | full | sendNoCfm | notEmpty | short => simp [early]

/-- A new slot, for a call that had none. -/
theorem malloc_tracked (hs : Sound s) (h : Tracked s) {c k : ℕ} (hc : s.pc c = .malloc)
    (hk : (s.mgr.cmdArray k).used = false) :
    Tracked ((s.put (s.mgr.modify k (Sys.initCmd (s.request c) c))).goto c
      (mallocNext (s.request c) k)) := by
  have hmem := ((hs.wf.slots k).free hk).1
  have hother : ∀ j, j ≠ k →
      (s.mgr.modify k (Sys.initCmd (s.request c) c)).cmdArray j = s.mgr.cmdArray j :=
    fun j hj => (keeps_modify _ hj).cmd
  have hnone : ∀ j, (s.mgr.cmdArray j).used = true → (s.mgr.cmdArray j).owner ≠ c := by
    intro j hj he
    have hbegun := h.begun j hj
    rw [he, hc] at hbegun
    cases hbegun
  have hnext : unallocated (mallocNext (s.request c) k) = false := by
    simp only [mallocNext, Sys.afterMalloc]
    split_ifs <;> rfl
  constructor
  · intro i j hi hj he
    simp only [Sys.goto, Sys.put] at hi hj he
    by_cases hik : i = k <;> by_cases hjk : j = k
    · rw [hik, hjk]
    · rw [hik, modify_self, hother j hjk] at he
      rw [hother j hjk] at hj
      exact absurd he.symm (hnone j hj)
    · rw [hjk, modify_self, hother i hik] at he
      rw [hother i hik] at hi
      exact absurd he (hnone i hi)
    · rw [hother i hik] at hi he
      rw [hother j hjk] at hj he
      exact h.one i j hi hj he
  · intro j hj
    simp only [Sys.goto, Sys.put] at hj ⊢
    by_cases hjk : j = k
    · rw [hjk, modify_self]
      simpa [Sys.initCmd] using hnext
    · rw [hother j hjk] at hj ⊢
      rw [Function.update_of_ne (hnone j hj)]
      exact h.begun j hj
  · intro d hd
    by_cases hdc : d = c
    · exact h.unpushed d (by simp [hdc, hc, early])
    · simp only [Sys.goto, Function.update_of_ne hdc] at hd
      exact h.unpushed d hd
  · exact h.sent
  · intro j hj hp
    have hjk : j ≠ k := fun he => hmem (he ▸ hj)
    simp only [Sys.goto, Sys.put, hother j hjk] at hp ⊢
    exact h.head j hj hp

theorem enqueue_tracked (hs : Sound s) (h : Tracked s) {c k : ℕ} (hc : s.pc c = .queue k) (d : Bool) :
    Tracked (s.put (s.mgr.enqueue k d)) := by
  have hown : (s.mgr.cmdArray k).owner = c := hs.owned.holder c k (by rw [hc]; rfl)
  refine h.frame (t := s.put (s.mgr.enqueue k d)) (enqueue_sameUse s.mgr k d) (fun _ hc => hc)
    (fun _ hc => hc) (fun _ => Iff.rfl) (fun _ hc => hc) ?_
  intro j hj hp
  have hjk : j ≠ k := by
    rintro rfl
    rw [hown] at hp
    exact h.unpushed c (by simp [hc, early]) hp
  have hkeep := keeps_enqueue (m := s.mgr) (k := k) d hjk
  exact ⟨hkeep.mem.mp hj, hkeep.head, id⟩

theorem Tracked.note (h : Tracked s) {e : Ev} (he : ∀ c, e ≠ .pushed c) : Tracked (s.note e) := by
  refine h.frame (t := s.note e) (fun _ => sameUse_refl _) (fun _ hc => hc) (fun _ hc => hc) ?_
    (fun _ hc => hc) (fun k hk _ => ⟨hk, id, id⟩)
  intro c
  simp only [Sys.note, List.mem_append, List.mem_singleton, or_iff_left_iff_imp]
  exact fun hc => absurd hc.symm (he c)

/-- The call of a slot that is about to be pushed has queued its command. -/
theorem pushing_late (hs : Sound s) (h : Tracked s) {b : Option ℕ} {k : ℕ}
    (hb : view s b = .pushing k) : early (s.pc (s.mgr.cmdArray k).owner) = false := by
  have hused : (s.mgr.cmdArray k).used = true := (hs.wf.holder hb).1
  have hbegun := h.begun k hused
  have hnot : ∀ j, callStage (s.pc (s.mgr.cmdArray k).owner) ≠ .fresh j := by
    intro j hj
    have hslot : (callStage (s.pc (s.mgr.cmdArray k).owner)).slot = some j := by rw [hj]; rfl
    have hown := hs.owned.holder _ j hslot
    have hjk : j = k := h.one j k (holder_used hs.wf hslot) hused hown
    have hsome : some (s.mgr.cmdArray k).owner = b :=
      hs.wf.sole _ b k (hjk ▸ hslot) (by rw [hb]; rfl)
    have hstage : view s b = .fresh j := by
      rw [← hsome]
      exact hj
    rw [hb] at hstage
    cases hstage
  cases hpc : s.pc (s.mgr.cmdArray k).owner with
  | idle | entry | malloc =>
    rw [hpc] at hbegun
    cases hbegun
  | waitEmpty j | queue j => exact absurd (by rw [hpc]; rfl) (hnot j)
  | sendNoCfm | push | wait | timedOut | freeCmd | testEmpty | deferTest | wake | freeRet |
    returned | oops => rfl

theorem send_tracked (hs : Sound s) (h : Tracked s) {b : Option ℕ} {k : ℕ}
    (hb : view s b = .pushing k) : Tracked (s.send k) where
  one := h.one
  begun := h.begun
  unpushed := by
    intro c hc hp
    rcases List.mem_append.mp hp with hp | hp
    · exact h.unpushed c hc hp
    · obtain rfl : c = (s.mgr.cmdArray k).owner := by simpa using hp
      have hlate := pushing_late hs h hb
      rw [show early (s.pc (s.mgr.cmdArray k).owner) = true from hc] at hlate
      cases hlate
  sent := by
    intro c hc
    rcases List.mem_append.mp hc with hc | hc
    · exact List.mem_append_left _ (h.sent c hc)
    · obtain rfl : c = (s.mgr.cmdArray k).owner := by simpa using hc
      simp [Sys.send, Sys.note]
  head := by
    intro j hj hp
    rcases List.mem_append.mp hp with hp | hp
    · obtain ⟨hhead, hin⟩ := h.head j hj hp
      exact ⟨hhead, List.mem_append_left _ hin⟩
    · have he : (s.mgr.cmdArray j).owner = (s.mgr.cmdArray k).owner := by simpa [Sys.send, Sys.note] using hp
      have hjk : j = k :=
        h.one j k ((hs.wf.slots j).listed hj).1 (hs.wf.holder hb).1 he
      rw [hjk] at hj ⊢
      exact ⟨held_head hs.wf (by rw [hb]; rfl) hj, by simp [Sys.send, Sys.note]⟩

theorem giveUp_tracked (hs : Sound s) (h : Tracked s) {b : Option ℕ} {k : ℕ}
    (hb : view s b = .waiting k) : Tracked (s.giveUp k) := by
  refine h.frame (t := s.giveUp k) (timedOut_sameUse hs.wf hb) (fun _ hc => hc) (fun _ hc => hc)
    (fun _ => Iff.rfl) (fun _ hc => hc) ?_
  intro j hj _
  refine ⟨timedOut_mem hs.wf hb hj, fun hhead => ?_, id⟩
  by_cases hjk : j = k
  · cases hd : (s.mgr.cmdArray k).flags.done with
    | true => simpa [Sys.giveUp, timedOut_done hd] using hhead
    | false =>
      have hmem : k ∈ s.mgr.cmds := List.mem_of_mem_head? (waiting_listed hs.wf hb (Or.inl hd))
      have ht := timedOut_taken (hs.wf.slots k) ((hs.wf.slots k).listed hmem).2.1 hd
      exact absurd (hjk ▸ hj) (ht.unlisted hs.wf.nodup)
  · exact (keeps_timedOut hs.wf hb hjk).head hhead

/-! ## Messages -/

/-- The head of the list takes a message with its id. -/
theorem findCmd_head (hw : Wf s.mgr (view s)) {k id : ℕ} (hk : s.mgr.cmds.head? = some k)
    (hid : (s.mgr.cmdArray k).reqid = id) : s.mgr.findCmd id = some k := by
  have hcfm := ((hw.slots k).listed (List.mem_of_mem_head? hk)).2.1
  cases hc : s.mgr.cmds with
  | nil => simp [hc] at hk
  | cons j l =>
    obtain rfl : j = k := by simpa [hc] using hk
    simp [CmdMgr.findCmd, hc, hid, hcfm]

/-- Every command on the list waits for a confirmation. -/
theorem findCmd_none_iff (hw : Wf s.mgr (view s)) (id : ℕ) :
    s.mgr.findCmd id = none ↔ ∀ k ∈ s.mgr.cmds, (s.mgr.cmdArray k).reqid ≠ id := by
  rw [CmdMgr.findCmd, List.find?_eq_none]
  constructor
  · intro h k hk hid
    exact h k hk (by simp [hid, ((hw.slots k).listed hk).2.1])
  · intro h k hk hfound
    have hboth : (s.mgr.cmdArray k).reqid = id ∧ (s.mgr.cmdArray k).flags.waitCfm = true := by
      simpa using hfound
    exact h k hk hboth.1

theorem listed_reqid (hs : Sound s) {k : ℕ} (hk : k ∈ s.mgr.cmds) :
    (s.mgr.cmdArray k).reqid = (s.request (s.mgr.cmdArray k).owner).reqid :=
  (hs.owned.slot k ((hs.wf.slots k).listed hk).1).2.ident.2.1

/-- While the command of a call that the firmware has is on the list, its
confirmation finds it. -/
theorem findCmd_own (hs : Sound s) (h : Tracked s) {c k : ℕ} (hc : c ∈ s.sent) (hk : k ∈ s.mgr.cmds)
    (hown : (s.mgr.cmdArray k).owner = c) : s.mgr.findCmd (s.request c).reqid = some k := by
  have hpush : .pushed (s.mgr.cmdArray k).owner ∈ s.log := by
    rw [hown]
    exact h.sent c hc
  apply findCmd_head hs.wf (h.head k hk hpush).1
  rw [listed_reqid hs hk, hown]

/-- A message may confirm the command of a call in `sent`, unless that command is
pushed, at the head of the list, and not the one that is found. -/
theorem msgind_tracked (hs : Sound s) (h : Tracked s) (msg : ℕ) (who : Option ℕ)
    (param : List UInt8) {rest : List ℕ} (hrest : ∀ c ∈ rest, c ∈ s.sent)
    (hkept : ∀ k ∈ s.mgr.cmds, (s.mgr.cmdArray k).owner ∈ s.sent → s.mgr.findCmd msg ≠ some k →
      (s.mgr.cmdArray k).owner ∈ rest) :
    Tracked ({ s with sent := rest }.msgind msg who param) := by
  rcases msgind_cases { s with sent := rest } msg who param with ⟨he, hnone⟩ | ⟨j, hj, he⟩ <;>
    rw [he]
  · refine h.frame (t := { s with sent := rest }) (fun _ => sameUse_refl _) (fun _ hc => hc)
      (fun _ hc => hc) (fun _ => Iff.rfl) hrest fun k hk _ => ⟨hk, id, fun hin => ?_⟩
    apply hkept k hk hin
    rw [hnone]
    simp
  · have ht := confirm_taken (hs.wf.slots j)
    have huse : SameUse (s.mgr.cmdArray j) (confirmedCmd (s.mgr.cmdArray j)) :=
      ⟨id, rfl, ⟨rfl, rfl, rfl⟩, id⟩
    have hcmds : (s.mgr.confirm j).cmds = s.mgr.cmds.erase j := ht.cmds
    refine h.frame (t := _) (taken_sameUse ht huse) (fun _ hc => hc) (fun _ hc => hc) ?_ hrest ?_
    · intro c
      simp only [answer]
      split_ifs <;> simp
    · intro k hk _
      have hkj : k ≠ j := by
        rintro rfl
        exact ht.unlisted hs.wf.nodup hk
      rw [hcmds] at hk
      refine ⟨List.mem_of_mem_erase hk, (ht.keeps hkj).head, fun hin => ?_⟩
      apply hkept k (List.mem_of_mem_erase hk) hin
      intro hfound
      exact hkj (Option.some.inj (hfound.symm.trans hj))

theorem move_tracked {a : Act} (hs : Sound s) (hm : Move s a t) (h : Tracked s) : Tracked t := by
  cases hm with
  | start c r hc =>
    exact h.goto (c := c) (p := .entry) rfl (by simp [unallocated, hc]) (by simp [early, hc]) rfl
      (fun _ => Iff.rfl) rfl
  | poll => exact h
  | jump c p hj => exact jump_tracked h hj
  | leave c => exact h.ret c 0
  | malloc c k hc hk => exact malloc_tracked hs h hc hk
  | refused c k r hc =>
    have hput := h.put (setResult_sameUse s.mgr k r) rfl
    exact hput.goto (c := c) (p := .freeRet k) rfl (by simp [unallocated]) (by simp [early]) rfl
      (fun _ => Iff.rfl) rfl
  | direct c k hc =>
    have hput := enqueue_tracked hs h hc false
    have hgoto := hput.goto (t := (s.put (s.mgr.enqueue k false)).goto c (.push k)) (p := .push k) rfl
      (by simp [unallocated]) (by simp [early]) rfl (fun _ => Iff.rfl) rfl
    exact hgoto.note (by simp)
  | deferred c k p hc _ _ hp =>
    have hput := enqueue_tracked hs h hc true
    have hgoto := hput.goto (t := (s.put (s.mgr.enqueue k true)).goto c p) (p := p) rfl
      (by rcases hp with rfl | rfl <;> simp [unallocated])
      (by rcases hp with rfl | rfl <;> simp [early]) rfl (fun _ => Iff.rfl) rfl
    exact hgoto.note (by simp)
  | push c k hc =>
    have hsend := send_tracked hs h (b := some c) (view_at hc)
    exact hsend.goto (c := c) (p := .wait k) rfl (by simp [unallocated]) (by simp [early]) rfl
      (fun _ => Iff.rfl) rfl
  | wakeUp c k hc =>
    have hput := h.put (wakeUp_sameUse s.mgr k) rfl
    exact hput.goto (c := c) (p := .freeCmd k) rfl (by simp [unallocated]) (by simp [early]) rfl
      (fun _ => Iff.rfl) rfl
  | giveUp c k hc => exact (giveUp_tracked hs h (b := some c) (view_at hc)).ret c 0
  | freeCmd c k hc =>
    have hput := h.put (free_sameUse s.mgr k) rfl
    exact hput.goto (c := c) (p := .testEmpty) rfl (by simp [unallocated]) (by simp [early]) rfl
      (fun _ => Iff.rfl) rfl
  | wake c =>
    exact h.goto (c := c) (p := .returned 0) rfl (by simp [unallocated]) (by simp [early]) rfl
      (by simp [Sys.ret, Sys.note, Sys.goto]) rfl
  | freeRet c k => exact (h.put (free_sameUse s.mgr k) rfl).ret c 0
  | callTimeout c k hc =>
    exact h.goto (c := c) (p := .timedOut k) rfl (by simp [unallocated]) (by simp [early]) rfl
      (fun _ => Iff.rfl) rfl
  | clearFlag k => exact (h.put (pushed_sameUse s.mgr k) rfl).work (.push k)
  | workPush k hc => exact (send_tracked hs h (b := none) (view_worker hc)).work (.wait k)
  | workWakeUp k => exact (h.put (wakeUp_sameUse s.mgr k) rfl).work (.freeCmd k)
  | workGiveUp k hc => exact (giveUp_tracked hs h (b := none) (view_worker hc)).work .scan
  | workFree k => exact (h.put (free_sameUse s.mgr k) rfl).work .scan
  | startWork | rest | claim | workTimeout | busDown =>
    exact ⟨h.one, h.begun, h.unpushed, h.sent, h.head⟩
  | confirm c param hc =>
    apply msgind_tracked hs h _ _ _ fun _ hc => List.mem_of_mem_erase hc
    intro k hk hin hnot
    have hne : (s.mgr.cmdArray k).owner ≠ c := fun he => hnot (findCmd_own hs h hc hk he)
    exact (List.mem_erase_of_ne hne).mpr hin
  | stray msg param => exact msgind_tracked hs h msg none param (fun _ hc => hc) fun _ _ hin _ => hin

/-! ## A confirmation and the command it finds -/

/-- Only a message completes a command. -/
theorem move_events {a : Act} (hm : Move s a t) (ha : isMessage a = false) :
    ∀ e ∈ t.log.drop s.log.length, completed e = none := by
  cases hm with
  | confirm | stray => cases ha
  | _ => simp [Sys.goto, Sys.put, Sys.ret, Sys.note, Sys.send, Sys.giveUp, completed]

theorem answer_completed (cmd : RwnxCmd) (who : Option ℕ) (param : List UInt8) (d : ℕ) :
    (∃ e ∈ answer cmd who param, completed e = some d) ↔ cmd.owner = d := by
  simp only [answer]
  split_ifs <;> simp [completed]

/-- A message completes the command that it finds. -/
theorem msgind_events (rest : List ℕ) (msg : ℕ) (who : Option ℕ) (param : List UInt8) (d : ℕ) :
    (∃ e ∈ ({ s with sent := rest }.msgind msg who param).log.drop s.log.length,
        completed e = some d) ↔
      ∃ k, s.mgr.findCmd msg = some k ∧ (s.mgr.cmdArray k).owner = d := by
  rcases msgind_cases { s with sent := rest } msg who param with ⟨he, hnone⟩ | ⟨k, hk, he⟩ <;>
    rw [he]
  · have hnone : s.mgr.findCmd msg = none := hnone
    simp [hnone]
  · have hk : s.mgr.findCmd msg = some k := hk
    simpa [hk] using answer_completed (s.mgr.cmdArray k) who param d

theorem msgind_rightful {a : Act} (rest : List ℕ) (msg : ℕ) (who : Option ℕ) (param : List UInt8)
    (ha : step s a = some ({ s with sent := rest }.msgind msg who param)) :
    Rightful s a ↔ ∀ k, s.mgr.findCmd msg = some k →
      .pushed (s.mgr.cmdArray k).owner ∈ s.log ∧
        (cause a = some (s.mgr.cmdArray k).owner ∨ (s.mgr.cmdArray k).owner ∉ s.sent) := by
  have hevents := msgind_events (s := s) rest msg who param
  constructor
  · intro h k hk
    obtain ⟨e, he, hd⟩ := (hevents (s.mgr.cmdArray k).owner).mpr ⟨k, hk, rfl⟩
    exact h _ ha e he _ hd
  · intro h t ht e he d hd
    obtain rfl := Option.some.inj (ha.symm.trans ht)
    obtain ⟨k, hk, rfl⟩ := (hevents d).mp ⟨e, he, hd⟩
    exact h k hk

theorem rightful_iff_timely (hs : Sound s) (h : Tracked s) (a : Act) :
    Rightful s a ↔ Timely s a := by
  have hin : ∀ k msg, s.mgr.findCmd msg = some k → .pushed (s.mgr.cmdArray k).owner ∈ s.log →
      (s.mgr.cmdArray k).owner ∈ s.sent := fun k msg hk hp => (h.head k (findCmd_mem hk) hp).2
  cases a with
  | confirm c param =>
    by_cases hc : c ∈ s.sent
    · have hstep : step s (.confirm c param) = some ({ s with
          sent := s.sent.erase c }.msgind (s.request c).reqid (some c) param) := by
        simp [step, hc]
      rw [msgind_rightful _ _ _ _ hstep]
      constructor
      · intro hr _
        cases hfind : s.mgr.findCmd (s.request c).reqid with
        | none => exact Or.inr ((findCmd_none_iff hs.wf _).mp hfind)
        | some k =>
          obtain ⟨hp, hcause | hsent⟩ := hr k hfind
          · exact Or.inl ⟨k, findCmd_mem hfind, (Option.some.inj hcause).symm⟩
          · exact absurd (hin k _ hfind hp) hsent
      · intro ht k hk
        rcases ht hc with ⟨j, hj, hown⟩ | hnone
        · obtain rfl : j = k := Option.some.inj ((findCmd_own hs h hc hj hown).symm.trans hk)
          rw [hown]
          exact ⟨h.sent c hc, Or.inl rfl⟩
        · rw [(findCmd_none_iff hs.wf _).mpr hnone] at hk
          cases hk
    · have hstep : step s (.confirm c param) = none := by simp [step, hc]
      simp [Rightful, Timely, hstep, hc]
  | stray msg param =>
    have hstep : step s (.stray msg param) = some ({ s with sent := s.sent }.msgind msg none param) :=
      rfl
    rw [msgind_rightful _ _ _ _ hstep, Timely, ← findCmd_none_iff hs.wf]
    constructor
    · intro hr
      cases hfind : s.mgr.findCmd msg with
      | none => rfl
      | some k =>
        obtain ⟨hp, hcause | hsent⟩ := hr k hfind
        · cases hcause
        · exact absurd (hin k _ hfind hp) hsent
    · intro hnone k hk
      rw [hnone] at hk
      cases hk
  | start | call | callTimeout | startWork | work | workTimeout | busDown =>
    refine ⟨fun _ => trivial, fun _ t ht e he d hd => ?_⟩
    rw [move_events (step_move hs.wf ht) rfl e he] at hd
    cases hd

end

theorem init_tracked : Tracked init := by
  constructor <;> simp [init, initSlot]

/-- In a run, all confirmations are taken by commands that were sent and whose own
confirmations have come, exactly when all of them come in time. -/
theorem run_rightful_iff (as : List Act) :
    Meets step Rightful init as ↔ Meets step Timely init as := by
  have next : ∀ s a t, step s a = some t → Sound s ∧ Tracked s → Sound t ∧ Tracked t :=
    fun s a t hst hi => ⟨step_sound hi.1 hst, move_tracked hi.1 (step_move hi.1.wf hst) hi.2⟩
  exact meets_iff next (fun s a hi => rightful_iff_timely hi.1 hi.2 a) ⟨init_sound, init_tracked⟩ as

/-- Two commands with one id are left to the work item. It sends the first and
waits in vain; then the confirmation of the first comes. -/
def lateRun : List Act :=
  .start 0 ⟨ME_TRAFFIC_IND_REQ, 7, true, false, .sendMsg⟩::
  .start 1 ⟨ME_TRAFFIC_IND_REQ, 7, true, false, .sendMsg⟩::
    List.replicate 5 (.call 0)++List.replicate 4 (.call 1)++
    .startWork::List.replicate 3 .work++[.workTimeout, .work]

def lateState : Sys := (exec step init lateRun).get (by decide +kernel)

def lateEnd : Sys := (step lateState (.confirm 0 [])).get (by decide +kernel)

theorem late_confirmation_misplaced : exec step init lateRun = some lateState ∧
    step lateState (.confirm 0 []) = some lateEnd ∧ .confirmed 1 (some 0) [] ∈ lateEnd.log ∧
      .pushed 1 ∉ lateEnd.log ∧ ¬ Rightful lateState (.confirm 0 []) := by
  have hstep : step lateState (.confirm 0 []) = some lateEnd := (Option.some_get _).symm
  refine ⟨(Option.some_get _).symm, hstep, by decide +kernel, by decide +kernel, fun h => ?_⟩
  have hnew : .confirmed 1 (some 0) [] ∈ lateEnd.log.drop lateState.log.length := by decide +kernel
  have hpush : .pushed 1 ∉ lateState.log := by decide +kernel
  exact hpush (h lateEnd hstep _ hnew 1 rfl).1

end AIC.CommandMatching
