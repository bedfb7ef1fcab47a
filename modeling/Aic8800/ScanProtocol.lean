import Aic8800.ScanMachine

/-!
# Each scan request is answered once

A request is in `scan_request` until the confirmation of its firmware scan or an
abort takes it out. Outside these two the record is left alone as long as no
step of a scan fails behind it, no scan starts over one that runs, and an abort
neither meets a sched scan nor lets a confirmation in.
-/

set_option autoImplicit false

namespace AIC.ScanProtocol
open AIC.ScanMachine Lib.GuardedRun

/-- What cfg80211 and the driver's own flags rely on. -/
structure Completed (s : Machine) : Prop where
  /-- An accepted request has been reported once, or will be by a confirmation on its way. -/
  accepted : ∀ id < s.next, (s.req id).kind = .regular → (s.req id).answer = .accepted →
    (s.req id).done = 1 ∨
      (s.req id).done = 0 ∧ s.scanRequest = some id ∧ s.outstanding ≠ []
  rejected : ∀ id < s.next, (s.req id).kind = .regular → (s.req id).answer = .rejected →
    (s.req id).done = 0 ∧ s.scanRequest ≠ some id
  sched : ∀ id < s.next, (s.req id).kind = .sched → (s.req id).done = 0 ∧
    ((s.req id).freed = 1 ∨ (s.req id).freed = 0 ∧ s.scanRequest = some id ∧
      (s.phase = .idle → .sched ∈ s.outstanding))
  scanning : s.phase = .idle → s.scanning = true → s.outstanding ≠ []
  isSched : s.phase = .idle → s.isSched = true → .sched ∈ s.outstanding
  alive : s.oops = false

/-- The request in `scan_request` is not that of a sched scan on this interface. -/
def NoSched (s : Machine) (wdev : ℕ) : Prop :=
  ∀ id ∈ s.scanRequest, (s.req id).wdev = wdev → (s.req id).kind = .regular

def Sound (s : Machine) : Act → Prop
  | .scan _ busy alloc => busy = false → s.scanning = false → s.scanRequest = none ∧ alloc = true
  | .schedScanStart _ kmalloc busy alloc => s.isSched = false → s.scanning = false →
      kmalloc = true ∧ busy = false ∧ s.scanRequest = none ∧ alloc = true
  | .send ok => ok = true
  | .close wdev | .stopP2pDevice wdev => NoSched s wdev
  | .changeIface wdev up alloc => up = true → NoSched s wdev ∧
      ∀ id ∈ s.scanRequest, (s.req id).wdev = wdev → alloc = true
  | .startCfm _ => s.phase ≠ .cancel
  | _ => True

instance (s : Machine) (wdev : ℕ) : Decidable (NoSched s wdev) :=
  inferInstanceAs (Decidable (∀ id ∈ s.scanRequest, _ → _))

instance (s : Machine) (a : Act) : Decidable (Sound s a) := by
  cases a <;> dsimp only [Sound] <;> infer_instance

/-! ## The invariant -/

/-- What is recorded of a request, by whether it is the one in `scan_request`. -/
def Kept (s : Machine) (id : ℕ) : Prop :=
  match (s.req id).kind with
  | .regular =>
    if s.scanRequest = some id then (s.req id).answer ≠ .rejected ∧
      (s.req id).done = if s.phase = .cancel then 1 else 0
    else (s.req id).done = if (s.req id).answer = .rejected then 0 else 1
  | .sched => (s.req id).done = 0 ∧ (s.req id).freed = if s.scanRequest = some id then 0 else 1

/-- SCANU_START_REQ has still to be sent. -/
def Unsent (s : Machine) : Prop := ∃ id todo, s.phase = .scan id todo ∧ .start ∈ todo

structure Inv (s : Machine) : Prop where
  alive : s.oops = false
  bound : ∀ id ∈ s.scanRequest, id < s.next
  isSched : s.isSched = true ↔ ∃ id ∈ s.scanRequest, (s.req id).kind = .sched
  kept : ∀ id < s.next, Kept s id
  building : ∀ id todo, s.phase = .scan id todo →
    id < s.next ∧ (s.req id).answer = .pending ∧ ∀ j ∈ s.scanRequest, j = id
  canceling : s.phase = .cancel → ∃ id ∈ s.scanRequest, (s.req id).kind = .regular
  live : ∀ id ∈ s.scanRequest, Unsent s ∨ (s.req id).kind ∈ s.outstanding
  scanning : s.scanning = true → Unsent s ∨ s.outstanding ≠ []

theorem init_inv : Inv init where
  alive := rfl
  bound := by simp [init]
  isSched := by simp [init]
  kept := by simp [init]
  building := by simp [init]
  canceling := by simp [init]
  live := by simp [init]
  scanning := by simp [init]

theorem unsent_not_idle {s : Machine} (h : s.phase = .idle) : ¬ Unsent s := by
  rintro ⟨id, todo, hphase, -⟩
  rw [h] at hphase
  cases hphase

theorem Inv.completed {s : Machine} (h : Inv s) : Completed s := by
  have hsched : s.phase = .idle → s.isSched = true → .sched ∈ s.outstanding := by
    intro hidle hs
    obtain ⟨id, hid, hkind⟩ := h.isSched.mp hs
    exact hkind ▸ (h.live id hid).resolve_left (unsent_not_idle hidle)
  constructor
  · intro id hid hkind hanswer
    have hkept := h.kept id hid
    simp only [Kept, hkind, hanswer] at hkept
    by_cases hcur : s.scanRequest = some id
    · rw [if_pos hcur] at hkept
      by_cases hcancel : s.phase = .cancel
      · exact Or.inl (by simpa [hcancel] using hkept.2)
      refine Or.inr ⟨by simpa [hcancel] using hkept.2, hcur, ?_⟩
      rcases h.live id hcur with ⟨j, todo, hphase, -⟩ | hmem
      · obtain ⟨-, hpending, hall⟩ := h.building j todo hphase
        rw [← hall id hcur, hanswer] at hpending
        cases hpending
      · exact List.ne_nil_of_mem hmem
    · exact Or.inl (by simpa [hcur] using hkept)
  · intro id hid hkind hanswer
    have hkept := h.kept id hid
    simp only [Kept, hkind, hanswer] at hkept
    by_cases hcur : s.scanRequest = some id
    · simp [hcur] at hkept
    · exact ⟨by simpa [hcur] using hkept, hcur⟩
  · intro id hid hkind
    have hkept := h.kept id hid
    simp only [Kept, hkind] at hkept
    refine ⟨hkept.1, ?_⟩
    by_cases hcur : s.scanRequest = some id
    · rw [if_pos hcur] at hkept
      exact Or.inr ⟨hkept.2, hcur, fun hidle => hsched hidle (h.isSched.mpr ⟨id, hcur, hkind⟩)⟩
    · rw [if_neg hcur] at hkept
      exact Or.inl hkept.2
  · intro hidle hscan
    exact (h.scanning hscan).resolve_left (unsent_not_idle hidle)
  · exact hsched
  · exact h.alive

/-! ## The operations -/

section Operations
variable {s t : Machine}

theorem kept_frame {id : ℕ} (h : Kept s id) (hreq : t.req id = s.req id)
    (hcur : t.scanRequest = some id ↔ s.scanRequest = some id)
    (hphase : s.scanRequest = some id → (t.phase = .cancel ↔ s.phase = .cancel)) : Kept t id := by
  unfold Kept at h ⊢
  rw [hreq]
  by_cases hid : s.scanRequest = some id
  · simpa only [hcur, hphase hid] using h
  · simpa only [hcur, hid, if_false] using h

theorem newReq_old (s : Machine) (kind : Kind) (wdev : ℕ) {id : ℕ} (h : id < s.next) :
    (s.newReq kind wdev).req id = s.req id :=
  Function.update_of_ne (Nat.ne_of_lt h) _ _

/-- A request that is rejected at once. -/
theorem turnedDown_inv (h : Inv s) (hidle : s.phase = .idle) (wdev : ℕ) :
    Inv ((s.newReq .regular wdev).answered s.next .rejected) := by
  have hreq : ∀ {id}, id < s.next → ((s.newReq .regular wdev).answered s.next .rejected).req id =
      s.req id := fun hid =>
    (Function.update_of_ne (Nat.ne_of_lt hid) _ _).trans (newReq_old s .regular wdev hid)
  constructor
  · exact h.alive
  · exact fun id hid => Nat.lt_succ_of_lt (h.bound id hid)
  · refine h.isSched.trans ⟨?_, ?_⟩
    · rintro ⟨id, hid, hkind⟩
      exact ⟨id, hid, (hreq (h.bound id hid)).symm ▸ hkind⟩
    · rintro ⟨id, hid, hkind⟩
      exact ⟨id, hid, hreq (h.bound id hid) ▸ hkind⟩
  · intro id hid
    rcases Nat.lt_succ_iff_lt_or_eq.mp hid with hid | rfl
    · apply kept_frame (h.kept id hid) (hreq hid) Iff.rfl
      simp [Machine.answered, hidle]
    · have hother : s.scanRequest ≠ some s.next := fun hcur => Nat.lt_irrefl _ (h.bound _ hcur)
      simp [Kept, Machine.answered, Machine.setReq, Machine.newReq, hother]
  · intro id todo hphase
    cases hphase
  · intro hphase
    cases hphase
  · intro id hid
    rw [hreq (h.bound id hid)]
    exact Or.inr ((h.live id hid).resolve_left (unsent_not_idle hidle))
  · exact fun hscan => Or.inr ((h.scanning hscan).resolve_left (unsent_not_idle hidle))

/-- A request takes the place that is free. -/
theorem begin_inv (h : Inv s) (hnone : s.scanRequest = none) (kind : Kind) (p : Params) :
    Inv { s.newReq kind p.wdev with
      isSched := decide (kind = .sched), scanRequest := some s.next, scanning := true
      phase := .scan s.next p.messages } := by
  have hunsent : Msg.start ∈ p.messages := by simp [Params.messages]
  have hnew : (s.newReq kind p.wdev).req s.next = ⟨kind, p.wdev, .pending, 0, 0⟩ :=
    Function.update_self ..
  constructor
  · exact h.alive
  · intro id hid
    obtain rfl := Option.some.inj hid
    exact Nat.lt_succ_self _
  · simp [hnew]
  · intro id hid
    rcases Nat.lt_succ_iff_lt_or_eq.mp hid with hid | rfl
    · apply kept_frame (h.kept id hid)
      · exact newReq_old s kind p.wdev hid
      · simp [hnone, (Nat.ne_of_lt hid).symm]
      · simp [hnone]
    · cases kind <;> simp [Kept, hnew]
  · rintro id todo hphase
    obtain ⟨rfl, rfl⟩ := Phase.scan.inj hphase
    exact ⟨Nat.lt_succ_self _, by simp [hnew], fun j hj => (Option.some.inj hj).symm⟩
  · intro hphase
    cases hphase
  · exact fun _ _ => Or.inl ⟨_, _, rfl, hunsent⟩
  · exact fun _ => Or.inl ⟨_, _, rfl, hunsent⟩

theorem scan_inv (h : Inv s) (hidle : s.phase = .idle) {p : Params} {busy alloc : Bool}
    (hs : Sound s (.scan p busy alloc)) : Inv (s.scan p busy alloc) := by
  unfold Machine.scan Machine.cfg80211Scan
  split_ifs with hbusy halloc
  · exact turnedDown_inv h hidle p.wdev
  · obtain ⟨hnone, -⟩ := hs (by simp_all) (by simp_all [Machine.newReq])
    have hsched : s.isSched = false := by
      rw [← Bool.not_eq_true, h.isSched]
      simp [hnone]
    have hbegin := begin_inv h hnone .regular p
    simpa [Machine.newReq, hsched] using hbegin
  · exact absurd (hs (by simp_all) (by simp_all [Machine.newReq])).2 halloc

theorem schedScanStart_inv (h : Inv s) {p : Params} {kmalloc busy alloc : Bool}
    (hs : Sound s (.schedScanStart p kmalloc busy alloc)) :
    Inv (s.schedScanStart p kmalloc busy alloc) := by
  unfold Machine.schedScanStart
  split_ifs with hrun hmalloc
  · exact h
  · have := hs (by simp_all) (by simp_all)
    simp_all
  · obtain ⟨-, rfl, hnone, rfl⟩ := hs (by simp_all) (by simp_all)
    have hscan : s.scanning = false := by simp_all
    have hbegin := begin_inv h hnone .sched p
    simpa [Machine.cfg80211Scan, Machine.newReq, hscan] using hbegin

/-- A message is sent, the last one starts a firmware scan. -/
theorem sent_inv (h : Inv s) {id : ℕ} {m : Msg} {todo : List Msg} (hphase : s.phase = .scan id (m::todo))
    {out : List Kind} (hout : out = if m = .start then (s.req id).kind::s.outstanding else s.outstanding) :
    Inv { s with outstanding := out, phase := .scan id todo } := by
  obtain ⟨hid, hpending, hall⟩ := h.building id _ hphase
  have hsub : ∀ {k}, k ∈ s.outstanding → k ∈ out := by
    intro k hk
    rw [hout]
    split_ifs
    · exact List.mem_cons_of_mem _ hk
    · exact hk
  have hstart : Unsent s → Unsent { s with outstanding := out, phase := .scan id todo } ∨
      (s.req id).kind ∈ out := by
    rintro ⟨j, l, hl, hmem⟩
    obtain ⟨rfl, rfl⟩ := Phase.scan.inj (hphase.symm.trans hl)
    rcases List.mem_cons.mp hmem with rfl | hmem
    · exact Or.inr (by simp [hout])
    · exact Or.inl ⟨id, todo, rfl, hmem⟩
  constructor
  · exact h.alive
  · exact h.bound
  · exact h.isSched
  · intro j hj
    apply kept_frame (h.kept j hj)
    · rfl
    · rfl
    · simp [hphase]
  · intro j l hl
    obtain ⟨rfl, rfl⟩ := Phase.scan.inj hl
    exact ⟨hid, hpending, hall⟩
  · intro hcancel
    cases hcancel
  · intro j hj
    obtain rfl := hall j hj
    rcases h.live j hj with hu | hmem
    · exact hstart hu
    · exact Or.inr (hsub hmem)
  · intro hscan
    rcases h.scanning hscan with hu | hne
    · exact (hstart hu).imp_right List.ne_nil_of_mem
    · obtain ⟨k, hk⟩ := List.exists_mem_of_ne_nil _ hne
      exact Or.inr (List.ne_nil_of_mem (hsub hk))

theorem send_inv (h : Inv s) (ht : s.send true = some t) : Inv t := by
  unfold Machine.send at ht
  split at ht
  · rename_i id todo hphase
    obtain rfl := Option.some.inj ht
    exact sent_inv h hphase rfl
  · rename_i id m todo hstart hphase
    obtain rfl := Option.some.inj ht
    exact sent_inv h hphase (by rw [if_neg hstart])
  · cases ht

theorem scanReturns_inv (h : Inv s) {id : ℕ} (hphase : s.phase = .scan id []) :
    Inv (s.answered id .accepted) := by
  obtain ⟨hid, hpending, hall⟩ := h.building id [] hphase
  have hsent : ¬ Unsent s := by
    rintro ⟨j, l, hl, hmem⟩
    obtain ⟨rfl, rfl⟩ := Phase.scan.inj (hphase.symm.trans hl)
    cases hmem
  have hkind : ∀ j, ((s.answered id .accepted).req j).kind = (s.req j).kind := by
    intro j
    by_cases hj : j = id
    · simp [Machine.answered, Machine.setReq, hj]
    · simp [Machine.answered, Machine.setReq, hj]
  constructor
  · exact h.alive
  · exact h.bound
  · simp only [hkind]
    exact h.isSched
  · intro j hj
    by_cases heq : j = id
    · obtain rfl := heq
      have hkept := h.kept j hj
      unfold Kept at hkept ⊢
      simp only [Machine.answered, Machine.setReq, Function.update_self]
      by_cases hcur : s.scanRequest = some j
      · cases hkind : (s.req j).kind <;> simpa [hpending, hphase, hkind, hcur] using hkept
      · cases hkind : (s.req j).kind <;> simpa [hpending, hkind, hcur] using hkept
    · apply kept_frame (h.kept j hj)
      · exact Function.update_of_ne heq _ _
      · rfl
      · simp [Machine.answered, hphase]
  · intro j l hl
    cases hl
  · intro hcancel
    cases hcancel
  · intro j hj
    rw [hkind]
    exact Or.inr ((h.live j hj).resolve_left hsent)
  · exact fun hscan => Or.inr ((h.scanning hscan).resolve_left hsent)

/-- The request leaves `scan_request`, reported or freed. -/
theorem taken_inv (h : Inv s) {id : ℕ} (hcur : s.scanRequest = some id)
    (ht : t.scanRequest = none) (hreq : ∀ j, j ≠ id → t.req j = s.req j) (hnext : t.next = s.next)
    (hkept : Kept t id) (hsched : t.isSched = false) (halive : t.oops = false)
    (hbuilding : ∀ j todo, t.phase = .scan j todo → s.phase = .scan j todo ∧
      (t.req j).answer = (s.req j).answer)
    (hcancel : t.phase ≠ .cancel)
    (hscan : t.scanning = true → Unsent t ∨ t.outstanding ≠ []) : Inv t := by
  constructor
  · exact halive
  · simp [ht]
  · simp [ht, hsched]
  · intro j hj
    by_cases heq : j = id
    · exact heq ▸ hkept
    · apply kept_frame (h.kept j (hnext ▸ hj)) (hreq j heq)
      · simp [ht, hcur, Ne.symm heq]
      · simp [hcur, Ne.symm heq]
  · intro j todo hphase
    obtain ⟨hphase, hanswer⟩ := hbuilding j todo hphase
    obtain ⟨hlt, hpending, -⟩ := h.building j todo hphase
    exact ⟨hnext ▸ hlt, hanswer.trans hpending, by simp [ht]⟩
  · exact fun hphase => absurd hphase hcancel
  · simp [ht]
  · exact hscan

/-- A regular request in `scan_request` is not reported yet. -/
theorem current_regular (h : Inv s) {id : ℕ} (hcur : s.scanRequest = some id)
    (hkind : (s.req id).kind = .regular) : s.isSched = false ∧ (s.req id).answer ≠ .rejected ∧
      (s.req id).done = if s.phase = .cancel then 1 else 0 := by
  have hkept := h.kept id (h.bound id hcur)
  simp only [Kept, hkind, hcur, if_true] at hkept
  refine ⟨?_, hkept⟩
  rw [← Bool.not_eq_true, h.isSched]
  rintro ⟨j, hj, hsched⟩
  obtain rfl := Option.some.inj (hcur.symm.trans hj)
  rw [hkind] at hsched
  cases hsched

theorem abort_inv (h : Inv s) (hidle : s.phase = .idle) {wdev : ℕ} (hs : NoSched s wdev) :
    Inv (s.abort wdev) := by
  unfold Machine.abort
  split
  · rename_i id hcur
    split_ifs with hwdev
    · have hkind := hs id hcur hwdev
      obtain ⟨hsched, hanswer, hdone⟩ := current_regular h hcur hkind
      apply taken_inv h hcur
      · rfl
      · exact fun j hj => Function.update_of_ne hj _ _
      · rfl
      · simp [Kept, Machine.scanDone, Machine.setReq, hkind, hanswer, hdone, hidle]
      · exact hsched
      · exact h.alive
      · intro j todo hphase
        cases hidle.symm.trans hphase
      · intro hcancel
        cases hidle.symm.trans hcancel
      · exact h.scanning
    · exact h
  · exact h

/-- The interface that closes need not be the one that scans. -/
theorem quiet_inv (h : Inv s) : Inv { s with scanning := false } where
  alive := h.alive
  bound := h.bound
  isSched := h.isSched
  kept := h.kept
  building := h.building
  canceling := h.canceling
  live := h.live
  scanning := fun hscan => by cases hscan

theorem changeIface_inv (h : Inv s) (hidle : s.phase = .idle) {wdev : ℕ} {up alloc : Bool}
    (hs : Sound s (.changeIface wdev up alloc)) : Inv (s.changeIface wdev up alloc) := by
  unfold Machine.changeIface
  split
  · rename_i id hcur
    split_ifs with hmine halloc
    · obtain ⟨hup, hwdev⟩ := hmine
      have hkind := (hs hup).1 id hcur hwdev
      obtain ⟨hsched, hanswer, hdone⟩ := current_regular h hcur hkind
      have hsame : ∀ j, ((s.scanDone id).req j).kind = (s.req j).kind := by
        intro j
        by_cases hj : j = id
        · simp [Machine.scanDone, Machine.setReq, hj]
        · simp [Machine.scanDone, Machine.setReq, hj]
      have hlive : ∀ j ∈ s.scanRequest, (s.req j).kind ∈ s.outstanding :=
        fun j hj => (h.live j hj).resolve_left (unsent_not_idle hidle)
      constructor
      · exact h.alive
      · exact h.bound
      · simp only [hsame]
        exact h.isSched
      · intro j hj
        by_cases heq : j = id
        · obtain rfl := heq
          simp [Kept, Machine.scanDone, Machine.setReq, hkind, hcur, hanswer, hdone, hidle]
        · apply kept_frame (h.kept j hj)
          · exact Function.update_of_ne heq _ _
          · rfl
          · simp [hcur, Ne.symm heq]
      · intro j todo hphase
        cases hphase
      · exact fun _ => ⟨id, hcur, (hsame id).trans hkind⟩
      · exact fun j hj => Or.inr ((hsame j).symm ▸ hlive j hj)
      · exact fun hscan => Or.inr ((h.scanning hscan).resolve_left (unsent_not_idle hidle))
    · exact absurd ((hs hmine.1).2 id hcur hmine.2) halloc
    · exact h
  · exact h

theorem cancelCfm_inv (h : Inv s) (hphase : s.phase = .cancel) :
    Inv { s with scanRequest := none, phase := .idle } := by
  obtain ⟨id, hcur, hkind⟩ := h.canceling hphase
  obtain ⟨hsched, hanswer, hdone⟩ := current_regular h hcur hkind
  have hsent : ¬ Unsent s := by
    rintro ⟨j, l, hl, -⟩
    rw [hphase] at hl
    cases hl
  apply taken_inv h hcur
  · rfl
  · exact fun _ _ => rfl
  · rfl
  · simp [Kept, hkind, hanswer, hdone, hphase]
  · exact hsched
  · exact h.alive
  · intro j todo hscan
    cases hscan
  · exact fun hcancel => by cases hcancel
  · exact fun hscan => Or.inr ((h.scanning hscan).resolve_left hsent)

theorem startCfm_inv (h : Inv s) (hphase : s.phase ≠ .cancel) (k : Kind) :
    Inv (s.startCfm k) := by
  unfold Machine.startCfm
  split
  · rename_i id hcur
    cases hkind : (s.req id).kind with
    | regular =>
      obtain ⟨hsched, hanswer, hdone⟩ := current_regular h hcur hkind
      rw [if_neg (by simp [hsched])]
      apply taken_inv h hcur
      · rfl
      · exact fun j hj => Function.update_of_ne hj _ _
      · rfl
      · simp [Kept, Machine.scanDone, Machine.setReq, hkind, hanswer, hdone, hphase]
      · rfl
      · exact h.alive
      · intro j todo hscan
        refine ⟨hscan, ?_⟩
        by_cases hj : j = id
        · simp [Machine.scanDone, Machine.setReq, hj]
        · simp [Machine.scanDone, Machine.setReq, hj]
      · exact hphase
      · exact fun hscan => by cases hscan
    | sched =>
      have hsched : s.isSched = true := h.isSched.mpr ⟨id, hcur, hkind⟩
      have hkept := h.kept id (h.bound id hcur)
      simp only [Kept, hkind, hcur, if_true] at hkept
      rw [if_pos hsched]
      apply taken_inv h hcur
      · rfl
      · exact fun j hj => Function.update_of_ne hj _ _
      · rfl
      · simp [Kept, Machine.kfree, Machine.setReq, hkind, hkept]
      · rfl
      · exact h.alive
      · intro j todo hscan
        refine ⟨hscan, ?_⟩
        by_cases hj : j = id
        · simp [Machine.kfree, Machine.setReq, hj]
        · simp [Machine.kfree, Machine.setReq, hj]
      · exact hphase
      · exact fun hscan => by cases hscan
  · rename_i hnone
    have hsched : s.isSched = false := by
      rw [← Bool.not_eq_true, h.isSched]
      simp [hnone]
    rw [if_neg (by simp [hsched])]
    constructor
    · exact h.alive
    · simp
    · simp
    · intro j hj
      apply kept_frame (h.kept j hj)
      · rfl
      · simp [hnone]
      · exact fun _ => Iff.rfl
    · intro j todo hscan
      obtain ⟨hlt, hpending, -⟩ := h.building j todo hscan
      exact ⟨hlt, hpending, by simp⟩
    · exact fun hcancel => absurd hcancel hphase
    · simp
    · exact fun hscan => by cases hscan

theorem step_inv {a : Act} (hs : Sound s a) (ht : step s a = some t) (h : Inv s) : Inv t := by
  unfold step at ht
  rw [if_neg (by simp [h.alive])] at ht
  split at ht
  case h_1 hidle =>
    obtain rfl := Option.some.inj ht
    exact scan_inv h hidle hs
  case h_2 =>
    obtain rfl := Option.some.inj ht
    exact schedScanStart_inv h hs
  case h_3 =>
    obtain rfl := Option.some.inj ht
    exact h
  case h_4 =>
    obtain rfl : _ = true := hs
    exact send_inv h ht
  case h_5 hphase =>
    obtain rfl := Option.some.inj ht
    exact scanReturns_inv h hphase
  case h_6 hidle =>
    obtain rfl := Option.some.inj ht
    exact abort_inv (quiet_inv h) hidle hs
  case h_7 hidle =>
    obtain rfl := Option.some.inj ht
    exact changeIface_inv h hidle hs
  case h_8 hphase =>
    obtain rfl := Option.some.inj ht
    exact cancelCfm_inv h hphase
  case h_9 hidle =>
    obtain rfl := Option.some.inj ht
    exact abort_inv h hidle hs
  case h_10 =>
    split_ifs at ht
    obtain rfl := Option.some.inj ht
    exact startCfm_inv h hs _
  case h_11 => cases ht

end Operations

/-- In a run whose steps meet the condition, requests are answered as promised in every state. -/
theorem run_completed {as : List Act} (h : Meets step Sound init as) :
    Throughout step Completed init as :=
  throughout_of_meets (fun _ _ _ hs ht hi => step_inv hs ht hi) (fun _ hi => hi.completed)
    init_inv h

/-- A scan that ends, one that a change of the interface type aborts, and a sched scan. -/
def sampleRun : List Act :=
  [.scan ⟨0, false, true⟩ false true, .send true, .send true, .scanReturns, .startCfm .regular,
    .scan ⟨1, true, false⟩ false true, .send true, .send true, .scanReturns,
    .changeIface 1 true true, .cancelCfm, .startCfm .regular,
    .schedScanStart ⟨0, false, false⟩ true false true, .send true, .scanReturns, .schedScanStop,
    .startCfm .sched, .close 0]

theorem run_completed_sample : Throughout step Completed init sampleRun :=
  run_completed (by decide)

/-- The vendor elements cannot be allocated. -/
def rejectedRun : List Act := [.scan ⟨0, false, true⟩ false true, .send false]

/-- The scan ends while `rwnx_cfg80211_change_iface` waits. -/
def twiceRun : List Act :=
  [.scan ⟨0, false, false⟩ false true, .send true, .scanReturns, .changeIface 0 true true,
    .startCfm .regular]

/-- A rejected request stays in place, and an accepted one is reported twice. -/
theorem scan_not_completed :
    (∃ s, exec step init rejectedRun = some s ∧ ¬ Completed s) ∧
      ∃ s, exec step init twiceRun = some s ∧ ¬ Completed s := by
  constructor
  · refine ⟨_, rfl, fun h => ?_⟩
    exact (h.rejected 0 (by decide) rfl rfl).2 rfl
  · refine ⟨_, rfl, fun h => ?_⟩
    have hdone := h.accepted 0 (by decide) rfl rfl
    revert hdone
    decide

end AIC.ScanProtocol
