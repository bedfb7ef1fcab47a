import Aic8800.ChannelSwitch

/-!
# A channel switch is announced and ended, or was never begun

A call that returns an error leaves nothing behind, the work of a csa runs once, and the access
point goes on with the beacon promised for after the switch.
-/

set_option autoImplicit false

namespace AIC.ChannelSwitch
open Lib.GuardedRun BeaconBuild

/-! ## What is allocated -/

def live (heap : Heap) : ℤ := heap.made-heap.freed

def held (part : Part) : ℤ := if part.isSome then 1 else 0

def holds (bcn : RwnxBcn) : ℤ := held bcn.head+held bcn.tail+held bcn.ies

/-! ## What a switch is to do -/

def queued (s : State) : ℕ := if ∃ csa ∈ s.csa, csa.work = .pending then 1 else 0

/-- A beacon with a TIM element between its parts. -/
def beaconOf (dtim : UInt8) (parts : BeaconData) : List UInt8 :=
  parts.head.getD []++[WLAN_EID_TIM, 4, 0, dtim, 0, 0]++parts.tail.getD []

/-- The record has the beacon for after the switch, so that an update that lacks a part of it gives
that part again. -/
structure Switched (s : State) : Prop where
  head : s.bcn.head = s.after.head
  tail : s.bcn.tail = s.after.tail
  dtim : s.bcn.dtim = s.dtim
  rebuilt : ∀ f new, ∀ buf ∈ (buildBcn f s.heap s.bcn new).buf,
    buf = beaconOf s.dtim ⟨new.head.or s.after.head, new.tail.or s.after.tail⟩

structure Right (s : State) : Prop where
  kept : ∀ error before, s.last = some (.refused error before) →
    s.bcn = before.bcn ∧ s.csa = before.csa ∧ live s.heap = live before.heap
  once : s.runs+queued s ≤ 1
  ends : s.call = none → s.told = true → ∀ csa ∈ s.csa,
    csa.work = .pending ∨ s.running.isSome = true
  alive : s.lost = false
  switched : s.last = some .switched → Switched s

/-! ## When it does -/

/-- Behind the first buffer no request fails, and nothing else but with the record unchanged and
the csa not yet allocated. -/
def SendSafe (s : State) (p : CsaSettings) (f : Fails) : Prop :=
  match f.bcn with
  | .noMsg => False
  | .failed => Unchanged s.bcn p.beaconCsa
  | .ok =>
    if f.csa then Unchanged s.bcn p.beaconCsa
    else BuildOk f.after .blank p.beaconAfter ∧ f.bcnAfter = .ok

def CallSafe (s : State) (p : CsaSettings) (f : Fails) : Prop :=
  s.csa = none → p.counterOffsetsBeacon.length ≤ BCN_MAX_CSA_CPT →
    BuildSafe f.build s.bcn p.beaconCsa ∧
      (BuildOk f.build s.bcn p.beaconCsa → SendSafe s p f)

def Safe (s : State) : Act → Prop
  | .startAp .. | .changeBeacon .. => True
  | .stopAp => s.call = none → ∀ csa ∈ s.csa, csa.work ≠ .pending ∧ s.running = none
  | .channelSwitch p f => s.call = none → CallSafe s p f
  | .answer r => ∀ c ∈ s.call,
    if r = .ok then s.told = false else Unchanged c.before.bcn c.params.beaconCsa
  | .csaFinishInd _ => s.running = none
  | .beginFinish alloc => ∀ csa ∈ s.csa, csa.work = .pending → s.running = none → alloc = true
  | .csaFinish bcn change => s.running = some 0 → bcn = .ok ∧
    (change = .ok → s.bcn.head = s.after.head ∧ s.bcn.tail = s.after.tail)

/-! ## Allocations of the parts -/

section Live
variable {heap : Heap} {part new old : Part} {bcn : RwnxBcn} {f : BuildFails} {data : BeaconData}

@[simp] theorem live_kmalloc : live heap.kmalloc = live heap+1 := by
  simp only [live, Heap.kmalloc]
  omega

@[simp] theorem live_kfree : live heap.kfree = live heap-1 := by
  simp only [live, Heap.kfree]
  omega

@[simp] theorem live_drop : live (heap.drop part) = live heap-held part := by
  unfold Heap.drop held
  split <;> simp

theorem live_put : live (heap.put new old) = live heap+held (new.or old)-held old := by
  unfold Heap.put
  cases new with
  | none => simp
  | some part => simp [held]

theorem live_sent (r : Sent) : live (r.heap heap) = live heap-(if r = .noMsg then 0 else 1) := by
  unfold Sent.heap
  split <;> simp

theorem held_nonneg : 0 ≤ held part := by
  unfold held
  split <;> decide

theorem holds_nonneg : 0 ≤ holds bcn := by
  have hhead : 0 ≤ held bcn.head := held_nonneg
  have htail : 0 ≤ held bcn.tail := held_nonneg
  have hies : 0 ≤ held bcn.ies := held_nonneg
  unfold holds
  omega

theorem holds_putHead :
    holds (bcn.putHead data) = holds bcn+held (data.head.or bcn.head)-held bcn.head := by
  unfold RwnxBcn.putHead holds
  cases data.head with
  | none => simp
  | some head =>
    simp only [Option.some_or]
    omega

theorem holds_putTail :
    holds (bcn.putTail data) = holds bcn+held (data.tail.or bcn.tail)-held bcn.tail := by
  unfold RwnxBcn.putTail holds
  cases data.tail with
  | none => simp
  | some tail =>
    simp only [Option.some_or]
    omega

@[simp] theorem holds_measured : holds bcn.measured = holds bcn := rfl

variable (f heap bcn data) in
/-- What a call allocates and does not free is in the record or is the buffer. -/
theorem live_buildBcn : live (buildBcn f heap bcn data).heap =
    live heap+holds (buildBcn f heap bcn data).bcn-holds bcn+
      held (buildBcn f heap bcn data).buf := by
  have hhead : live (heap.put data.head bcn.head) =
      live heap+holds (bcn.putHead data)-holds bcn := by
    rw [live_put, holds_putHead]
    omega
  have htail : live ((heap.put data.head bcn.head).put data.tail (bcn.putHead data).tail) =
      live heap+holds ((bcn.putHead data).putTail data)-holds bcn := by
    rw [live_put, holds_putTail, hhead]
    omega
  unfold buildBcn
  dsimp only
  split_ifs
  · simp [held]
  · simp [held, hhead]
  · simp [held, htail]
  · simp [held, htail]
  · simp [held, htail]

theorem live_delBcn : live (delBcn heap bcn).1 = live heap-holds bcn := by
  simp only [delBcn, live_drop, holds]
  omega

end Live

/-! ## Between the actions -/

/-- A call between its requests: the record is that of the announcement, and the csa is all it
allocated besides. -/
structure Calling (s : State) (c : Call) : Prop where
  csa : c.before.csa = none
  fits : Fits c.before.bcn
  idle : s.running = none
  bcn : s.bcn = updated c.before.bcn c.params.beaconCsa
  heap : ∀ csa ∈ s.csa,
    live s.heap = live c.before.heap+holds s.bcn-holds c.before.bcn+holds csa.bcn+1
  some : s.csa.isSome = true

structure Base (s : State) : Prop where
  fits : Fits s.bcn
  ies : s.bcn.ies = none
  dtim : s.bcn.dtim = s.dtim
  zeroed : ∀ csa ∈ s.csa, csa.work = .zeroed ↔ s.call.isSome = true
  fresh : ∀ csa ∈ s.csa, s.running = none → s.runs = 0
  running : s.running.isSome = true → s.csa.isSome = true ∧ s.runs = 1
  told : s.told = false → s.running = none ∧ ∀ csa ∈ s.csa, csa.work ≠ .pending
  calling : ∀ c ∈ s.call, Calling s c

section Actions
variable {s : State}

theorem queued_none (h : s.csa = none) : queued s = 0 := by
  unfold queued
  rw [h]
  exact if_neg fun ⟨csa, hcsa, _⟩ => absurd hcsa (Option.not_mem_none csa)

theorem queued_le : queued s ≤ 1 := by
  unfold queued
  split <;> decide

theorem queued_some {csa : RwnxCsa} (h : s.csa = some csa) :
    queued s = if csa.work = .pending then 1 else 0 := by
  unfold queued
  rw [h]
  simp

/-- A call that returns an error is right exactly if it left record and allocations alone. -/
theorem refuse_right_iff (hr : Right s) {error : Errno} {bcn : RwnxBcn} {heap : Heap}
    {fw : List UInt8} :
    Right (s.refuse error bcn heap fw) ↔ bcn = s.bcn ∧ live heap = live s.heap := by
  constructor
  · intro h
    obtain ⟨hbcn, -, hlive⟩ := h.kept error s.before rfl
    exact ⟨hbcn, hlive⟩
  · rintro ⟨hbcn, hlive⟩
    refine ⟨fun e before h => ?_, hr.once, hr.ends, hr.alive, nofun⟩
    obtain ⟨-, rfl⟩ := Event.refused.inj (Option.some.inj h)
    exact ⟨hbcn, rfl, hlive⟩

theorem refuse_base (hb : Base s) (hcall : s.call = none) {error : Errno} {bcn : RwnxBcn}
    {heap : Heap} {fw : List UInt8} (h : Right (s.refuse error bcn heap fw)) :
    Base (s.refuse error bcn heap fw) := by
  obtain ⟨rfl, -⟩ := h.kept error s.before rfl
  exact ⟨hb.fits, hb.ies, hb.dtim, hb.zeroed, hb.fresh, hb.running, hb.told,
    fun c hc => absurd (hcall ▸ hc) (Option.not_mem_none c)⟩

/-! ### The announcement -/

/-- Behind both buffers. -/
theorem announceAfter_right_iff (hr : Right s) {p : CsaSettings} {f : Fails} {bcn : RwnxBcn}
    {heap : Heap} {fw : List UInt8}
    (hheap : live heap = live s.heap+holds bcn-holds s.bcn+1) :
    Right (s.announceAfter p f bcn fw (buildBcn f.after heap .blank p.beaconAfter)) ↔
      BuildOk f.after .blank p.beaconAfter ∧ f.bcnAfter = .ok := by
  have hlive := live_buildBcn heap .blank f.after p.beaconAfter
  have hblank : holds .blank = 0 := rfl
  have hparts : 0 ≤ holds (buildBcn f.after heap .blank p.beaconAfter).bcn := holds_nonneg
  unfold State.announceAfter
  cases hbuf : (buildBcn f.after heap .blank p.beaconAfter).buf with
  | none =>
    rw [hbuf, hheap, hblank] at hlive
    have hheld : held none = 0 := rfl
    dsimp only
    rw [refuse_right_iff hr]
    constructor
    · rintro ⟨rfl, hsame⟩
      omega
    · rintro ⟨hok, -⟩
      rw [buildBcn_ok hok] at hbuf
      cases hbuf
  | some buf =>
    rw [hbuf, hheap, hblank] at hlive
    have hheld : held (some buf) = 1 := rfl
    dsimp only
    split_ifs with hsent
    · rw [refuse_right_iff hr, live_sent]
      constructor
      · rintro ⟨rfl, hsame⟩
        split at hsame <;> omega
      · rintro ⟨-, hok⟩
        exact absurd hok hsent
    · have hok : f.bcnAfter = .ok := not_not.mp hsent
      refine ⟨fun _ => ⟨(buildBcn_some hbuf).1, hok⟩, fun _ => ?_⟩
      exact ⟨fun _ _ => nofun, by simp [queued], nofun, hr.alive, nofun⟩

/-- Behind the first buffer. -/
theorem announceBcn_right_iff (hr : Right s) (hfits : Fits s.bcn) {p : CsaSettings} {f : Fails} :
    Right (s.announceBcn p f (buildBcn f.build s.heap s.bcn p.beaconCsa)) ↔
      BuildSafe f.build s.bcn p.beaconCsa ∧
        (BuildOk f.build s.bcn p.beaconCsa → SendSafe s p f) := by
  have hlive := live_buildBcn s.heap s.bcn f.build p.beaconCsa
  have hsafe : BuildSafe f.build s.bcn p.beaconCsa ↔
      ((buildBcn f.build s.heap s.bcn p.beaconCsa).buf = none →
        (buildBcn f.build s.heap s.bcn p.beaconCsa).bcn = s.bcn) := hfits.safe_iff
  unfold State.announceBcn
  rw [hsafe]
  cases hbuf : (buildBcn f.build s.heap s.bcn p.beaconCsa).buf with
  | none =>
    rw [hbuf] at hlive
    have hheld : held none = 0 := rfl
    dsimp only
    rw [refuse_right_iff hr]
    constructor
    · rintro ⟨hbcn, -⟩
      refine ⟨fun _ => hbcn, fun hok => ?_⟩
      rw [buildBcn_ok hok] at hbuf
      cases hbuf
    · rintro ⟨hkept, -⟩
      have hbcn : (buildBcn f.build s.heap s.bcn p.beaconCsa).bcn = s.bcn := hkept rfl
      rw [hbcn] at hlive
      exact ⟨hbcn, by omega⟩
  | some buf =>
    obtain ⟨hok, hupdated, -⟩ := buildBcn_some hbuf
    rw [hbuf] at hlive
    have hheld : held (some buf) = 1 := rfl
    have hunchanged : updated s.bcn p.beaconCsa = s.bcn ↔ Unchanged s.bcn p.beaconCsa :=
      hfits.updated_eq_iff
    have hdrop : (some buf = none → (buildBcn f.build s.heap s.bcn p.beaconCsa).bcn = s.bcn) ∧
        (BuildOk f.build s.bcn p.beaconCsa → SendSafe s p f) ↔ SendSafe s p f :=
      ⟨fun h => h.2 hok, fun h => ⟨nofun, fun _ => h⟩⟩
    rw [hdrop, SendSafe]
    dsimp only
    cases hsent : f.bcn with
    | noMsg =>
      rw [if_pos (by decide), refuse_right_iff hr, live_sent, if_pos rfl]
      refine ⟨fun ⟨hbcn, hsame⟩ => ?_, False.elim⟩
      rw [hbcn] at hlive
      omega
    | failed =>
      rw [if_pos (by decide), refuse_right_iff hr, live_sent, if_neg (by decide), ← hunchanged,
        ← hupdated]
      refine ⟨And.left, fun hbcn => ⟨hbcn, ?_⟩⟩
      rw [hbcn] at hlive
      omega
    | ok =>
      rw [if_neg (by decide)]
      cases f.csa with
      | true =>
        rw [if_pos rfl, if_pos rfl, refuse_right_iff hr, live_sent, if_neg (by decide),
          ← hunchanged, ← hupdated]
        refine ⟨And.left, fun hbcn => ⟨hbcn, ?_⟩⟩
        rw [hbcn] at hlive
        omega
      | false =>
        rw [if_neg (by decide), if_neg (by decide)]
        refine announceAfter_right_iff hr ?_
        rw [live_kmalloc, live_sent, if_neg (by decide)]
        omega

theorem channelSwitch_right_iff (hr : Right s) (hfits : Fits s.bcn) {p : CsaSettings} {f : Fails} :
    Right (s.channelSwitch p f) ↔ CallSafe s p f := by
  unfold State.channelSwitch CallSafe
  split_ifs with hcsa hmany
  · rw [refuse_right_iff hr]
    refine ⟨fun _ hnone => ?_, fun _ => ⟨rfl, rfl⟩⟩
    rw [hnone] at hcsa
    cases hcsa
  · rw [refuse_right_iff hr]
    exact ⟨fun _ _ hfew => absurd hmany (not_lt.mpr hfew), fun _ => ⟨rfl, rfl⟩⟩
  · rw [announceBcn_right_iff hr hfits]
    exact ⟨fun h _ _ => h, fun h => h (by simpa using hcsa) (not_lt.mp hmany)⟩

theorem Base.idle (hb : Base s) (hcsa : s.csa = none) : s.running = none := by
  by_contra hrunning
  have hsome : s.csa.isSome = true := (hb.running (Option.isSome_iff_ne_none.mpr hrunning)).1
  rw [hcsa] at hsome
  cases hsome

theorem announceAfter_base (hb : Base s) (hcall : s.call = none) (hcsa : s.csa = none)
    {p : CsaSettings} {f : Fails} {heap : Heap} {fw : List UInt8}
    (hheap : live heap = live s.heap+holds (updated s.bcn p.beaconCsa)-holds s.bcn+1)
    (h : Right (s.announceAfter p f (updated s.bcn p.beaconCsa) fw
      (buildBcn f.after heap .blank p.beaconAfter))) :
    Base (s.announceAfter p f (updated s.bcn p.beaconCsa) fw
      (buildBcn f.after heap .blank p.beaconAfter)) := by
  have hlive := live_buildBcn heap .blank f.after p.beaconAfter
  have hblank : holds .blank = 0 := rfl
  have hidle : s.running = none := hb.idle hcsa
  obtain ⟨hies, hdtim⟩ : (updated s.bcn p.beaconCsa).ies = s.bcn.ies ∧
    (updated s.bcn p.beaconCsa).dtim = s.bcn.dtim := updated_ies
  unfold State.announceAfter at h ⊢
  cases hbuf : (buildBcn f.after heap .blank p.beaconAfter).buf with
  | none =>
    rw [hbuf] at h
    exact refuse_base hb hcall h
  | some buf =>
    rw [hbuf] at h hlive
    have hheld : held (some buf) = 1 := rfl
    dsimp only at h ⊢
    split_ifs at h ⊢ with hsent
    · exact refuse_base hb hcall h
    · refine ⟨hb.fits.putHead.putTail.measured, hies.trans hb.ies, hdtim.trans hb.dtim, ?_, ?_, ?_,
        ?_, ?_⟩
      · rintro csa ⟨⟩
        exact iff_of_true rfl rfl
      · exact fun _ _ _ => rfl
      · intro hrunning
        rw [show s.running = none from hidle] at hrunning
        cases hrunning
      · refine fun _ => ⟨hidle, ?_⟩
        rintro csa ⟨⟩
        simp
      · rintro c ⟨⟩
        refine ⟨hcsa, hb.fits, hidle, rfl, ?_, rfl⟩
        rintro csa ⟨⟩
        rw [live_sent, if_neg (fun hno => hsent (by rw [hno]; decide))]
        simp only [State.before]
        omega

theorem announceBcn_base (hb : Base s) (hcall : s.call = none) (hcsa : s.csa = none)
    {p : CsaSettings} {f : Fails}
    (h : Right (s.announceBcn p f (buildBcn f.build s.heap s.bcn p.beaconCsa))) :
    Base (s.announceBcn p f (buildBcn f.build s.heap s.bcn p.beaconCsa)) := by
  have hlive := live_buildBcn s.heap s.bcn f.build p.beaconCsa
  unfold State.announceBcn at h ⊢
  cases hbuf : (buildBcn f.build s.heap s.bcn p.beaconCsa).buf with
  | none =>
    rw [hbuf] at h
    exact refuse_base hb hcall h
  | some buf =>
    obtain ⟨-, hupdated, -⟩ := buildBcn_some hbuf
    rw [hbuf, hupdated] at hlive
    have hheld : held (some buf) = 1 := rfl
    rw [hbuf, hupdated] at h
    rw [hupdated]
    dsimp only at h ⊢
    split_ifs at h ⊢ with hsent hfail
    · exact refuse_base hb hcall h
    · exact refuse_base hb hcall h
    · refine announceAfter_base hb hcall hcsa ?_ h
      rw [live_kmalloc, live_sent, if_neg (fun hno => hsent (by rw [hno]; decide))]
      omega

theorem channelSwitch_base (hb : Base s) (hcall : s.call = none) {p : CsaSettings} {f : Fails}
    (h : Right (s.channelSwitch p f)) : Base (s.channelSwitch p f) := by
  unfold State.channelSwitch at h ⊢
  split_ifs at h ⊢ with hcsa hmany
  · exact refuse_base hb hcall h
  · exact refuse_base hb hcall h
  · exact announceBcn_base hb hcall (by simpa using hcsa) h

/-! ### The answer -/

theorem answer_right_iff (hb : Base s) (hr : Right s) {c : Call} (hc : s.call = some c)
    (r : Sent) : Right (s.answer c r) ↔
      if r = .ok then s.told = false else Unchanged c.before.bcn c.params.beaconCsa := by
  have hcalling : Calling s c := hb.calling c hc
  obtain ⟨csa, hcsa⟩ := Option.isSome_iff_exists.mp hcalling.some
  have hzeroed : csa.work = .zeroed := (hb.zeroed csa hcsa).mpr (by rw [hc]; rfl)
  have hruns : s.runs = 0 := hb.fresh csa hcsa hcalling.idle
  unfold State.answer
  split_ifs with hok
  · constructor
    · intro h
      by_contra htold
      have hready := h.ends rfl (by simpa using htold) { csa with work := .ready }
        (by rw [hcsa]; rfl)
      rw [show s.running = none from hcalling.idle] at hready
      simp at hready
    · intro htold
      refine ⟨fun _ _ => nofun, ?_, fun _ h => ?_, hr.alive, nofun⟩
      · rw [show queued _ = 0 from (queued_some (by rw [hcsa]; rfl)).trans (if_neg (by simp))]
        exact hruns.le.trans (Nat.zero_le 1)
      · exact absurd (htold.symm.trans h) (by decide)
  · have hunchanged : s.bcn = c.before.bcn ↔ Unchanged c.before.bcn c.params.beaconCsa := by
      rw [hcalling.bcn]
      exact hcalling.fits.updated_eq_iff
    have hheap := hcalling.heap csa hcsa
    rw [← hunchanged]
    unfold State.delCsa
    rw [hcsa]
    dsimp only
    constructor
    · exact fun h => (h.kept .send c.before rfl).1
    · intro hbcn
      refine ⟨fun e before h => ?_, ?_, fun _ _ => nofun, ?_, nofun⟩
      · obtain ⟨-, rfl⟩ := Event.refused.inj (Option.some.inj h)
        refine ⟨hbcn, hcalling.csa.symm, ?_⟩
        simp only [live_kfree, live_delBcn]
        rw [hbcn] at hheap
        omega
      · rw [queued_none rfl]
        exact hruns.le.trans (Nat.zero_le 1)
      · simp [hr.alive, hzeroed, hcalling.idle]

theorem answer_base (hb : Base s) {c : Call} (hc : s.call = some c) (r : Sent) :
    Base (s.answer c r) := by
  have hcalling : Calling s c := hb.calling c hc
  obtain ⟨csa, hcsa⟩ := Option.isSome_iff_exists.mp hcalling.some
  have hruns : s.runs = 0 := hb.fresh csa hcsa hcalling.idle
  unfold State.answer
  split_ifs with hok
  · refine ⟨hb.fits, hb.ies, hb.dtim, ?_, fun _ _ _ => hruns, ?_, fun _ => ⟨hcalling.idle, ?_⟩,
      fun c hc => absurd hc (Option.not_mem_none c)⟩
    · rw [hcsa]
      rintro csa ⟨⟩
      exact iff_of_false (by simp) (by simp)
    · intro hrunning
      rw [show s.running = none from hcalling.idle] at hrunning
      cases hrunning
    · rw [hcsa]
      rintro csa ⟨⟩
      simp
  · unfold State.delCsa
    rw [hcsa]
    refine ⟨hb.fits, hb.ies, hb.dtim, ?_, ?_, ?_, fun _ => ⟨hcalling.idle, ?_⟩, ?_⟩
    · exact fun x hx => absurd hx (Option.not_mem_none x)
    · exact fun x hx => absurd hx (Option.not_mem_none x)
    · intro hrunning
      rw [show s.running = none from hcalling.idle] at hrunning
      cases hrunning
    · exact fun x hx => absurd hx (Option.not_mem_none x)
    · exact fun x hx => absurd hx (Option.not_mem_none x)

/-! ### The indication and its work -/

theorem csaFinishInd_none (hcsa : s.csa = none) (status : ℤ) :
    s.csaFinishInd status = { s with last := none } := by
  unfold State.csaFinishInd
  rw [hcsa]

theorem csaFinishInd_some {csa : RwnxCsa} (hcsa : s.csa = some csa) (status : ℤ) :
    s.csaFinishInd status = { s with
      csa := some { csa with
        status := status
        work := if csa.work = .zeroed then .zeroed else .pending }
      told := true
      last := none } := by
  unfold State.csaFinishInd
  rw [hcsa]

theorem csaFinishInd_right_iff (hb : Base s) (hr : Right s) (status : ℤ) :
    Right (s.csaFinishInd status) ↔ s.running = none := by
  cases hcsa : s.csa with
  | none =>
    rw [csaFinishInd_none hcsa]
    exact iff_of_true ⟨fun _ _ => nofun, hr.once, hr.ends, hr.alive, nofun⟩ (hb.idle hcsa)
  | some csa =>
    rw [csaFinishInd_some hcsa]
    constructor
    · intro h
      by_contra hrunning
      have hruns : s.runs = 1 := (hb.running (Option.isSome_iff_ne_none.mpr hrunning)).2
      have hready : csa.work ≠ .zeroed := by
        intro hzeroed
        obtain ⟨c, hc⟩ := Option.isSome_iff_exists.mp ((hb.zeroed csa hcsa).mp hzeroed)
        exact hrunning (hb.calling c hc).idle
      have honce := h.once
      rw [queued_some rfl, if_pos (if_neg hready), hruns] at honce
      exact absurd honce (by decide)
    · intro hidle
      have hruns : s.runs = 0 := hb.fresh csa hcsa hidle
      refine ⟨fun _ _ => nofun, ?_, fun hcall _ => ?_, hr.alive, nofun⟩
      · rw [show s.runs = 0 from hruns, Nat.zero_add]
        exact queued_le
      · rintro csa' ⟨⟩
        have hready : csa.work ≠ .zeroed := by
          intro hzeroed
          have hsome : s.call.isSome = true := (hb.zeroed csa hcsa).mp hzeroed
          rw [show s.call = none from hcall] at hsome
          cases hsome
        exact .inl (if_neg hready)

theorem csaFinishInd_base (hb : Base s) (status : ℤ) : Base (s.csaFinishInd status) := by
  cases hcsa : s.csa with
  | none =>
    rw [csaFinishInd_none hcsa]
    exact ⟨hb.fits, hb.ies, hb.dtim, hb.zeroed, hb.fresh, hb.running, hb.told, fun c hc =>
      absurd (hb.calling c hc).some (by rw [hcsa]; decide)⟩
  | some csa =>
    rw [csaFinishInd_some hcsa]
    refine ⟨hb.fits, hb.ies, hb.dtim, ?_, ?_, fun h => ⟨rfl, (hb.running h).2⟩, nofun, ?_⟩
    · rintro csa' ⟨⟩
      rw [← hb.zeroed csa hcsa]
      split_ifs with hzeroed
      · exact iff_of_true rfl hzeroed
      · exact iff_of_false (by simp) hzeroed
    · rintro csa' ⟨⟩
      exact hb.fresh csa hcsa
    · intro c hc
      have hcalling : Calling s c := hb.calling c hc
      refine ⟨hcalling.csa, hcalling.fits, hcalling.idle, hcalling.bcn, ?_, rfl⟩
      rintro csa' ⟨⟩
      exact hcalling.heap csa hcsa

theorem beginFinish_right_iff (hb : Base s) (hr : Right s) {csa : RwnxCsa} (hcsa : s.csa = some csa)
    (hpending : csa.work = .pending) (hidle : s.running = none) (alloc : Bool) :
    Right (s.beginFinish csa alloc) ↔ alloc = true := by
  have hruns : s.runs = 0 := hb.fresh csa hcsa hidle
  have hcall : s.call = none := by
    by_contra hcall
    have hzeroed := (hb.zeroed csa hcsa).mpr (Option.isSome_iff_ne_none.mpr hcall)
    rw [hpending] at hzeroed
    cases hzeroed
  have htold : s.told = true := by
    by_contra htold
    exact (hb.told (by simpa using htold)).2 csa hcsa hpending
  unfold State.beginFinish
  cases alloc with
  | false =>
    refine iff_of_false (fun h => ?_) (by decide)
    simpa using h.ends hcall htold _ rfl
  | true =>
    refine iff_of_true ⟨fun _ _ => nofun, ?_, fun _ _ _ _ => .inr rfl, hr.alive, nofun⟩ rfl
    rw [queued_some rfl, hruns]
    simp

theorem beginFinish_base (hb : Base s) {csa : RwnxCsa} (hcsa : s.csa = some csa)
    (hpending : csa.work = .pending) (hidle : s.running = none) :
    Base (s.beginFinish csa true) := by
  have hruns : s.runs = 0 := hb.fresh csa hcsa hidle
  have hcall : ¬ s.call.isSome = true := by
    intro hcall
    have hzeroed := (hb.zeroed csa hcsa).mpr hcall
    rw [hpending] at hzeroed
    cases hzeroed
  have htold : s.told ≠ false := fun htold => (hb.told htold).2 csa hcsa hpending
  refine ⟨hb.fits, hb.ies, hb.dtim, ?_, fun _ _ => nofun, fun _ => ⟨rfl, ?_⟩,
    fun h => absurd h htold, fun c hc => absurd (Option.isSome_of_mem hc) hcall⟩
  · rintro csa' ⟨⟩
    exact iff_of_false (by simp) hcall
  · show s.runs+1 = 1
    rw [hruns]

/-! ### The end of the switch -/

theorem updated_parts (bcn : RwnxBcn) (new : BeaconData) :
    (updated bcn new).head = new.head.or bcn.head ∧
      (updated bcn new).tail = new.tail.or bcn.tail := by
  constructor
  · exact putTail_head.trans putHead_head
  · exact putTail_tail.trans (congrArg new.tail.or putHead_tail)

/-- A record with the parts that were promised has the beacon for after the switch. -/
theorem Base.switched_iff (hb : Base s) :
    Switched s ↔ s.bcn.head = s.after.head ∧ s.bcn.tail = s.after.tail := by
  refine ⟨fun h => ⟨h.head, h.tail⟩, fun ⟨hhead, htail⟩ => ⟨hhead, htail, hb.dtim, ?_⟩⟩
  intro f new buf hbuf
  obtain ⟨-, -, rfl⟩ := buildBcn_some hbuf
  have hfits : Fits ((s.bcn.putHead new).putTail new) := hb.fits.putHead.putTail
  have hframe : (updated s.bcn new).copied = frame (updated s.bcn new) := hfits.copied.1
  obtain ⟨hies, hdtim⟩ : (updated s.bcn new).ies = s.bcn.ies ∧
    (updated s.bcn new).dtim = s.bcn.dtim := updated_ies
  obtain ⟨hnewHead, hnewTail⟩ := updated_parts s.bcn new
  rw [hframe, frame, hnewHead, hnewTail, hies, hb.ies, hdtim, hb.dtim, hhead, htail]
  exact List.append_nil _

/-- A work that gets past its first request frees the csa. -/
theorem csaFinish_ended {csa : RwnxCsa} (hcsa : s.csa = some csa) {status : ℤ} {bcn : Sent}
    (change : Sent) (hsent : status = 0 → bcn = .ok) :
    ∃ heap fw, s.csaFinish csa status bcn change =
      { s with
        csa := none
        running := none
        heap := heap
        fw := fw
        lost := s.lost || csa.work = .pending
        last := if status = 0 ∧ change = .ok then some .switched else none } := by
  by_cases hstatus : status = 0
  · obtain rfl := hsent hstatus
    refine ⟨(delBcn (Sent.ok.heap s.heap) csa.bcn).1.kfree, csa.bcn.copied, ?_⟩
    simp [State.csaFinish, State.delCsa, hcsa, hstatus, Sent.beacon]
  · refine ⟨(delBcn s.heap csa.bcn).1.kfree, s.fw, ?_⟩
    simp [State.csaFinish, State.delCsa, hcsa, hstatus]

theorem Base.not_calling (hb : Base s) (hrunning : s.running ≠ none) : s.call = none := by
  by_contra hcall
  obtain ⟨c, hc⟩ := Option.ne_none_iff_exists'.mp hcall
  exact hrunning (hb.calling c hc).idle

theorem csaFinish_base (hb : Base s) {csa : RwnxCsa} (hcsa : s.csa = some csa) {status : ℤ}
    (hstatus : s.running = some status) {bcn : Sent} (change : Sent)
    (hsent : status = 0 → bcn = .ok) :
    Base (s.csaFinish csa status bcn change) := by
  have hcall : s.call = none := hb.not_calling (by rw [hstatus]; nofun)
  obtain ⟨heap, fw, hended⟩ := csaFinish_ended hcsa change hsent
  rw [hended]
  refine ⟨hb.fits, hb.ies, hb.dtim, ?_, ?_, nofun, fun _ => ⟨rfl, ?_⟩, ?_⟩
  · exact fun x hx => absurd hx (Option.not_mem_none x)
  · exact fun x hx => absurd hx (Option.not_mem_none x)
  · exact fun x hx => absurd hx (Option.not_mem_none x)
  · exact fun c hc => absurd (hcall ▸ hc) (Option.not_mem_none c)

theorem csaFinish_right_iff (hb : Base s) (hr : Right s) {csa : RwnxCsa} (hcsa : s.csa = some csa)
    {status : ℤ} (hstatus : s.running = some status) (bcn change : Sent) :
    Right (s.csaFinish csa status bcn change) ↔ (status = 0 → bcn = .ok ∧
      (change = .ok → s.bcn.head = s.after.head ∧ s.bcn.tail = s.after.tail)) := by
  have hruns : s.runs = 1 := (hb.running (by rw [hstatus]; rfl)).2
  have hready : csa.work ≠ .pending := by
    intro hpending
    have honce := hr.once
    rw [queued_some hcsa, if_pos hpending, hruns] at honce
    exact absurd honce (by decide)
  by_cases hsent : status = 0 → bcn = .ok
  · have hbase := csaFinish_base hb hcsa hstatus change hsent
    obtain ⟨heap, fw, hended⟩ := csaFinish_ended hcsa change hsent
    rw [hended] at hbase ⊢
    constructor
    · intro h hzero
      refine ⟨hsent hzero, fun hok => ?_⟩
      exact hbase.switched_iff.mp (h.switched (if_pos ⟨hzero, hok⟩))
    · intro h
      refine ⟨fun e before hlast => ?_, ?_, fun _ _ => ?_, ?_, fun hlast => ?_⟩
      · dsimp only at hlast
        split at hlast <;> cases hlast
      · rw [queued_none rfl]
        exact hruns.le
      · exact fun x hx => absurd hx (Option.not_mem_none x)
      · simp [hr.alive, hready]
      · by_cases hok : status = 0 ∧ change = .ok
        · exact hbase.switched_iff.mpr ((h hok.1).2 hok.2)
        · rw [if_neg hok] at hlast
          cases hlast
  · obtain ⟨hzero, hno⟩ := Classical.not_imp.mp hsent
    refine iff_of_false (fun h => ?_) fun h => hsent fun hz => (h hz).1
    have hcall : s.call = none := hb.not_calling (by rw [hstatus]; nofun)
    have htold : s.told = true := by
      by_contra htold
      have hidle := (hb.told (by simpa using htold)).1
      rw [hstatus] at hidle
      cases hidle
    unfold State.csaFinish at h
    rw [if_neg (not_not.mpr hzero), if_pos hno] at h
    rcases h.ends hcall htold csa hcsa with hpending | hrunning
    · exact hready hpending
    · cases hrunning

/-! ### The other uses of the record -/

theorem build_kept (f : BuildFails) (heap : Heap) (bcn : RwnxBcn) (new : BeaconData) :
    (buildBcn f heap bcn new).bcn.ies = bcn.ies ∧
      (buildBcn f heap bcn new).bcn.dtim = bcn.dtim := by
  unfold buildBcn RwnxBcn.putTail RwnxBcn.putHead RwnxBcn.measured
  dsimp only
  split_ifs <;> cases new.head <;> cases new.tail <;> exact ⟨rfl, rfl⟩

/-- A new beacon changes the record, the allocations and what the firmware has. -/
theorem putBeacon_eq (f : BuildFails) (new : BeaconData) (r : Sent) : ∃ heap fw,
    s.putBeacon f new r =
      { s with
        bcn := (buildBcn f s.heap s.bcn new).bcn
        heap := heap
        fw := fw
        last := none } := by
  unfold State.putBeacon
  dsimp only
  split
  · exact ⟨_, _, rfl⟩
  · exact ⟨_, _, rfl⟩

theorem putBeacon_right (hr : Right s) (f : BuildFails) (new : BeaconData) (r : Sent) :
    Right (s.putBeacon f new r) := by
  obtain ⟨heap, fw, hput⟩ := putBeacon_eq (s := s) f new r
  rw [hput]
  exact ⟨fun _ _ => nofun, hr.once, hr.ends, hr.alive, nofun⟩

theorem putBeacon_base (hb : Base s) (hcall : s.call = none) (f : BuildFails) (new : BeaconData)
    (r : Sent) : Base (s.putBeacon f new r) := by
  obtain ⟨heap, fw, hput⟩ := putBeacon_eq (s := s) f new r
  obtain ⟨hies, hdtim⟩ := build_kept f s.heap s.bcn new
  rw [hput]
  exact ⟨hb.fits.build, hies.trans hb.ies, hdtim.trans hb.dtim, hb.zeroed, hb.fresh, hb.running,
    hb.told, fun c hc => absurd (hcall ▸ hc) (Option.not_mem_none c)⟩

/-- Stopping frees record and csa, whether or not the work of the csa is still to come. -/
theorem stopAp_eq : ∃ heap, s.stopAp =
    { s with
      bcn := .blank
      csa := none
      heap := heap
      dtim := 0
      lost := s.lost || ∃ csa ∈ s.csa, csa.work = .pending ∨ s.running.isSome = true
      last := none } := by
  cases hcsa : s.csa with
  | none => exact ⟨(delBcn s.heap s.bcn).1, by simp [State.stopAp, State.delCsa, hcsa, delBcn]⟩
  | some csa =>
    refine ⟨(delBcn (delBcn s.heap s.bcn).1 csa.bcn).1.kfree, ?_⟩
    simp [State.stopAp, State.delCsa, hcsa, delBcn, Bool.or_assoc]

theorem stopAp_right_iff (hr : Right s) :
    Right s.stopAp ↔ ∀ csa ∈ s.csa, csa.work ≠ .pending ∧ s.running = none := by
  obtain ⟨heap, hstop⟩ := stopAp_eq (s := s)
  have hruns : s.runs ≤ 1 := (Nat.le_add_right _ _).trans hr.once
  rw [hstop]
  constructor
  · intro h csa hcsa
    have halive := h.alive
    simp only [hr.alive, Bool.false_or, decide_eq_false_iff_not, not_exists, not_and,
      not_or] at halive
    obtain ⟨hready, hidle⟩ := halive csa hcsa
    exact ⟨hready, by simpa using hidle⟩
  · intro h
    refine ⟨fun _ _ => nofun, ?_, fun _ _ => ?_, ?_, nofun⟩
    · rw [queued_none rfl]
      exact hruns
    · exact fun x hx => absurd hx (Option.not_mem_none x)
    · simp only [hr.alive, Bool.false_or, decide_eq_false_iff_not, not_exists, not_and, not_or]
      intro csa hcsa
      obtain ⟨hready, hidle⟩ := h csa hcsa
      exact ⟨hready, by simp [hidle]⟩

theorem stopAp_base (hb : Base s) (hcall : s.call = none)
    (h : ∀ csa ∈ s.csa, csa.work ≠ .pending ∧ s.running = none) : Base s.stopAp := by
  have hidle : s.running = none := by
    by_contra hrunning
    obtain ⟨csa, hcsa⟩ := Option.isSome_iff_exists.mp
      (hb.running (Option.isSome_iff_ne_none.mpr hrunning)).1
    exact hrunning (h csa hcsa).2
  obtain ⟨heap, hstop⟩ := stopAp_eq (s := s)
  rw [hstop]
  refine ⟨⟨rfl, rfl, rfl⟩, rfl, rfl, ?_, ?_, ?_, fun _ => ⟨hidle, ?_⟩, ?_⟩
  · exact fun x hx => absurd hx (Option.not_mem_none x)
  · exact fun x hx => absurd hx (Option.not_mem_none x)
  · intro hrunning
    rw [show s.running = none from hidle] at hrunning
    cases hrunning
  · exact fun x hx => absurd hx (Option.not_mem_none x)
  · exact fun c hc => absurd (hcall ▸ hc) (Option.not_mem_none c)

end Actions

/-! ## Runs -/

/-- What is enabled between the calls of cfg80211. -/
theorem between_iff {call : Option Call} {t : State} {P : State → Prop} :
    (∀ u ∈ (if call.isSome then none else some t), P u) ↔ (call = none → P t) := by
  cases call <;> simp

theorem step_right_iff {s : State} (hb : Base s) (hr : Right s) (a : Act) :
    (∀ t ∈ step s a, Right t) ↔ Safe s a := by
  unfold step Safe
  rw [if_neg (by rw [hr.alive]; decide)]
  cases a with
  | startAp dtim f new r =>
    refine between_iff.trans (iff_of_true (fun _ => ?_) trivial)
    obtain ⟨heap, fw, hput⟩ :=
      putBeacon_eq (s := { s with bcn := { s.bcn with dtim := dtim } }) f new r
    rw [hput]
    exact ⟨fun _ _ => nofun, hr.once, hr.ends, hr.alive, nofun⟩
  | changeBeacon f new r =>
    exact between_iff.trans (iff_of_true (fun _ => putBeacon_right hr f new r) trivial)
  | stopAp => exact between_iff.trans (imp_congr_right fun _ => stopAp_right_iff hr)
  | channelSwitch p f =>
    exact between_iff.trans (imp_congr_right fun _ => channelSwitch_right_iff hr hb.fits)
  | answer r =>
    cases hc : s.call with
    | none => simp
    | some c => simpa using answer_right_iff hb hr hc r
  | csaFinishInd status => simpa using csaFinishInd_right_iff hb hr status
  | beginFinish alloc =>
    cases hcsa : s.csa with
    | none => simp
    | some csa =>
      by_cases hready : csa.work = .pending ∧ s.running = none
      · simpa [hready] using beginFinish_right_iff hb hr hcsa hready.1 hready.2 alloc
      · simpa [hready] using fun hpending hidle => absurd ⟨hpending, hidle⟩ hready
  | csaFinish bcn change =>
    cases hstatus : s.running with
    | none => simp
    | some status =>
      obtain ⟨csa, hcsa⟩ :=
        Option.isSome_iff_exists.mp (hb.running (by rw [hstatus]; rfl)).1
      simpa [hcsa] using csaFinish_right_iff hb hr hcsa hstatus bcn change

theorem step_base {s t : State} {a : Act} (hb : Base s) (hr : Right s) (ha : Safe s a)
    (h : step s a = some t) (ht : Right t) : Base t := by
  unfold step at h
  rw [if_neg (by rw [hr.alive]; decide)] at h
  cases a with
  | startAp dtim f new r =>
    obtain ⟨hcall, rfl⟩ : s.call = none ∧ _ = t := by simpa using h
    have hb' : Base { s with
        bcn := { s.bcn with dtim := dtim }
        dtim := dtim } :=
      ⟨⟨hb.fits.head, hb.fits.tail, hb.fits.ies⟩, hb.ies, rfl, hb.zeroed, hb.fresh, hb.running,
        hb.told, fun c hc => absurd (hcall ▸ hc) (Option.not_mem_none c)⟩
    have hput : { ({ s with bcn := { s.bcn with dtim := dtim } } : State).putBeacon f new r with
        dtim := dtim } = ({ s with
          bcn := { s.bcn with dtim := dtim }
          dtim := dtim } : State).putBeacon f new r := by
      unfold State.putBeacon
      dsimp only
      split <;> rfl
    rw [hput]
    exact putBeacon_base hb' hcall f new r
  | changeBeacon f new r =>
    obtain ⟨hcall, rfl⟩ : s.call = none ∧ _ = t := by simpa using h
    exact putBeacon_base hb hcall f new r
  | stopAp =>
    obtain ⟨hcall, rfl⟩ : s.call = none ∧ _ = t := by simpa using h
    exact stopAp_base hb hcall (ha hcall)
  | channelSwitch p f =>
    obtain ⟨hcall, rfl⟩ : s.call = none ∧ _ = t := by simpa using h
    exact channelSwitch_base hb hcall ht
  | answer r =>
    obtain ⟨c, hc, rfl⟩ := Option.map_eq_some_iff.mp h
    exact answer_base hb hc r
  | csaFinishInd status =>
    obtain rfl := Option.some.inj h
    exact csaFinishInd_base hb status
  | beginFinish alloc =>
    obtain ⟨csa, hcsa, hbegin⟩ := Option.bind_eq_some_iff.mp h
    split_ifs at hbegin with hready
    obtain rfl := Option.some.inj hbegin
    obtain rfl : alloc = true := ha csa hcsa hready.1 hready.2
    exact beginFinish_base hb hcsa hready.1 hready.2
  | csaFinish bcn change =>
    obtain ⟨csa, hcsa, hfinish⟩ := Option.bind_eq_some_iff.mp h
    obtain ⟨status, hstatus, rfl⟩ := Option.map_eq_some_iff.mp hfinish
    exact csaFinish_base hb hcsa hstatus change fun hzero => (ha (hzero ▸ hstatus)).1

theorem init_base : Base init :=
  ⟨⟨rfl, rfl, rfl⟩, rfl, rfl, fun x hx => absurd hx (Option.not_mem_none x),
    fun x hx => absurd hx (Option.not_mem_none x), nofun,
    fun _ => ⟨rfl, fun x hx => absurd hx (Option.not_mem_none x)⟩,
    fun c hc => absurd hc (Option.not_mem_none c)⟩

theorem init_right : Right init := ⟨fun _ _ => nofun, by decide, nofun, rfl, nofun⟩

end AIC.ChannelSwitch
