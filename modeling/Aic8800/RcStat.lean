import Aic8800.Lib.GuardedRun
import Aic8800.Lib.RingWindow

/-!
# The ring of the rate statistics

Registrations and unregistrations of stations go through a ring of station indexes to a work item,
which makes or removes the debugfs directory of a station, whichever it is in need of. The work is
split where other calls may come between. What the files of a directory hold, and the rates saved
for a station that comes back, are left out: nothing of the ring and the directories depends on
them.
-/

set_option autoImplicit false

namespace AIC.RcStat
open Lib.GuardedRun Lib.RingWindow

def NX_REMOTE_STA_MAX : ℕ := 32
def NX_VIRT_DEV_MAX : ℕ := 4

/-- The mark of a cell that holds no event. -/
def EMPTY : ℕ := 0xFF

/-- `rwnx_dbgfs_register_rc_stat` or `rwnx_dbgfs_unregister_rc_stat`. -/
structure Call where
  registers : Bool
  sta : ℕ
  deriving DecidableEq

/-- Where the work is: before or behind its part with the ring. -/
inductive Work where
  | idle | begun | processing (sta : ℕ)
  deriving DecidableEq

/-- `struct rwnx_debugfs`, the work item, and the rate tables of the stations. `overlap` and `oops`
say that an event was overwritten and that an index was too large. `calls` and `processed` are the
calls and the events processed so far. -/
structure State where
  rcSta : ℕ → ℕ
  rcWrite : ℕ
  rcRead : ℕ
  dirSta : ℕ → Bool
  table : ℕ → Bool
  pending : Bool
  work : Work
  overlap : Bool
  oops : Bool
  calls : List Call
  processed : List ℕ

/-- Behind `rwnx_dbgfs_register`. -/
def init : State where
  rcSta := fun _ => EMPTY
  rcWrite := 0
  rcRead := 0
  dirSta := fun _ => false
  table := fun _ => false
  pending := false
  work := .idle
  overlap := false
  oops := false
  calls := []
  processed := []

/-- `_rwnx_dbgfs_rc_stat_write`, while the driver is registered. -/
def rcStatWrite (s : State) (sta : ℕ) : State :=
  { s with
    overlap := s.overlap || s.rcSta s.rcWrite != EMPTY
    rcSta := Function.update s.rcSta s.rcWrite sta
    rcWrite := (s.rcWrite+1) % NX_REMOTE_STA_MAX
    -- nothing changes where the work is pending
    pending := true }

/-- The first part of `rwnx_rc_stat_work`. From here on the station is the index for `sta_table`,
`dir_sta` and `rc_config`. -/
def takeEvent (s : State) : State :=
  let sta := s.rcSta s.rcRead
  if NX_REMOTE_STA_MAX+NX_VIRT_DEV_MAX < sta then { s with work := .idle }
  else { s with
    rcSta := Function.update s.rcSta s.rcRead EMPTY
    rcRead := (s.rcRead+1) % NX_REMOTE_STA_MAX
    work := .processing sta
    oops := s.oops || decide (NX_REMOTE_STA_MAX ≤ sta) }

/-- Whether the directory, its files and the rate table can be made. -/
structure Outcome where
  dir : Bool
  files : Bool
  kzalloc : Bool
  deriving DecidableEq

def Outcome.ok (o : Outcome) : Bool := o.dir && o.files && o.kzalloc

/-- The rest of it. A station without a directory is registered, and another one unregistered. -/
def processEvent (s : State) (sta : ℕ) (o : Outcome) : State :=
  if s.dirSta sta then
    { s with
      dirSta := Function.update s.dirSta sta false
      table := Function.update s.table sta false }
  else
    { s with
      dirSta := Function.update s.dirSta sta o.ok
      table := if o.dir && o.files then Function.update s.table sta o.kzalloc else s.table }

inductive Event where
  | call (c : Call)
  | start
  | take
  | process (o : Outcome)
  deriving DecidableEq

def step (s : State) : Event → Option State
  | .call c => some { rcStatWrite s c.sta with calls := s.calls++[c] }
  | .start =>
    if s.pending = true ∧ s.work = .idle then some { s with pending := false, work := .begun }
    else none
  | .take => if s.work = .begun then some (takeEvent s) else none
  | .process o =>
    match s.work with
    | .processing sta =>
      some { processEvent s sta o with work := .idle, processed := s.processed++[sta] }
    | _ => none

/-! ## What is right -/

/-- The stations that are registered behind these calls. -/
def registered (cs : List Call) : ℕ → Bool :=
  cs.foldl (fun reg c => Function.update reg c.sta c.registers) fun _ => false

/-- Events are processed in the order of the calls, no index is too large and no event overwritten,
none is left when there is no work, and the directories and tables are those of the stations
registered by the events processed so far. -/
structure Right (s : State) : Prop where
  order : s.processed <+: s.calls.map Call.sta
  kept : s.overlap = false
  cells : s.rcWrite < NX_REMOTE_STA_MAX ∧ s.rcRead < NX_REMOTE_STA_MAX
  inside : s.oops = false
  idle : s.pending = false → s.work = .idle → s.processed = s.calls.map Call.sta ∧
    ∀ i < NX_REMOTE_STA_MAX, s.rcSta i = EMPTY
  dirs : s.dirSta = registered (s.calls.take s.processed.length)
  tables : s.table = registered (s.calls.take s.processed.length)

/-- A call comes while the work is not pending, for a station with a place in the arrays, and
registers it if it is not registered. What a registration needs can be made. -/
def Fits (s : State) : Event → Prop
  | .call c => s.pending = false ∧ c.sta < NX_REMOTE_STA_MAX ∧
      c.registers = !registered s.calls c.sta
  | .process o => ∀ sta, s.work = .processing sta → s.dirSta sta = false → o.ok = true
  | _ => True

/-! ## What the ring holds -/

def Work.taken : Work → List ℕ
  | .processing sta => [sta]
  | _ => []

def Work.owed : Work → ℕ
  | .begun => 1
  | _ => 0

/-- Every cell of the ring from the next one read on: the events that wait, and behind them the
empty ones. There is one for each run of the work that is still to come. -/
structure Holds (s : State) (queue : List ℕ) : Prop where
  order : s.processed++s.work.taken++queue = s.calls.map Call.sta
  owed : queue.length = s.pending.toNat+s.work.owed
  read : s.rcRead < NX_REMOTE_STA_MAX
  write : s.rcWrite = (s.rcRead+queue.length) % NX_REMOTE_STA_MAX
  ring : window NX_REMOTE_STA_MAX s.rcSta s.rcRead NX_REMOTE_STA_MAX =
    queue++List.replicate (NX_REMOTE_STA_MAX-queue.length) EMPTY
  small : ∀ c ∈ s.calls, c.sta < NX_REMOTE_STA_MAX
  alternate : ∀ pre c, pre++[c] <+: s.calls → c.registers = !registered pre c.sta
  dirs : s.dirSta = registered (s.calls.take s.processed.length)
  tables : s.table = registered (s.calls.take s.processed.length)
  kept : s.overlap = false
  inside : s.oops = false

theorem registered_concat (cs : List Call) (c : Call) :
    registered (cs++[c]) = Function.update (registered cs) c.sta c.registers := by
  rw [registered, List.foldl_append]
  rfl

theorem holds_init : Holds init [] where
  order := rfl
  owed := rfl
  read := by decide
  write := rfl
  ring := by decide
  small c hc := absurd hc List.not_mem_nil
  alternate pre c hpre := absurd (List.prefix_nil.mp hpre) (by simp)
  dirs := rfl
  tables := rfl
  kept := rfl
  inside := rfl

theorem Holds.right {s : State} {queue : List ℕ} (h : Holds s queue) : Right s where
  order := by
    rw [← h.order, List.append_assoc]
    exact List.prefix_append _ _
  kept := h.kept
  cells := ⟨h.write ▸ Nat.mod_lt _ (by decide), h.read⟩
  inside := h.inside
  idle hpending hwork := by
    have hnone : queue = [] := by
      have howed := h.owed
      rw [hpending, hwork] at howed
      exact List.length_eq_zero_iff.mp howed
    have horder := h.order
    have hring := h.ring
    rw [hwork, hnone] at horder
    rw [hnone] at hring
    refine ⟨by simpa [Work.taken] using horder, fun i hi => ?_⟩
    have hcell := mem_window s.rcSta s.rcRead hi
    rw [hring] at hcell
    exact List.eq_of_mem_replicate (by simpa using hcell)
  dirs := h.dirs
  tables := h.tables

/-! ## One step -/

variable {s : State} {queue : List ℕ}

theorem Holds.short (h : Holds s queue) : queue.length ≤ 2 := by
  rw [h.owed]
  cases s.pending <;> cases s.work <;> simp [Work.owed]

theorem Holds.processed_le (h : Holds s queue) : s.processed.length ≤ s.calls.length := by
  have hlen := congrArg List.length h.order
  rw [List.length_append, List.length_append, List.length_map] at hlen
  omega

/-- The cell that is written next is empty. -/
theorem Holds.write_empty (h : Holds s queue) : s.rcSta s.rcWrite = EMPTY := by
  have hshort := h.short
  have hin : queue.length < NX_REMOTE_STA_MAX := by
    unfold NX_REMOTE_STA_MAX
    omega
  have hcell : (window NX_REMOTE_STA_MAX s.rcSta s.rcRead NX_REMOTE_STA_MAX)[queue.length]? = _ :=
    window_get s.rcSta s.rcRead hin
  rw [h.ring, ← h.write, List.getElem?_append_right le_rfl, Nat.sub_self,
    List.getElem?_replicate] at hcell
  split_ifs at hcell
  exact (Option.some.inj hcell).symm

theorem Holds.call (h : Holds s queue) {c : Call} (hpending : s.pending = false)
    (hsmall : c.sta < NX_REMOTE_STA_MAX) (halt : c.registers = !registered s.calls c.sta) :
    Holds { rcStatWrite s c.sta with calls := s.calls++[c] } (queue++[c.sta]) where
  order := by
    change s.processed++s.work.taken++(queue++[c.sta]) = (s.calls++[c]).map Call.sta
    rw [← List.append_assoc, h.order, List.map_append]
    rfl
  owed := by
    have howed := h.owed
    rw [hpending] at howed
    change (queue++[c.sta]).length = 1+s.work.owed
    rw [List.length_append, howed, Bool.toNat_false, Nat.zero_add, Nat.add_comm]
    rfl
  read := h.read
  write := by
    change (s.rcWrite+1) % NX_REMOTE_STA_MAX = _
    rw [h.write, Nat.mod_add_mod, List.length_append, Nat.add_assoc]
    rfl
  ring := by
    have hshort := h.short
    have hroom : NX_REMOTE_STA_MAX-queue.length = NX_REMOTE_STA_MAX-(queue++[c.sta]).length+1 := by
      rw [List.length_append, List.length_singleton]
      unfold NX_REMOTE_STA_MAX
      omega
    change window _ (Function.update s.rcSta s.rcWrite c.sta) s.rcRead _ = _
    rw [h.write, window_update (by unfold NX_REMOTE_STA_MAX; omega) le_rfl, h.ring,
      List.set_append_right _ _ le_rfl, Nat.sub_self, hroom, List.replicate_succ,
      List.set_cons_zero, List.append_assoc]
    rfl
  small := by
    intro x hx
    rcases List.mem_append.mp hx with hx | hx
    · exact h.small x hx
    · rwa [List.mem_singleton.mp hx]
  alternate := by
    intro pre x hpre
    rcases List.prefix_concat_iff.mp hpre with hall | hearlier
    · obtain ⟨rfl, hx⟩ := List.append_inj' hall rfl
      obtain rfl := List.singleton_inj.mp hx
      exact halt
    · exact h.alternate pre x hearlier
  dirs := by
    change s.dirSta = registered ((s.calls++[c]).take s.processed.length)
    rw [List.take_append_of_le_length h.processed_le]
    exact h.dirs
  tables := by
    change s.table = registered ((s.calls++[c]).take s.processed.length)
    rw [List.take_append_of_le_length h.processed_le]
    exact h.tables
  kept := by
    change (s.overlap || s.rcSta s.rcWrite != EMPTY) = false
    rw [h.kept, h.write_empty]
    rfl
  inside := h.inside

theorem Holds.start (h : Holds s queue) (hpending : s.pending = true) (hwork : s.work = .idle) :
    Holds { s with pending := false, work := .begun } queue where
  order := by
    have horder := h.order
    rwa [hwork] at horder
  owed := by
    have howed := h.owed
    rw [hpending, hwork] at howed
    exact howed
  read := h.read
  write := h.write
  ring := h.ring
  small := h.small
  alternate := h.alternate
  dirs := h.dirs
  tables := h.tables
  kept := h.kept
  inside := h.inside

theorem Holds.take {x : ℕ} (h : Holds s (x::queue)) (hwork : s.work = .begun) :
    Holds (takeEvent s) queue := by
  have hshort := h.short
  rw [List.length_cons] at hshort
  have hpos : 0 < NX_REMOTE_STA_MAX := by decide
  have horder := h.order
  rw [hwork] at horder
  have hcell : s.rcSta s.rcRead = x := by
    have hfirst : (window NX_REMOTE_STA_MAX s.rcSta s.rcRead NX_REMOTE_STA_MAX)[0]? = _ :=
      window_get s.rcSta s.rcRead hpos
    rw [h.ring, Nat.add_zero, Nat.mod_eq_of_lt h.read] at hfirst
    exact (Option.some.inj hfirst).symm
  have hx : x < NX_REMOTE_STA_MAX := by
    have hmem : x ∈ s.calls.map Call.sta := by
      rw [← horder]
      exact List.mem_append_right _ List.mem_cons_self
    obtain ⟨c, hc, rfl⟩ := List.mem_map.mp hmem
    exact h.small c hc
  have hvalid : ¬ NX_REMOTE_STA_MAX+NX_VIRT_DEV_MAX < x := by omega
  have htake : takeEvent s = { s with
      rcSta := Function.update s.rcSta s.rcRead EMPTY
      rcRead := (s.rcRead+1) % NX_REMOTE_STA_MAX
      work := .processing x
      oops := s.oops || decide (NX_REMOTE_STA_MAX ≤ x) } := by
    unfold takeEvent
    rw [hcell, if_neg hvalid]
  rw [htake]
  refine ⟨?_, ?_, Nat.mod_lt _ hpos, ?_, ?_, h.small, h.alternate, h.dirs, h.tables, h.kept, ?_⟩
  · change s.processed++[x]++queue = s.calls.map Call.sta
    rw [← horder, List.append_assoc]
    simp [Work.taken]
  · have howed := h.owed
    rw [hwork] at howed
    exact Nat.succ.inj howed
  · change s.rcWrite = ((s.rcRead+1) % NX_REMOTE_STA_MAX+queue.length) % NX_REMOTE_STA_MAX
    rw [h.write, Nat.mod_add_mod, List.length_cons]
    congr 1
    omega
  · have hread : s.rcRead = (s.rcRead+0) % NX_REMOTE_STA_MAX := by
      rw [Nat.add_zero, Nat.mod_eq_of_lt h.read]
    have hroom : NX_REMOTE_STA_MAX-queue.length =
        NX_REMOTE_STA_MAX-(x::queue).length+1 := by
      rw [List.length_cons]
      unfold NX_REMOTE_STA_MAX
      omega
    have hnext : ((s.rcRead+1) % NX_REMOTE_STA_MAX) % NX_REMOTE_STA_MAX =
        (s.rcRead+1) % NX_REMOTE_STA_MAX := Nat.mod_mod _ _
    have hempty : Function.update s.rcSta s.rcRead EMPTY (s.rcRead % NX_REMOTE_STA_MAX) =
        EMPTY := by
      rw [Nat.mod_eq_of_lt h.read, Function.update_self]
    have hset : window NX_REMOTE_STA_MAX (Function.update s.rcSta s.rcRead EMPTY) s.rcRead
        NX_REMOTE_STA_MAX =
          EMPTY::(queue++List.replicate (NX_REMOTE_STA_MAX-(x::queue).length) EMPTY) := by
      nth_rewrite 1 [hread]
      rw [window_update hpos le_rfl, h.ring]
      rfl
    change window _ (Function.update s.rcSta s.rcRead EMPTY) _ _ = _
    rw [window_congr hnext, window_next hpos, hset, hempty, hroom, List.replicate_succ',
      ← List.append_assoc]
    rfl
  · change (s.oops || decide (NX_REMOTE_STA_MAX ≤ x)) = false
    rw [h.inside, decide_eq_false (by omega)]
    rfl

/-- The event that is processed is that of the next call. -/
theorem Holds.next_call (h : Holds s queue) {x : ℕ} (hwork : s.work = .processing x) :
    ∃ c, s.calls.take (s.processed.length+1) = s.calls.take s.processed.length++[c] ∧
      c.sta = x ∧ c.registers = !s.dirSta x := by
  have horder := h.order
  rw [hwork] at horder
  have hsta : (s.calls.map Call.sta)[s.processed.length]? = some x := by
    rw [← horder, List.append_assoc, List.getElem?_append_right le_rfl, Nat.sub_self]
    rfl
  obtain ⟨c, hc, rfl⟩ := Option.map_eq_some_iff.mp (List.getElem?_map .. ▸ hsta)
  have htake : s.calls.take (s.processed.length+1) = s.calls.take s.processed.length++[c] := by
    rw [List.take_add_one, hc]
    rfl
  have hpre : s.calls.take s.processed.length++[c] <+: s.calls := htake ▸ List.take_prefix ..
  refine ⟨c, htake, rfl, ?_⟩
  rw [h.dirs]
  exact h.alternate _ c hpre

/-- It makes the directory of a station that is registered, and removes that of another. -/
theorem processEvent_eq {x : ℕ} {o : Outcome} (hok : s.dirSta x = false → o.ok = true) :
    processEvent s x o = { s with
      dirSta := Function.update s.dirSta x (!s.dirSta x)
      table := Function.update s.table x (!s.dirSta x) } := by
  unfold processEvent
  cases hdir : s.dirSta x with
  | true => rfl
  | false =>
    have hall := hok hdir
    have hparts := hall
    simp only [Outcome.ok, Bool.and_eq_true] at hparts
    rw [if_neg Bool.false_ne_true, hall, hparts.1.1, hparts.1.2, hparts.2]
    rfl

theorem Holds.process (h : Holds s queue) {x : ℕ} {o : Outcome} (hwork : s.work = .processing x)
    (hok : s.dirSta x = false → o.ok = true) :
    Holds { processEvent s x o with work := .idle, processed := s.processed++[x] } queue := by
  obtain ⟨c, htake, hsta, hreg⟩ := h.next_call hwork
  have hnext : registered (s.calls.take (s.processed++[x]).length) =
      Function.update (registered (s.calls.take s.processed.length)) x (!s.dirSta x) := by
    rw [List.length_append, List.length_singleton, htake, registered_concat, hsta, hreg]
  rw [processEvent_eq hok]
  refine ⟨?_, ?_, h.read, h.write, h.ring, h.small, h.alternate, ?_, ?_, h.kept, h.inside⟩
  · have horder := h.order
    rw [hwork] at horder
    change s.processed++[x]++[]++queue = s.calls.map Call.sta
    rw [List.append_nil]
    exact horder
  · have howed := h.owed
    rw [hwork] at howed
    exact howed
  · change Function.update s.dirSta x (!s.dirSta x) = registered (s.calls.take _)
    rw [hnext, ← h.dirs]
  · change Function.update s.table x (!s.dirSta x) = registered (s.calls.take _)
    rw [hnext, ← h.tables]

/-! ## Runs -/

theorem step_holds (s : State) (e : Event) (t : State) (hfits : Fits s e)
    (hstep : step s e = some t) (h : ∃ queue, Holds s queue) : ∃ queue, Holds t queue := by
  obtain ⟨queue, h⟩ := h
  cases e with
  | call c =>
    obtain ⟨hpending, hsmall, halt⟩ := hfits
    obtain rfl := Option.some.inj hstep
    exact ⟨_, h.call hpending hsmall halt⟩
  | start =>
    rw [step] at hstep
    split_ifs at hstep with hready
    obtain rfl := Option.some.inj hstep
    exact ⟨queue, h.start hready.1 hready.2⟩
  | take =>
    rw [step] at hstep
    split_ifs at hstep with hwork
    obtain rfl := Option.some.inj hstep
    have howed := h.owed
    rw [hwork] at howed
    -- the work runs because of an event
    obtain ⟨x, rest, rfl⟩ := List.exists_cons_of_length_pos
      (by rw [howed]; exact Nat.succ_pos _ : 0 < queue.length)
    exact ⟨rest, h.take hwork⟩
  | process o =>
    cases hwork : s.work with
    | processing x =>
      rw [step, hwork] at hstep
      obtain rfl := Option.some.inj hstep
      exact ⟨queue, h.process hwork (hfits x hwork)⟩
    | idle =>
      rw [step, hwork] at hstep
      cases hstep
    | begun =>
      rw [step, hwork] at hstep
      cases hstep

/-- Where every call finds the work not pending, the ring loses nothing and is empty between the
runs of the work. -/
theorem run_events_right (es : List Event) (h : Meets step Fits init es) :
    Throughout step Right init es :=
  throughout_of_meets step_holds (fun _ hs => hs.choose_spec.right) ⟨[], holds_init⟩ h

instance (s : State) (o : Outcome) : Decidable (Fits s (.process o)) :=
  match h : s.work with
  | .processing sta => decidable_of_iff (s.dirSta sta = false → o.ok = true)
    ⟨fun hok _ hsta => Work.processing.inj (h.symm.trans hsta) ▸ hok, fun hok => hok sta h⟩
  | .idle => isTrue fun _ hsta => Work.noConfusion (h.symm.trans hsta)
  | .begun => isTrue fun _ hsta => Work.noConfusion (h.symm.trans hsta)

instance (s : State) (e : Event) : Decidable (Fits s e) :=
  match e with
  | .call _ => inferInstanceAs (Decidable (_ ∧ _))
  | .process o => inferInstanceAs (Decidable (Fits s (.process o)))
  | .start => isTrue trivial
  | .take => isTrue trivial

/-- Station 3 is registered, and unregistered while the work is at it. -/
def oneStation : List Event :=
  [.call ⟨true, 3⟩, .start, .take, .call ⟨false, 3⟩, .process ⟨true, true, true⟩, .start, .take,
    .process ⟨true, true, true⟩]

theorem oneStation_right : Throughout step Right init oneStation :=
  run_events_right oneStation (by decide)

/-- Two stations are registered before the work runs. -/
def twoStations : List Event :=
  [.call ⟨true, 0⟩, .call ⟨true, 1⟩, .start, .take, .process ⟨true, true, true⟩]

/-- Nothing is left to run, and the second event is still in the ring. -/
theorem second_event_waits :
    ∃ s, exec step init twoStations = some s ∧ s.pending = false ∧ s.work = .idle ∧
      s.rcSta 1 = 1 ∧ ¬ Right s := by
  refine ⟨_, rfl, rfl, rfl, rfl, fun h => ?_⟩
  have hempty := (h.idle rfl rfl).2 1 (by decide)
  exact absurd hempty (by decide)

end AIC.RcStat
