import Aic8800.RocMachine
import Aic8800.Lib.GuardedRun

/-!
# One element at a time

An element is freed once, and whoever uses it has it, as long as only the party
that the element has come to goes on with it. The property is over every run,
and so is the condition: what a step meets that frees or uses the element.
-/

set_option autoImplicit false

namespace AIC.RocLifecycle
open AIC.ChannelContext (VifId)
open AIC.RocMachine Lib.GuardedRun

/-- Each call of `expired` answers the call of `ready` before it. What is
pending then, the latest event first. -/
def pending : List Event → Option (Option Call)
  | [] => some none
  | .ready c _ :: es => if pending es = some none then some (some c) else none
  | .expired c :: es => if pending es = some (some c) then some none else none

/-- No operation is in progress. -/
def Quiet (s : State) : Prop := s.rtnl = .idle ∧ s.ind = .idle

structure Sound (s : State) : Prop where
  fault : s.fault = false
  freed : ∀ k, s.freed k ≤ 1
  kept : Quiet s → ∀ k, k < s.allocs → (s.freed k = 0 ↔ s.rocElem = some k)
  txq : Quiet s → (s.txqActive = true ↔ s.rocElem.isSome = true)
  paired : ∃ c, pending s.events = some c ∧ (Quiet s → s.rocElem = none → c = none)

/-! ## The condition -/

/-- The element that the pointer names has not been freed. -/
def Live (s : State) : Prop := ∃ k ∈ s.rocElem, s.freed k = 0

def RtnlOrderly (s : State) : Prop :=
  match s.rtnl with
  | .clear k _ => s.rocElem = some k ∧ s.ind = .idle ∧ (s.elems k).onChan = false
  | .mark => ∃ k ∈ s.rocElem, s.freed k = 0 ∧ s.ind ≠ .onChan k ∧ (s.elems k).onChan = false
  | .roc _ _ | .chan _ _ _ | .log => Live s
  | .wdev v => ∃ k ∈ s.rocElem, s.freed k = 0 ∧ (s.elems k).wdev ≠ v
  | _ => True

def Orderly (s : State) : Act → Prop
  | .rtnl _ => RtnlOrderly s
  | .handler =>
    match s.ind with
    | .ready k => (s.elems k).mgmtRoc = false → (s.elems k).onChan = false
    | _ => True
  | _ => True

instance (s : State) : Decidable (Live s) :=
  inferInstanceAs (Decidable (∃ k ∈ s.rocElem, s.freed k = 0))

instance (s : State) : Decidable (RtnlOrderly s) := by
  unfold RtnlOrderly
  split <;> infer_instance

instance (s : State) (a : Act) : Decidable (Orderly s a) := by
  unfold Orderly
  split
  · infer_instance
  · split <;> infer_instance
  · infer_instance

/-! ## The invariant -/

/-- The element that a request has outside `roc_elem`, while the queue is active. -/
def own : Pc → Option ℕ
  | .publish k _ | .free k _ => some k
  | _ => none

/-- The request has found or made the pointer NULL. -/
def Clears : Pc → Prop
  | .p2p _ | .alloc _ | .publish _ _ | .free _ _ | .deinit _ => True
  | _ => False

def Active : Pc → Prop
  | .publish _ _ | .free _ _ | .deinit _ => True
  | _ => False

/-- The stages of the request that no step of a run that meets the condition comes to. -/
def Stray : Pc → Prop
  | .kfree | .null => True
  | _ => False

def elem : Ipc → Option ℕ
  | .idle => none
  | .ready k | .onChan k | .expired k | .deinit k | .free k | .clear k => some k

/-- The handler of the expiry has reported it. -/
def Reported : Ipc → Prop
  | .deinit _ | .free _ | .clear _ => True
  | _ => False

/-- The handler has stopped the queue. -/
def Stopped : Ipc → Prop
  | .free _ | .clear _ => True
  | _ => False

def Freed : Ipc → Prop
  | .clear _ => True
  | _ => False

/-- The element is there, and someone will free it. -/
def Held (s : State) (k : ℕ) : Prop := s.rocElem = some k ∧ ¬ Freed s.ind ∨ own s.rtnl = some k

/-- `ready` has been called for the element and `expired` has not. -/
def Awaits (s : State) (k : ℕ) : Prop :=
  s.rocElem = some k ∧ (s.elems k).mgmtRoc = false ∧
    ((s.elems k).onChan = true ∨ s.ind = .onChan k) ∧ ¬ Reported s.ind

structure Inv (s : State) : Prop where
  fault : s.fault = false
  live : ∀ k, Held s k → k < s.allocs ∧ s.freed k = 0
  gone : ∀ k, k < s.allocs → ¬ Held s k → s.freed k = 1
  fresh : ∀ k, s.allocs ≤ k → s.freed k = 0
  clears : Clears s.rtnl → s.rocElem = none
  stray : ¬ Stray s.rtnl
  unused : ∀ k, own s.rtnl = some k → (s.elems k).onChan = false
  ind : ∀ k, elem s.ind = some k → s.rocElem = some k
  txq : s.txqActive = true ↔ s.rocElem.isSome = true ∧ ¬ Stopped s.ind ∨ Active s.rtnl
  awaits : ∀ k, Awaits s k → pending s.events = some (some (s.call k))
  settled : (∀ k, ¬ Awaits s k) → pending s.events = some none

theorem Inv.sound {s : State} (h : Inv s) : Sound s where
  fault := h.fault
  freed k := by
    by_cases hk : k < s.allocs
    · by_cases hheld : Held s k
      · rw [(h.live k hheld).2]
        exact Nat.zero_le 1
      · rw [h.gone k hk hheld]
    · rw [h.fresh k (Nat.le_of_not_lt hk)]
      exact Nat.zero_le 1
  kept := by
    rintro ⟨hr, hi⟩ k hk
    have hheld : Held s k ↔ s.rocElem = some k := by simp [Held, hr, hi, own, Freed]
    by_cases hroc : s.rocElem = some k
    · exact iff_of_true (h.live k (hheld.mpr hroc)).2 hroc
    · refine iff_of_false ?_ hroc
      rw [h.gone k hk fun hh => hroc (hheld.mp hh)]
      decide
  txq := by
    rintro ⟨hr, hi⟩
    simp [h.txq, hr, hi, Stopped, Active]
  paired := by
    by_cases haw : ∃ k, Awaits s k
    · obtain ⟨k, hk⟩ := haw
      refine ⟨_, h.awaits k hk, fun _ hnone => ?_⟩
      rw [hk.1] at hnone
      cases hnone
    · exact ⟨none, h.settled (not_exists.mp haw), fun _ _ => rfl⟩

/-! ## Steps of a request -/

section Steps
variable {s : State} {k : ℕ} {p : Pc}

theorem own_none (h : ¬ Active p) : own p = none := by
  cases p
  case publish => exact absurd trivial h
  case free => exact absurd trivial h
  all_goals rfl

/-- A step that makes no element, frees none and hands none over keeps what is said of them. -/
theorem Inv.of_held (h : Inv s) {t : State} (hheld : ∀ k, Held t k ↔ Held s k)
    (hfault : t.fault = s.fault) (hallocs : t.allocs = s.allocs) (hfreed : t.freed = s.freed)
    (clears : Clears t.rtnl → t.rocElem = none) (stray : ¬ Stray t.rtnl)
    (unused : ∀ k, own t.rtnl = some k → (t.elems k).onChan = false)
    (ind : ∀ k, elem t.ind = some k → t.rocElem = some k)
    (txq : t.txqActive = true ↔ t.rocElem.isSome = true ∧ ¬ Stopped t.ind ∨ Active t.rtnl)
    (awaits : ∀ k, Awaits t k → pending t.events = some (some (t.call k)))
    (settled : (∀ k, ¬ Awaits t k) → pending t.events = some none) : Inv t := by
  constructor
  · exact hfault.trans h.fault
  · intro k hk
    rw [hallocs, hfreed]
    exact h.live k ((hheld k).mp hk)
  · intro k hlt hk
    rw [hallocs] at hlt
    rw [hfreed]
    exact h.gone k hlt fun hs => hk ((hheld k).mpr hs)
  · intro k hk
    rw [hallocs] at hk
    rw [hfreed]
    exact h.fresh k hk
  · exact clears
  · exact stray
  · exact unused
  · exact ind
  · exact txq
  · exact awaits
  · exact settled

/-- The request goes on and touches no element. -/
theorem Inv.moves (h : Inv s) (hfrom : ¬ Active s.rtnl) (hto : ¬ Active p) (hstray : ¬ Stray p)
    (hclears : Clears p → s.rocElem = none) (e : Option ℤ) (c : ℕ) :
    Inv { s with rtnl := p, ret := e, cookie := c } := by
  have hto' := own_none hto
  have hheld : ∀ k, Held { s with rtnl := p, ret := e, cookie := c } k ↔ Held s k := by
    simp [Held, own_none hfrom, hto']
  refine h.of_held hheld rfl rfl rfl ?_ ?_ ?_ ?_ ?_ ?_ ?_
  · exact hclears
  · exact hstray
  · intro k hk
    rw [show own p = some k from hk] at hto'
    cases hto'
  · exact h.ind
  · simpa [hfrom, hto] using h.txq
  · exact h.awaits
  · exact h.settled

theorem Inv.goto (h : Inv s) (hfrom : ¬ Active s.rtnl) (hto : ¬ Active p) (hstray : ¬ Stray p)
    (hclears : Clears p → s.rocElem = none) : Inv (s.goto p) :=
  h.moves hfrom hto hstray hclears s.ret s.cookie

theorem Inv.leave (h : Inv s) (hfrom : ¬ Active s.rtnl) (e : Option ℤ) : Inv (s.leave e) :=
  h.moves (p := .idle) hfrom id id False.elim e s.cookie

/-- The handler has no element when the pointer is NULL. -/
theorem Inv.quiet (h : Inv s) (hnone : s.rocElem = none) : s.ind = .idle := by
  have hno : ∀ k, elem s.ind ≠ some k := fun k hk => by
    rw [h.ind k hk] at hnone
    cases hnone
  cases hi : s.ind
  case idle => rfl
  all_goals exact absurd (by rw [hi]; rfl) (hno _)

theorem Inv.untold (h : Inv s) (hnone : s.rocElem = none) : pending s.events = some none := by
  refine h.settled fun k hk => ?_
  rw [hk.1] at hnone
  cases hnone

theorem alloc_inv (h : Inv s) {r : Req} (hr : s.rtnl = .alloc r) : Inv (s.allocElem r) := by
  have hnone := h.clears (by rw [hr]; trivial)
  have hidle := h.quiet hnone
  have hheld : ∀ k, ¬ Held s k := by simp [Held, hnone, hr, own]
  have hheld' : ∀ k, Held (s.allocElem r) k ↔ k = s.allocs := by
    simp [Held, State.allocElem, State.setElem, hnone, own, eq_comm]
  constructor
  · exact h.fault
  · intro k hk
    rw [(hheld' k).mp hk]
    exact ⟨Nat.lt_succ_self _, h.fresh _ (Nat.le_refl _)⟩
  · intro k hlt hk
    have hne : k ≠ s.allocs := fun he => hk ((hheld' k).mpr he)
    exact h.gone k (by simp only [State.allocElem] at hlt; omega) (hheld k)
  · exact fun k hk => h.fresh k (Nat.le_of_succ_le hk)
  · exact fun _ => hnone
  · exact id
  · intro k hk
    obtain rfl := Option.some.inj hk
    simp [State.allocElem, State.setElem]
  · intro k hk
    simp [State.allocElem, State.setElem, hidle, elem] at hk
  · simp [State.allocElem, Active]
  · intro k hk
    have hroc : s.rocElem = some k := hk.1
    rw [hnone] at hroc
    cases hroc
  · exact fun _ => h.untold hnone

theorem publish_inv (h : Inv s) {mgmt : Bool} (hr : s.rtnl = .publish k mgmt) :
    Inv { s with rocElem := some k, rtnl := .request k mgmt } := by
  have hnone := h.clears (by rw [hr]; trivial)
  have hidle := h.quiet hnone
  have hnew := h.unused k (by rw [hr]; rfl)
  have hheld : ∀ j, Held { s with rocElem := some k, rtnl := .request k mgmt } j ↔ Held s j := by
    simp [Held, hnone, hr, hidle, own, Freed]
  refine h.of_held hheld rfl rfl rfl ?_ ?_ ?_ ?_ ?_ ?_ ?_
  · exact False.elim
  · exact id
  · intro j hj
    cases hj
  · intro j hj
    simp [hidle, elem] at hj
  · have htxq : s.txqActive = true := h.txq.mpr (Or.inr (by rw [hr]; trivial))
    simp [htxq, hidle, Stopped]
  · rintro j ⟨hj, -, hon, -⟩
    obtain rfl := Option.some.inj hj
    simp [hnew, hidle] at hon
  · exact fun _ => h.untold hnone

/-- The request takes back the element that it published. -/
theorem clear_inv (h : Inv s) {e : ℤ} (hr : s.rtnl = .clear k e) (hroc : s.rocElem = some k)
    (hidle : s.ind = .idle) (hon : (s.elems k).onChan = false) :
    Inv { s with rocElem := none, rtnl := .free k e } := by
  have hheld : ∀ j, Held { s with rocElem := none, rtnl := .free k e } j ↔ Held s j := by
    simp [Held, hroc, hr, hidle, own, Freed]
  have huntold : pending s.events = some none := by
    refine h.settled fun j hj => ?_
    obtain rfl := Option.some.inj (hroc.symm.trans hj.1)
    simpa [hon, hidle] using hj.2.2.1
  refine h.of_held hheld rfl rfl rfl ?_ ?_ ?_ ?_ ?_ ?_ ?_
  · exact fun _ => rfl
  · exact id
  · intro j hj
    obtain rfl := Option.some.inj hj
    exact hon
  · intro j hj
    simp [hidle, elem] at hj
  · have htxq : s.txqActive = true := h.txq.mpr (Or.inl (by simp [hroc, hidle, Stopped]))
    simp [htxq, Active]
  · intro j hj
    cases hj.1
  · exact fun _ => huntold

theorem free_inv (h : Inv s) {e : ℤ} (hr : s.rtnl = .free k e) :
    Inv ((s.kfree k).goto (.deinit e)) := by
  have hnone := h.clears (by rw [hr]; trivial)
  have hheld : ∀ j, Held s j ↔ j = k := by simp [Held, hnone, hr, own, eq_comm]
  have hheld' : ∀ j, ¬ Held ((s.kfree k).goto (.deinit e)) j := by
    simp [Held, State.kfree, State.goto, hnone, own]
  obtain ⟨hlt, hfree⟩ := h.live k ((hheld k).mpr rfl)
  constructor
  · simp [State.kfree, State.goto, hfree]
  · exact fun j hj => absurd hj (hheld' j)
  · intro j hj _
    by_cases hjk : j = k
    · simp [State.kfree, State.goto, hjk, hfree]
    · simpa [State.kfree, State.goto, hjk] using h.gone j hj fun hs => hjk ((hheld j).mp hs)
  · intro j hj
    have hjk : j ≠ k := by
      rintro rfl
      exact absurd hlt (Nat.not_lt.mpr hj)
    simpa [State.kfree, State.goto, hjk] using h.fresh j hj
  · exact fun _ => hnone
  · exact id
  · intro j hj
    cases hj
  · exact h.ind
  · have htxq : s.txqActive = true := h.txq.mpr (Or.inr (by rw [hr]; trivial))
    simp [State.kfree, State.goto, htxq, Active]
  · intro j hj
    have hroc : s.rocElem = some j := hj.1
    rw [hnone] at hroc
    cases hroc
  · exact fun _ => h.untold hnone

theorem deinit_inv (h : Inv s) {e : ℤ} (hr : s.rtnl = .deinit e) :
    Inv ({ s with txqActive := false }.leave (some e)) := by
  have hnone := h.clears (by rw [hr]; trivial)
  have hheld : ∀ j, Held ({ s with txqActive := false }.leave (some e)) j ↔ Held s j := by
    simp [Held, State.leave, hr, own]
  refine h.of_held hheld rfl rfl rfl ?_ ?_ ?_ ?_ ?_ ?_ ?_
  · exact False.elim
  · exact id
  · intro j hj
    cases hj
  · exact h.ind
  · simp [State.leave, hnone, Active]
  · exact h.awaits
  · exact h.settled

theorem mark_inv (h : Inv s) (hr : s.rtnl = .mark) (hroc : s.rocElem = some k)
    (hind : s.ind ≠ .onChan k) (hon : (s.elems k).onChan = false) : Inv (s.markMgmt k) := by
  have hheld : ∀ j, Held (s.markMgmt k) j ↔ Held s j := by
    simp [Held, State.markMgmt, State.setElem, State.leave, hr, own]
  have hno : ∀ j, ¬ Awaits s j := fun j hj => by
    obtain rfl := Option.some.inj (hroc.symm.trans hj.1)
    simpa [hon, hind] using hj.2.2.1
  refine h.of_held hheld rfl rfl rfl ?_ ?_ ?_ ?_ ?_ ?_ ?_
  · exact False.elim
  · exact id
  · intro j hj
    cases hj
  · exact h.ind
  · have htxq := h.txq
    simpa [State.markMgmt, State.setElem, State.leave, hr, Active] using htxq
  · intro j hj
    obtain rfl := Option.some.inj (hroc.symm.trans hj.1)
    have hmgmt := hj.2.1
    simp [State.markMgmt, State.setElem, State.leave] at hmgmt
  · exact fun _ => h.settled hno

/-! ## Steps of a handler -/

theorem Active.clears (h : Active p) : Clears p := by
  cases p
  case publish => trivial
  case free => trivial
  case deinit => trivial
  all_goals exact h.elim

/-- The element of the handler is in `roc_elem`, so no request has one of its own. -/
theorem Inv.at (h : Inv s) (hi : elem s.ind = some k) :
    s.rocElem = some k ∧ own s.rtnl = none ∧ ¬ Active s.rtnl := by
  have hroc := h.ind k hi
  have hact : ¬ Active s.rtnl := fun ha => by
    rw [h.clears ha.clears] at hroc
    cases hroc
  exact ⟨hroc, own_none hact, hact⟩

/-- A handler begins, with the element if there is one. -/
theorem begin_inv (h : Inv s) (hidle : s.ind = .idle) {i : Ipc}
    (hi : i = .idle ∨ ∃ k, s.rocElem = some k ∧ (i = .ready k ∨ i = .expired k)) :
    Inv { s with ind := i } := by
  have hplain : (∀ k, i ≠ .onChan k) ∧ ¬ Reported i ∧ ¬ Stopped i ∧ ¬ Freed i ∧
      ∀ k, elem i = some k → s.rocElem = some k := by
    rcases hi with rfl | ⟨k, hroc, rfl | rfl⟩
    · simp [Reported, Stopped, Freed, elem]
    · simp [Reported, Stopped, Freed, elem, hroc]
    · simp [Reported, Stopped, Freed, elem, hroc]
  obtain ⟨hon, hrep, hstop, hfreed, helem⟩ := hplain
  have hold : ¬ Freed s.ind ∧ ¬ Reported s.ind ∧ ¬ Stopped s.ind := by
    rw [hidle]
    exact ⟨id, id, id⟩
  have hheld : ∀ k, Held { s with ind := i } k ↔ Held s k := by
    simp [Held, hfreed, hold.1]
  have haw : ∀ k, Awaits { s with ind := i } k ↔ Awaits s k := by
    have hno : ∀ k, s.ind ≠ .onChan k := by simp [hidle]
    simp [Awaits, hno, hon, hrep, hold.2.1]
  refine h.of_held hheld rfl rfl rfl ?_ ?_ ?_ ?_ ?_ ?_ ?_
  · exact h.clears
  · exact h.stray
  · exact h.unused
  · exact helem
  · have htxq := h.txq
    simpa [hstop, hold.2.2] using htxq
  · exact fun k hk => h.awaits k ((haw k).mp hk)
  · exact fun hno => h.settled fun k hk => hno k ((haw k).mpr hk)

theorem ready_inv (h : Inv s) (hi : s.ind = .ready k)
    (hon : (s.elems k).mgmtRoc = false → (s.elems k).onChan = false) :
    Inv (s.readyOnChannel k) := by
  obtain ⟨hroc, hown, hact⟩ := h.at (show elem s.ind = some k by rw [hi]; rfl)
  have hheld : ∀ j, Held (s.readyOnChannel k) j ↔ Held s j := by
    simp [Held, State.readyOnChannel, hi, Freed]
  have huntold : pending s.events = some none := by
    refine h.settled fun j hj => ?_
    obtain rfl := Option.some.inj (hroc.symm.trans hj.1)
    simpa [hon hj.2.1, hi] using hj.2.2.1
  refine h.of_held hheld rfl rfl rfl ?_ ?_ ?_ ?_ ?_ ?_ ?_
  · exact h.clears
  · exact h.stray
  · exact h.unused
  · intro j hj
    obtain rfl := Option.some.inj hj
    exact hroc
  · have htxq := h.txq
    simpa [State.readyOnChannel, hi, Stopped] using htxq
  · intro j hj
    obtain rfl := Option.some.inj (hroc.symm.trans hj.1)
    have hmgmt : (s.elems k).mgmtRoc = false := hj.2.1
    simp [State.readyOnChannel, State.call, hmgmt, pending, huntold]
  · intro hno
    cases hmgmt : (s.elems k).mgmtRoc
    · exact absurd ⟨hroc, hmgmt, Or.inr rfl, id⟩ (hno k)
    · simpa [State.readyOnChannel, hmgmt] using huntold

theorem onChan_inv (h : Inv s) (hi : s.ind = .onChan k) : Inv (s.setOnChan k) := by
  obtain ⟨hroc, hown, hact⟩ := h.at (show elem s.ind = some k by rw [hi]; rfl)
  have hheld : ∀ j, Held (s.setOnChan k) j ↔ Held s j := by
    simp [Held, State.setOnChan, State.setElem, hi, Freed]
  have haw : ∀ j, Awaits (s.setOnChan k) j ↔ Awaits s j := by
    intro j
    by_cases hjk : j = k
    · subst hjk
      simp [Awaits, State.setOnChan, State.setElem, hi, Reported]
    · have hne : s.rocElem ≠ some j := by simp [hroc, Ne.symm hjk]
      exact iff_of_false (fun hj => hne hj.1) (fun hj => hne hj.1)
  refine h.of_held hheld rfl rfl rfl ?_ ?_ ?_ ?_ ?_ ?_ ?_
  · exact h.clears
  · exact h.stray
  · intro j hj
    rw [show own s.rtnl = some j from hj] at hown
    cases hown
  · intro j hj
    cases hj
  · have htxq := h.txq
    simpa [State.setOnChan, State.setElem, hi, Stopped] using htxq
  · intro j hj
    have hj' := (haw j).mp hj
    obtain rfl := Option.some.inj (hroc.symm.trans hj'.1)
    simpa [State.setOnChan, State.setElem, State.call] using h.awaits k hj'
  · exact fun hno => h.settled fun j hj => hno j ((haw j).mpr hj)

theorem expired_inv (h : Inv s) (hi : s.ind = .expired k) : Inv (s.reportExpired k) := by
  obtain ⟨hroc, hown, hact⟩ := h.at (show elem s.ind = some k by rw [hi]; rfl)
  have hheld : ∀ j, Held (s.reportExpired k) j ↔ Held s j := by
    simp [Held, State.reportExpired, hi, Freed]
  have haw : ∀ j, Awaits s j ↔ j = k ∧ (s.elems k).mgmtRoc = false ∧ (s.elems k).onChan = true := by
    intro j
    by_cases hjk : j = k
    · subst hjk
      simp [Awaits, hroc, hi, Reported]
    · have hne : s.rocElem ≠ some j := by simp [hroc, Ne.symm hjk]
      exact iff_of_false (fun hj => hne hj.1) (fun hj => hjk hj.1)
  refine h.of_held hheld rfl rfl rfl ?_ ?_ ?_ ?_ ?_ ?_ ?_
  · exact h.clears
  · exact h.stray
  · exact h.unused
  · intro j hj
    obtain rfl := Option.some.inj hj
    exact hroc
  · have htxq := h.txq
    simpa [State.reportExpired, hi, Stopped] using htxq
  · exact fun j hj => absurd trivial hj.2.2.2
  · intro _
    by_cases htold : (s.elems k).mgmtRoc = false ∧ (s.elems k).onChan = true
    · have hpend := h.awaits k ((haw k).mpr ⟨rfl, htold⟩)
      simp [State.reportExpired, htold.1, htold.2, pending, hpend]
    · have hpend := h.settled fun j hj => htold ((haw j).mp hj).2
      have hcond : (!(s.elems k).mgmtRoc && (s.elems k).onChan) = false := by
        simpa using htold
      simpa [State.reportExpired, hcond] using hpend

/-- What the handler still does after its report awaits no call. -/
theorem reported_none (hrep : Reported s.ind) (k : ℕ) : ¬ Awaits s k := fun hk => hk.2.2.2 hrep

theorem stop_inv (h : Inv s) (hi : s.ind = .deinit k) :
    Inv { s with txqActive := false, rocCookieCnt := s.nextCookie, ind := .free k } := by
  obtain ⟨hroc, hown, hact⟩ := h.at (show elem s.ind = some k by rw [hi]; rfl)
  have hheld : ∀ j, Held { s with ind := .free k } j ↔ Held s j := by
    simp [Held, hi, Freed]
  refine h.of_held hheld rfl rfl rfl ?_ ?_ ?_ ?_ ?_ ?_ ?_
  · exact h.clears
  · exact h.stray
  · exact h.unused
  · intro j hj
    obtain rfl := Option.some.inj hj
    exact hroc
  · simp [Stopped, hact]
  · exact fun j hj => absurd trivial hj.2.2.2
  · exact fun _ => h.settled (reported_none (by rw [hi]; trivial))

theorem release_inv (h : Inv s) (hi : s.ind = .free k) : Inv { s.kfree k with ind := .clear k } := by
  obtain ⟨hroc, hown, hact⟩ := h.at (show elem s.ind = some k by rw [hi]; rfl)
  have hheld : ∀ j, Held s j ↔ j = k := by simp [Held, hroc, hown, hi, Freed, eq_comm]
  have hheld' : ∀ j, ¬ Held { s.kfree k with ind := .clear k } j := by
    simp [Held, State.kfree, hown, Freed]
  obtain ⟨hlt, hfree⟩ := h.live k ((hheld k).mpr rfl)
  constructor
  · simp [State.kfree, hfree]
  · exact fun j hj => absurd hj (hheld' j)
  · intro j hj _
    by_cases hjk : j = k
    · simp [State.kfree, hjk, hfree]
    · simpa [State.kfree, hjk] using h.gone j hj fun hs => hjk ((hheld j).mp hs)
  · intro j hj
    have hjk : j ≠ k := by
      rintro rfl
      exact absurd hlt (Nat.not_lt.mpr hj)
    simpa [State.kfree, hjk] using h.fresh j hj
  · exact h.clears
  · exact h.stray
  · exact h.unused
  · intro j hj
    obtain rfl := Option.some.inj hj
    exact hroc
  · have htxq := h.txq
    simpa [State.kfree, hi, Stopped] using htxq
  · exact fun j hj => absurd trivial hj.2.2.2
  · exact fun _ => h.settled (reported_none (by rw [hi]; trivial))

theorem forget_inv (h : Inv s) (hi : s.ind = .clear k) :
    Inv { s with rocElem := none, ind := .idle } := by
  obtain ⟨hroc, hown, hact⟩ := h.at (show elem s.ind = some k by rw [hi]; rfl)
  have hheld : ∀ j, ¬ Held s j := by simp [Held, hown, hi, Freed]
  have hheld' : ∀ j, ¬ Held { s with rocElem := none, ind := .idle } j := by simp [Held, hown]
  constructor
  · exact h.fault
  · exact fun j hj => absurd hj (hheld' j)
  · exact fun j hlt _ => h.gone j hlt (hheld j)
  · exact h.fresh
  · exact fun _ => rfl
  · exact h.stray
  · exact h.unused
  · intro j hj
    cases hj
  · have htxq := h.txq
    simpa [hi, Stopped] using htxq
  · intro j hj
    cases hj.1
  · exact fun _ => h.settled (reported_none (by rw [hi]; trivial))

end Steps

/-! ## Runs -/

section Runs
variable {s t : State} {a : Act}

theorem deref_live {f : ℕ → State} (h : Live s) :
    ∃ k, s.rocElem = some k ∧ s.deref s.rocElem f = f k := by
  obtain ⟨k, hk, hfree⟩ := h
  exact ⟨k, hk, by simp [State.deref, Option.mem_def.mp hk, hfree]⟩

theorem rtnl_inv (h : Inv s) {ok : Bool} (hc : RtnlOrderly s) (ht : s.rtnlStep ok = some t) :
    Inv t := by
  unfold State.rtnlStep at ht
  unfold RtnlOrderly at hc
  cases hr : s.rtnl <;> rw [hr] at ht hc
  case idle => cases ht
  case test r =>
    cases ht
    by_cases hroc : s.rocElem.isSome = true
    · rw [if_pos hroc]
      exact h.goto (by rw [hr]; exact id) id id False.elim
    · rw [if_neg hroc]
      exact h.goto (by rw [hr]; exact id) id id fun _ => by simpa using hroc
  case retest r =>
    cases ht
    by_cases hroc : s.rocElem.isSome = true
    · rw [if_pos hroc]
      exact h.leave (by rw [hr]; exact id) _
    · rw [if_neg hroc]
      exact h.goto (by rw [hr]; exact id) id id fun _ => by simpa using hroc
  case p2p r =>
    cases ht
    cases ok
    · exact h.leave (by rw [hr]; exact id) _
    · exact h.goto (by rw [hr]; exact id) id id fun _ => h.clears (by rw [hr]; trivial)
  case alloc r =>
    cases ht
    cases ok
    · exact h.leave (by rw [hr]; exact id) _
    · exact alloc_inv h hr
  case publish k mgmt =>
    cases ht
    exact publish_inv h hr
  case request k mgmt =>
    cases ht
    cases ok
    · exact h.goto (by rw [hr]; exact id) id id False.elim
    · exact h.goto (by rw [hr]; exact id) id id False.elim
  case confirm k mgmt =>
    cases ht
    cases ok
    · exact h.moves (by rw [hr]; exact id) id id False.elim _ _
    · cases mgmt
      · exact h.moves (by rw [hr]; exact id) id id False.elim _ _
      · exact h.moves (by rw [hr]; exact id) id id False.elim _ _
  case clear k e =>
    cases ht
    exact clear_inv h hr hc.1 hc.2.1 hc.2.2
  case free k e =>
    cases ht
    exact free_inv h hr
  case deinit e =>
    cases ht
    exact deinit_inv h hr
  case mark =>
    cases ht
    obtain ⟨k, hk, hfree, hind, hon⟩ := hc
    have hd : s.deref s.rocElem s.markMgmt = s.markMgmt k := by
      simp [State.deref, Option.mem_def.mp hk, hfree]
    rw [hd]
    exact mark_inv h hr hk hind hon
  case roc v chan =>
    cases ht
    obtain ⟨k, -, hd⟩ := deref_live (f := fun k => s.goto (.chan v chan (s.elems k).wdev)) hc
    rw [hd]
    exact h.goto (by rw [hr]; exact id) id id False.elim
  case chan v chan w =>
    cases ht
    obtain ⟨k, -, hd⟩ := deref_live (f := s.checkChan v chan w) hc
    rw [hd, State.checkChan]
    split_ifs
    · exact h.goto (by rw [hr]; exact id) id id False.elim
    · exact h.leave (by rw [hr]; exact id) _
  case log =>
    cases ht
    obtain ⟨k, -, hd⟩ := deref_live (f := fun _ => s.leave (some (-EINVAL))) hc
    rw [hd]
    exact h.leave (by rw [hr]; exact id) _
  case cancel =>
    cases ht
    cases ok
    · exact h.leave (by rw [hr]; exact id) _
    · exact h.goto (by rw [hr]; exact id) id id False.elim
  case cancelCfm =>
    cases ht
    exact h.leave (by rw [hr]; exact id) _
  case wdev v =>
    cases ht
    obtain ⟨k, hk, hfree, hv⟩ := hc
    have hd : (s.deref s.rocElem fun k =>
        if (s.elems k).wdev = v then s.goto .kfree else s.leave none) = s.leave none := by
      simp [State.deref, Option.mem_def.mp hk, hfree, hv]
    rw [hd]
    exact h.leave (by rw [hr]; exact id) _
  case kfree => exact absurd (by rw [hr]; trivial) h.stray
  case null => exact absurd (by rw [hr]; trivial) h.stray

theorem held_deref (h : Inv s) {k : ℕ} (hi : elem s.ind = some k) (hnf : ¬ Freed s.ind)
    (f : ℕ → State) : s.deref (some k) f = f k := by
  have hlive := h.live k (Or.inl ⟨h.ind k hi, hnf⟩)
  simp [State.deref, hlive.2]

theorem ind_inv (h : Inv s) (hc : Orderly s .handler) (ht : s.indStep = some t) : Inv t := by
  unfold State.indStep at ht
  unfold Orderly at hc
  cases hi : s.ind <;> rw [hi] at ht hc
  case idle => cases ht
  case ready k =>
    cases ht
    rw [held_deref h (by rw [hi]; rfl) (by rw [hi]; exact id)]
    exact ready_inv h hi hc
  case onChan k =>
    cases ht
    rw [held_deref h (by rw [hi]; rfl) (by rw [hi]; exact id)]
    exact onChan_inv h hi
  case expired k =>
    cases ht
    rw [held_deref h (by rw [hi]; rfl) (by rw [hi]; exact id)]
    exact expired_inv h hi
  case deinit k =>
    cases ht
    exact stop_inv h hi
  case free k =>
    cases ht
    exact release_inv h hi
  case clear k =>
    cases ht
    exact forget_inv h hi

theorem enter_inv (h : Inv s) (hr : s.rtnl = .idle) (ht : s.enter a = some t) : Inv t := by
  have hact : ¬ Active s.rtnl := by
    rw [hr]
    exact id
  cases a <;> simp only [State.enter] at ht
  case remainOnChannel =>
    cases ht
    exact h.goto hact id id False.elim
  case mgmtTx =>
    cases ht
    split_ifs
    · exact h.goto hact id id False.elim
    · exact h.goto hact id id False.elim
  case cancel =>
    cases ht
    split_ifs
    · exact h.goto hact id id False.elim
    · exact h.leave hact _
  case close =>
    cases ht
    split_ifs
    · exact h.goto hact id id False.elim
    · exact h.leave hact _
  all_goals cases ht

theorem starts (h : Inv s) (hidle : s.ind = .idle) (f : ℕ → Ipc)
    (hf : ∀ k, f k = .ready k ∨ f k = .expired k) :
    Inv { s with ind := match s.rocElem with | none => .idle | some k => f k } := by
  refine begin_inv h hidle ?_
  cases hroc : s.rocElem with
  | none => exact Or.inl rfl
  | some k => exact Or.inr ⟨k, rfl, hf k⟩

theorem step_inv (h : Inv s) (hc : Orderly s a) (ht : step s a = some t) : Inv t := by
  unfold step at ht
  rw [if_neg (by simp [h.fault])] at ht
  cases a <;> simp only at ht
  case rtnl ok => exact rtnl_inv h hc ht
  case handler => exact ind_inv h hc ht
  case chanSwitchInd =>
    split_ifs at ht with hidle
    cases ht
    exact starts h hidle .ready fun k => Or.inl rfl
  case expInd =>
    split_ifs at ht with hidle
    cases ht
    exact starts h hidle .expired fun k => Or.inr rfl
  all_goals
    split at ht
    case h_1 hr => exact enter_inv h hr ht
    case h_2 => cases ht

theorem init_inv (vifIndex : VifId → ℕ) : Inv (init vifIndex) where
  fault := rfl
  live k hk := by simp [Held, init, own] at hk
  gone k hk := absurd hk (Nat.not_lt_zero k)
  fresh _ _ := rfl
  clears := False.elim
  stray := id
  unused k hk := by cases hk
  ind k hk := by cases hk
  txq := by simp [init, Active]
  awaits k hk := by cases hk.1
  settled _ := rfl

end Runs

/-- A remain-on-channel that comes to its end, a frame that starts one and another
that finds it, and a request that the firmware refuses. -/
def sampleRun : List Act :=
  [.remainOnChannel 0 2437 100, .rtnl true, .rtnl true, .rtnl true, .rtnl true, .rtnl true,
    .chanSwitchInd, .handler, .rtnl true, .handler, .cancel, .rtnl true, .expInd, .handler,
    .rtnl true, .handler, .handler, .handler,
    .mgmtTx 0 2412, .rtnl true, .rtnl true, .rtnl true, .rtnl true, .rtnl true, .rtnl true,
    .rtnl true, .mgmtTx 1 2412, .rtnl true, .rtnl true, .rtnl true, .chanSwitchInd, .handler,
    .handler, .close 1, .rtnl true, .expInd, .handler, .handler, .handler, .handler,
    .remainOnChannel 1 2437 100, .rtnl true, .rtnl true, .rtnl true, .rtnl true, .rtnl true,
    .rtnl false, .rtnl true, .rtnl true, .rtnl true]

/-- The requester comes to wait for its confirmation. -/
def sent (a : Act) : List Act := [a, .rtnl true, .rtnl true, .rtnl true, .rtnl true, .rtnl true]

/-- The expiry is handled before the confirmation, which failed. -/
def failedRun : List Act :=
  sent (.remainOnChannel 0 2437 100)++[.expInd, .handler, .handler, .handler, .handler,
    .rtnl false, .rtnl true, .rtnl true]

/-- The expiry is handled before the frame marks the element. -/
def frameRun : List Act :=
  sent (.mgmtTx 0 2412)++[.expInd, .handler, .handler, .handler, .handler, .rtnl true, .rtnl true]

/-- The interface is closed on the channel. -/
def closedRun : List Act :=
  sent (.remainOnChannel 0 2437 100)++[.rtnl true, .chanSwitchInd, .handler, .handler, .close 0,
    .rtnl true, .rtnl true, .rtnl true]

/-- The switch is handled before the frame marks the element, so its end is not reported. -/
def markedRun : List Act :=
  sent (.mgmtTx 0 2412)++[.chanSwitchInd, .handler, .handler, .rtnl true, .rtnl true, .expInd,
    .handler, .handler, .handler, .handler]

end AIC.RocLifecycle
