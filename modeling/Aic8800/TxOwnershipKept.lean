import Aic8800.TxOwnership

/-!
# Frames in hand

An operation takes a frame in hand, and frees it or puts it in a place. What is
known of the memory, of the ring of entries and of the txqs is kept apart, as
most operations change one of them.
-/

set_option autoImplicit false

namespace AIC.TxOwnership
open AIC.TxConfirmRing (Status retryRequired swRetryRequired SDIO_TXDESC_CNT)
open Lib.HeldPlaces

/-- The frames in places are allocated, and the one in hand is. -/
structure Holds (s : State) (hand : Option ℕ) : Prop where
  sound : s.fault = false
  held : Held s.place (fun k => Live s k ∧ hand ≠ some k)
  inHand : ∀ k ∈ hand, Live s k
  hdr : ∀ k, hand ≠ some k → ((s.frame k).hdr = .allocated ↔ Live s k)
  fresh : ∀ k, s.next ≤ k → (s.frame k).skb = .absent
  confirmed : ∀ k ∈ s.confirmed, (s.frame k).skb = .freed

/-- The entry of a frame that lives. -/
structure Slot (s : State) (i k : ℕ) : Prop where
  index : i = (s.frame k).hostid % SDIO_TXDESC_CNT
  needCfm : (s.frame k).needCfm = true
  pushed : ∀ q, k ∉ s.place (.txq q)

structure Entries (s : State) : Prop where
  old : ∀ i k, s.txHostId i = some k → k < s.next
  slot : ∀ i k, s.txHostId i = some k → Live s k → Slot s i k
  bus : ∀ k ∈ s.place .bus, (s.frame k).needCfm = true → Entered s k
  aggr : ∀ k ∈ s.place .aggr, Entered s k
  firmware : ∀ k ∈ s.place .firmware, Entered s k
  down : s.busUp = false →
    s.place .bus = [] ∧ s.place .aggr = [] ∧ ∀ k ∈ s.place .firmware, Pending s k

/-- The retries are the first of the list. -/
def Counted (s : State) (q : ℕ) : Prop := ∃ again rest, s.place (.txq q) = again++rest ∧
  s.nbRetry q = again.length ∧ s.lastRetrySkb q = again.getLast?

structure Txqs (s : State) : Prop where
  active : ∀ q, s.active q = false → s.place (.txq q) = []
  retries : ∀ q, s.active q = true → Counted s q

structure Inv (s : State) (hand : Option ℕ) : Prop where
  holds : Holds s hand
  entries : Entries s
  txqs : Txqs s
  ret : ∀ k, s.ret ≠ some (.busy, k)

section Operations
variable {s t : State} {j k q : ℕ} {p : Place} {l : List ℕ} {hand : Option ℕ}

theorem Holds.mem (h : Holds s hand) (hp : k ∈ s.place p) : Live s k ∧ hand ≠ some k :=
  h.held.mem_live hp

theorem Holds.lt (h : Holds s hand) (hk : Live s k) : k < s.next := by
  by_contra hge
  rw [Live, h.fresh k (Nat.le_of_not_lt hge)] at hk
  cases hk

theorem Holds.of_same (h : Holds s hand) (hframe : t.frame = s.frame) (hplace : t.place = s.place)
    (hnext : t.next = s.next) (hconfirmed : t.confirmed = s.confirmed)
    (hfault : t.fault = s.fault) : Holds t hand := by
  obtain ⟨frame, next, place, active, last, nb, ring, free, cfms, up, ret, confirmed, fault⟩ := t
  dsimp only at hframe hplace hnext hconfirmed hfault
  subst hframe hplace hnext hconfirmed hfault
  exact ⟨h.sound, h.held, h.inHand, h.hdr, h.fresh, h.confirmed⟩

theorem live_setFrame {g : Frame} :
    Live (s.setFrame k g) j ↔ if j = k then g.skb = .allocated else Live s j := by
  unfold Live State.setFrame
  by_cases hj : j = k
  · simp [hj]
  · simp [hj]

theorem setFrame_frame {g : Frame} (hj : j ≠ k) : (s.setFrame k g).frame j = s.frame j :=
  Function.update_of_ne hj _ _

/-! ## The memory -/

theorem no_hand : ∀ k ∈ (none : Option ℕ), Live s k :=
  fun _ h => absurd h (Option.not_mem_none _)

theorem Holds.hdr_iff (h : Holds s none) (k : ℕ) : (s.frame k).hdr = .allocated ↔ Live s k :=
  h.hdr k (Option.some_ne_none k).symm

theorem Holds.update {g : Frame} (h : Holds s (some k)) (hg : g.skb = .allocated) :
    Holds (s.setFrame k g) (some k) := by
  have hne : ∀ {j}, some k ≠ some j → j ≠ k := fun hj heq => hj (congrArg some heq.symm)
  have hfreed : ∀ {j}, (s.frame j).skb ≠ .allocated → j ≠ k := by
    rintro j hj rfl
    exact hj (h.inHand j rfl)
  refine ⟨h.sound, h.held.congr fun j => ?_, fun j hj => ?_, fun j hj => ?_, fun j hj => ?_,
    fun j hj => ?_⟩
  · refine and_congr_left fun hj => ?_
    rw [live_setFrame, if_neg (hne hj)]
  · obtain rfl := Option.some.inj hj
    rw [live_setFrame, if_pos rfl]
    exact hg
  · rw [live_setFrame, if_neg (hne hj), setFrame_frame (hne hj)]
    exact h.hdr j hj
  · have habsent : (s.frame j).skb = .absent := h.fresh j hj
    rw [setFrame_frame (hfreed (by rw [habsent]; decide)), habsent]
  · have hgone : (s.frame j).skb = .freed := h.confirmed j hj
    rw [setFrame_frame (hfreed (by rw [hgone]; decide)), hgone]

theorem Holds.freed {g : Frame} (h : Holds s (some k)) (hskb : g.skb = .freed)
    (hhdr : g.hdr ≠ .allocated) : Holds (s.setFrame k g) none := by
  have hlive : ∀ j, Live (s.setFrame k g) j ↔ Live s j ∧ some k ≠ some j := by
    intro j
    rw [live_setFrame]
    by_cases hj : j = k
    · simp [hj, hskb]
    · simp [hj, Ne.symm hj]
  refine ⟨h.sound, h.held.congr fun j => ?_, no_hand, fun j _ => ?_, fun j hj => ?_, fun j hj => ?_⟩
  · rw [hlive j]
    exact (and_iff_left (Option.some_ne_none j).symm).symm
  · rw [hlive j]
    by_cases hj : j = k
    · subst hj
      refine iff_of_false ?_ fun hboth => hboth.2 rfl
      simpa [State.setFrame] using hhdr
    · have hne : some k ≠ some j := fun heq => hj (Option.some.inj heq).symm
      rw [setFrame_frame hj, h.hdr j hne]
      exact (and_iff_left hne).symm
  · have hlt : k < s.next := h.lt (h.inHand k rfl)
    have hge : s.next ≤ j := hj
    rw [setFrame_frame (by omega)]
    exact h.fresh j hge
  · by_cases hjk : j = k
    · subst hjk
      simp [State.setFrame, hskb]
    · rw [setFrame_frame hjk]
      exact h.confirmed j hj

theorem Holds.alloc (h : Holds s none) (mgmt : Bool) (frameCtl : UInt8) (ethertype : ℕ) :
    Holds (s.allocSkb mgmt frameCtl ethertype) (some s.next) := by
  have habsent : (s.frame s.next).skb = .absent := h.fresh _ le_rfl
  have hdead : ¬ Live s s.next := by
    rw [Live, habsent]
    decide
  have hlive : ∀ j, Live (s.allocSkb mgmt frameCtl ethertype) j ↔ j = s.next ∨ Live s j := by
    intro j
    refine live_setFrame.trans ?_
    by_cases hj : j = s.next
    · simp [hj]
    · simp [hj]
  have hframe : ∀ j, j ≠ s.next →
      (s.allocSkb mgmt frameCtl ethertype).frame j = s.frame j := fun j hj => setFrame_frame hj
  refine ⟨h.sound, h.held.congr fun j => ?_, fun j hj => ?_, fun j hj => ?_, fun j hj => ?_,
    fun j hj => ?_⟩
  · rw [hlive j]
    by_cases hj : j = s.next
    · simp [hj, hdead]
    · simp [hj, Ne.symm hj]
  · obtain rfl := Option.some.inj hj
    exact (hlive _).mpr (.inl rfl)
  · have hne : j ≠ s.next := fun heq => hj (congrArg some heq.symm)
    rw [hlive j, hframe j hne, h.hdr_iff j]
    exact (or_iff_right hne).symm
  · have hge : s.next+1 ≤ j := hj
    rw [hframe j (by omega)]
    exact h.fresh j (by omega)
  · have hgone : (s.frame j).skb = .freed := h.confirmed j hj
    have hne : j ≠ s.next := by
      rintro rfl
      rw [habsent] at hgone
      cases hgone
    rw [hframe j hne, hgone]

theorem Holds.put (h : Holds s (some k)) (hhdr : (s.frame k).hdr = .allocated)
    (hl : l.Perm (k::s.place p)) : Holds (s.setPlace p l) none := by
  have hlive : Live s k := h.inHand k rfl
  have hheld : Held (Function.update s.place p l)
      (fun j => (Live s j ∧ some k ≠ some j) ∨ j = k) := h.held.put (fun hk => hk.2 rfl) hl
  refine ⟨h.sound, hheld.congr fun j => ?_, no_hand, fun j _ => ?_, h.fresh, h.confirmed⟩
  · by_cases hj : j = k
    · subst hj
      exact iff_of_true (.inr rfl) ⟨hlive, (Option.some_ne_none j).symm⟩
    · have hne : some k ≠ some j := fun heq => hj (Option.some.inj heq).symm
      simp only [hj, or_false, hne, ne_eq, not_false_eq_true, and_true, reduceCtorEq]
      exact Iff.rfl
  · by_cases hj : j = k
    · subst hj
      exact iff_of_true hhdr hlive
    · exact h.hdr j fun heq => hj (Option.some.inj heq).symm

theorem Holds.take (h : Holds s none) (hk : k ∈ s.place p) :
    Holds (s.setPlace p ((s.place p).erase k)) (some k) := by
  refine ⟨h.sound, (h.held.take hk).congr fun j => ?_, fun j hj => ?_, fun j _ => h.hdr_iff j,
    h.fresh, h.confirmed⟩
  · refine ⟨fun hj => ⟨hj.1.1, fun heq => hj.2 (Option.some.inj heq).symm⟩, fun hj => ?_⟩
    exact ⟨⟨hj.1, (Option.some_ne_none j).symm⟩, fun heq => hj.2 (congrArg some heq.symm)⟩
  · obtain rfl := Option.some.inj hj
    exact (h.mem hk).1

theorem release_eq (hfault : s.fault = false) (hskb : Live s k)
    (hhdr : (s.frame k).hdr = .allocated) : s.release k = s.setFrame k { s.frame k with
      skb := .freed
      hdr := .freed } := by
  have hlive : (s.frame k).skb = .allocated := hskb
  simp [State.release, State.freeHdr, State.freeSkb, State.setFrame, hlive, hhdr, hfault]

theorem freeSkb_eq (hfault : s.fault = false) (hskb : Live s k) :
    s.freeSkb k = s.setFrame k { s.frame k with skb := .freed } := by
  have hlive : (s.frame k).skb = .allocated := hskb
  simp [State.freeSkb, State.setFrame, hlive, hfault]

theorem touch_eq (hskb : Live s k) (hhdr : (s.frame k).hdr = .allocated) : s.touch k = s := by
  have hlive : (s.frame k).skb = .allocated := hskb
  simp [State.touch, hlive, hhdr]

/-! ## The ring -/

theorem Entries.of_same (h : Entries s) (hframe : t.frame = s.frame) (hplace : t.place = s.place)
    (hnext : t.next = s.next) (hring : t.txHostId = s.txHostId) (hcfms : t.cfms = s.cfms)
    (hup : t.busUp = s.busUp) : Entries t := by
  obtain ⟨frame, next, place, active, last, nb, ring, free, cfms, up, ret, confirmed, fault⟩ := t
  dsimp only at hframe hplace hnext hring hcfms hup
  subst hframe hplace hnext hring hcfms hup
  exact ⟨h.old, fun i k hk hlive => ⟨(h.slot i k hk hlive).index, (h.slot i k hk hlive).needCfm,
    (h.slot i k hk hlive).pushed⟩, h.bus, h.aggr, h.firmware, h.down⟩

/-- A place or an entry has the frame. -/
def Known (s : State) (k : ℕ) : Prop := (∃ p, k ∈ s.place p) ∨ ∃ i, s.txHostId i = some k

/-- The numbers of the known frames stay, and none of them comes to life. -/
theorem Entries.frames (h : Entries s) {frame : ℕ → Frame} {next : ℕ} (hnext : s.next ≤ next)
    (hsame : ∀ k, Known s k → (frame k).hostid = (s.frame k).hostid ∧
      (frame k).needCfm = (s.frame k).needCfm ∧ ((frame k).skb = .allocated → Live s k)) :
    Entries { s with
      frame := frame
      next := next } := by
  have hentered : ∀ {p k}, k ∈ s.place p → Entered s k →
      s.txHostId ((frame k).hostid % SDIO_TXDESC_CNT) = some k := by
    intro p k hk he
    rw [(hsame k (.inl ⟨p, hk⟩)).1]
    exact he
  refine ⟨fun i k hk => (h.old i k hk).trans_le hnext, fun i k hk hlive => ?_, fun k hk hcfm => ?_,
    fun k hk => hentered hk (h.aggr k hk), fun k hk => hentered hk (h.firmware k hk), h.down⟩
  · obtain ⟨hhost, hcfm, hwas⟩ := hsame k (.inr ⟨i, hk⟩)
    have hslot : Slot s i k := h.slot i k hk (hwas hlive)
    exact ⟨hslot.index.trans (by rw [hhost]), hcfm.trans hslot.needCfm, hslot.pushed⟩
  · have hwas : (s.frame k).needCfm = true := (hsame k (.inl ⟨_, hk⟩)).2.1.symm.trans hcfm
    exact hentered hk (h.bus k hk hwas)

theorem Entries.setFrame (h : Entries s) {g : Frame} (hhost : g.hostid = (s.frame k).hostid)
    (hcfm : g.needCfm = (s.frame k).needCfm) (hlive : g.skb = .allocated → Live s k) :
    Entries (s.setFrame k g) := by
  refine h.frames le_rfl fun j _ => ?_
  by_cases hj : j = k
  · subst hj
    rw [Function.update_self]
    exact ⟨hhost, hcfm, hlive⟩
  · rw [Function.update_of_ne hj]
    exact ⟨rfl, rfl, id⟩

/-- A frame in hand without an entry is not known. -/
theorem Entries.setUnentered (h : Entries s) (hh : Holds s (some k))
    (hnew : ∀ i, s.txHostId i ≠ some k) (g : Frame) : Entries (s.setFrame k g) := by
  refine h.frames le_rfl fun j hj => ?_
  have hjk : j ≠ k := by
    rintro rfl
    rcases hj with ⟨p, hp⟩ | ⟨i, hi⟩
    · exact (hh.mem hp).2 rfl
    · exact hnew i hi
  rw [Function.update_of_ne hjk]
  exact ⟨rfl, rfl, id⟩

theorem Entries.alloc (h : Entries s) (hh : Holds s hand) (mgmt : Bool) (frameCtl : UInt8)
    (ethertype : ℕ) : Entries (s.allocSkb mgmt frameCtl ethertype) := by
  refine h.frames (Nat.le_succ _) fun j hj => ?_
  have hlt : j < s.next := by
    rcases hj with ⟨p, hp⟩ | ⟨i, hi⟩
    · exact hh.lt (hh.mem hp).1
    · exact h.old i j hi
  rw [setFrame_frame hlt.ne]
  exact ⟨rfl, rfl, id⟩

/-- An entry is overwritten only when its frame is dead. -/
theorem Entries.enter (h : Entries s) (hh : Holds s (some k))
    (hhost : (s.frame k).hostid = s.txdescFreeIdx) (hcfm : (s.frame k).needCfm = true)
    (hdead : ∀ j, s.txHostId (s.txdescFreeIdx % SDIO_TXDESC_CNT) = some j → ¬ Live s j) :
    Entries (s.txdescPush k) := by
  have hkeep : ∀ {i p j}, j ∈ s.place p → s.txHostId i = some j →
      (s.txdescPush k).txHostId i = some j := by
    intro i p j hj hentry
    refine (Function.update_of_ne ?_ _ _).trans hentry
    rintro rfl
    exact hdead j hentry (hh.mem hj).1
  refine ⟨fun i j hj => ?_, fun i j hj hlive => ?_, fun j hj hneed => hkeep hj (h.bus j hj hneed),
    fun j hj => hkeep hj (h.aggr j hj), fun j hj => hkeep hj (h.firmware j hj), fun hup => ?_⟩
  · by_cases hi : i = s.txdescFreeIdx % SDIO_TXDESC_CNT
    · obtain rfl : k = j := by simpa [State.txdescPush, hi] using hj
      exact hh.lt (hh.inHand k rfl)
    · exact h.old i j (by simpa [State.txdescPush, hi] using hj)
  · by_cases hi : i = s.txdescFreeIdx % SDIO_TXDESC_CNT
    · obtain rfl : k = j := by simpa [State.txdescPush, hi] using hj
      exact ⟨hi.trans (by rw [← hhost]; rfl), hcfm, fun q hq => (hh.mem hq).2 rfl⟩
    · have hslot : Slot s i j := h.slot i j (by simpa [State.txdescPush, hi] using hj) hlive
      exact ⟨hslot.index, hslot.needCfm, hslot.pushed⟩
  · obtain ⟨hbus, haggr, hpending⟩ := h.down hup
    refine ⟨hbus, haggr, fun j hj => ?_⟩
    obtain ⟨c, hc, hstatus, hentry⟩ := hpending j hj
    exact ⟨c, hc, hstatus, hkeep hj hentry⟩

/-- The places have no more than before. -/
theorem Entries.fewer (h : Entries s) {place : Place → List ℕ}
    (hsub : ∀ p, ∀ k ∈ place p, k ∈ s.place p) : Entries { s with place := place } := by
  have hnil : ∀ {p}, s.place p = [] → place p = [] := by
    intro p hp
    refine List.eq_nil_iff_forall_not_mem.mpr fun k hk => ?_
    have hin : k ∈ s.place p := hsub p k hk
    rw [hp] at hin
    exact List.not_mem_nil hin
  refine ⟨h.old, fun i k hk hlive => ?_, fun k hk => h.bus k (hsub _ k hk),
    fun k hk => h.aggr k (hsub _ k hk), fun k hk => h.firmware k (hsub _ k hk), fun hup => ?_⟩
  · have hslot : Slot s i k := h.slot i k hk hlive
    exact ⟨hslot.index, hslot.needCfm, fun q hq => hslot.pushed q (hsub _ k hq)⟩
  · obtain ⟨hbus, haggr, hpending⟩ := h.down hup
    exact ⟨hnil hbus, hnil haggr, fun k hk => hpending k (hsub _ k hk)⟩

/-- What a frame must be for a place. -/
def Fits (s : State) (k : ℕ) : Place → Prop
  | .txq _ => ∀ i, s.txHostId i ≠ some k
  | .bus => s.busUp = true ∧ ((s.frame k).needCfm = true → Entered s k)
  | .aggr => s.busUp = true ∧ Entered s k
  | .firmware => s.busUp = true ∧ Entered s k

theorem Entries.put (h : Entries s) (hl : ∀ j ∈ l, j = k ∨ j ∈ s.place p) (hfit : Fits s k p) :
    Entries (s.setPlace p l) := by
  have hmem : ∀ r, ∀ j ∈ Function.update s.place p l r, j ∈ s.place r ∨ r = p ∧ j = k := by
    intro r j hj
    by_cases hr : r = p
    · subst hr
      rw [Function.update_self] at hj
      rcases hl j hj with rfl | hin
      · exact .inr ⟨rfl, rfl⟩
      · exact .inl hin
    · rw [Function.update_of_ne hr] at hj
      exact .inl hj
  refine ⟨h.old, fun i j hj hlive => ?_, fun j hj hcfm => ?_, fun j hj => ?_, fun j hj => ?_,
    fun hup => ?_⟩
  · have hslot : Slot s i j := h.slot i j hj hlive
    refine ⟨hslot.index, hslot.needCfm, fun q hq => ?_⟩
    rcases hmem _ j hq with hin | ⟨rfl, rfl⟩
    · exact hslot.pushed q hin
    · exact hfit i hj
  · rcases hmem _ j hj with hin | ⟨rfl, rfl⟩
    · exact h.bus j hin hcfm
    · exact hfit.2 hcfm
  · rcases hmem _ j hj with hin | ⟨rfl, rfl⟩
    · exact h.aggr j hin
    · exact hfit.2
  · rcases hmem _ j hj with hin | ⟨rfl, rfl⟩
    · exact h.firmware j hin
    · exact hfit.2
  · have hdown : s.busUp = false := hup
    obtain ⟨hbus, haggr, hpending⟩ := h.down hdown
    have hother : ∀ {r}, r = .bus ∨ r = .aggr ∨ r = .firmware →
        Function.update s.place p l r = s.place r := by
      intro r hr
      refine Function.update_of_ne ?_ _ _
      rintro rfl
      have hup' : s.busUp = true := by
        rcases hr with rfl | rfl | rfl <;> exact hfit.1
      rw [hdown] at hup'
      cases hup'
    refine ⟨(hother (.inl rfl)).trans hbus, (hother (.inr (.inl rfl))).trans haggr, fun j hj => ?_⟩
    have hin : j ∈ Function.update s.place p l .firmware := hj
    rw [hother (.inr (.inr rfl))] at hin
    exact hpending j hin

/-- A frame in a txq has no entry. -/
theorem Entries.unentered (h : Entries s) (hh : Holds s hand) (hk : k ∈ s.place (.txq q)) (i : ℕ) :
    s.txHostId i ≠ some k :=
  fun hi => (h.slot i k hi (hh.mem hk).1).pushed q hk

/-! ## The txqs -/

theorem Txqs.of_same (h : Txqs s) (hplace : ∀ q, t.place (.txq q) = s.place (.txq q))
    (hactive : t.active = s.active) (hlast : t.lastRetrySkb = s.lastRetrySkb)
    (hnb : t.nbRetry = s.nbRetry) : Txqs t := by
  refine ⟨fun q hq => ?_, fun q hq => ?_⟩
  · rw [hactive] at hq
    rw [hplace q, h.active q hq]
  · rw [hactive] at hq
    unfold Counted
    rw [hplace q, hlast, hnb]
    exact h.retries q hq

/-- A change of one txq, active or not. -/
theorem Txqs.change (h : Txqs s) (hplace : ∀ r, r ≠ q → t.place (.txq r) = s.place (.txq r))
    (hactive : ∀ r, r ≠ q → t.active r = s.active r)
    (hlast : ∀ r, r ≠ q → t.lastRetrySkb r = s.lastRetrySkb r)
    (hnb : ∀ r, r ≠ q → t.nbRetry r = s.nbRetry r)
    (hoff : t.active q = false → t.place (.txq q) = []) (hon : t.active q = true → Counted t q) :
    Txqs t := by
  refine ⟨fun r hr => ?_, fun r hr => ?_⟩
  · by_cases hrq : r = q
    · subst hrq
      exact hoff hr
    · rw [hplace r hrq]
      exact h.active r ((hactive r hrq).symm.trans hr)
  · by_cases hrq : r = q
    · subst hrq
      exact hon hr
    · unfold Counted
      rw [hplace r hrq, hlast r hrq, hnb r hrq]
      exact h.retries r ((hactive r hrq).symm.trans hr)

theorem setPlace_txq (hp : p ≠ .txq q) : (s.setPlace p l).place (.txq q) = s.place (.txq q) :=
  Function.update_of_ne hp.symm _ _

/-! ## The functions on a frame in hand -/

theorem Inv.alloc (hi : Inv s none) (mgmt : Bool) (frameCtl : UInt8) (ethertype : ℕ) :
    Inv (s.allocSkb mgmt frameCtl ethertype) (some s.next) :=
  ⟨hi.holds.alloc mgmt frameCtl ethertype, hi.entries.alloc hi.holds mgmt frameCtl ethertype,
    hi.txqs.of_same (fun _ => rfl) rfl rfl rfl, hi.ret⟩

theorem Inv.freeSkb (hi : Inv s (some k)) (hhdr : (s.frame k).hdr ≠ .allocated) :
    Inv (s.freeSkb k) none := by
  rw [freeSkb_eq hi.holds.sound (hi.holds.inHand k rfl)]
  exact ⟨hi.holds.freed rfl hhdr, hi.entries.setFrame rfl rfl nofun,
    hi.txqs.of_same (fun _ => rfl) rfl rfl rfl, hi.ret⟩

theorem Inv.release (hi : Inv s (some k)) (hhdr : (s.frame k).hdr = .allocated) :
    Inv (s.release k) none := by
  rw [release_eq hi.holds.sound (hi.holds.inHand k rfl) hhdr]
  exact ⟨hi.holds.freed rfl nofun, hi.entries.setFrame rfl rfl nofun,
    hi.txqs.of_same (fun _ => rfl) rfl rfl rfl, hi.ret⟩

theorem Inv.giveHdr (hi : Inv s (some k)) : Inv (s.giveHdr q k) (some k) := by
  have hlive : Live s k := hi.holds.inHand k rfl
  exact ⟨hi.holds.update hlive, hi.entries.setFrame rfl rfl fun _ => hlive,
    hi.txqs.of_same (fun _ => rfl) rfl rfl rfl, hi.ret⟩

theorem giveHdr_hdr : ((s.giveHdr q k).frame k).hdr = .allocated := by
  simp [State.giveHdr, State.setFrame]

theorem skbAppend_eq {old : ℕ} {xs ys : List ℕ} (hxs : old ∉ xs) :
    State.skbAppend old k (xs++old::ys) = xs++old::k::ys := by
  induction xs with
  | nil => simp [State.skbAppend]
  | cons x xs ih =>
    obtain ⟨hne, hrest⟩ := List.ne_and_not_mem_of_not_mem_cons hxs
    simp [State.skbAppend, Ne.symm hne, ih hrest]

/-- A retry goes behind the retries. -/
theorem txqQueueSkb_retry {again rest : List ℕ} (hfault : s.fault = false)
    (hlist : s.place (.txq q) = again++rest) (hnodup : (s.place (.txq q)).Nodup)
    (hlast : s.lastRetrySkb q = again.getLast?) : s.txqQueueSkb q k true =
      { s.setPlace (.txq q) (again++k::rest) with
        lastRetrySkb := Function.update s.lastRetrySkb q (some k)
        nbRetry := Function.update s.nbRetry q (s.nbRetry q+1) } := by
  unfold State.txqQueueSkb
  rcases List.eq_nil_or_concat again with rfl | ⟨before, old, rfl⟩
  · have hnone : s.lastRetrySkb q = none := hlast
    simp [hnone, hlist]
  · rw [List.concat_eq_append] at hlist hlast ⊢
    have hsome : s.lastRetrySkb q = some old := hlast.trans List.getLast?_concat
    rw [hlist, List.append_assoc, List.singleton_append] at hnodup
    have hout : old ∉ before := fun hmem =>
      (List.nodup_append.mp hnodup).2.2 old hmem old List.mem_cons_self rfl
    simp [hsome, hlist, skbAppend_eq hout, State.setPlace, hfault]

theorem Inv.txqQueueSkb (hi : Inv s (some k)) (hhdr : (s.frame k).hdr = .allocated)
    (hactive : s.active q = true) (hnew : ∀ i, s.txHostId i ≠ some k) (retry : Bool) :
    Inv (s.txqQueueSkb q k retry) none := by
  obtain ⟨again, rest, hlist, hnb, hlast⟩ := hi.txqs.retries q hactive
  have hput : ∀ {l : List ℕ}, l.Perm (k::s.place (.txq q)) → Holds (s.setPlace (.txq q) l) none ∧
      Entries (s.setPlace (.txq q) l) := by
    intro l hl
    exact ⟨hi.holds.put hhdr hl, hi.entries.put (fun j hj => List.mem_cons.mp (hl.subset hj)) hnew⟩
  have hother : ∀ {l : List ℕ} {r}, r ≠ q → (s.setPlace (.txq q) l).place (.txq r) =
      s.place (.txq r) := fun hr => setPlace_txq fun heq => hr (Place.txq.inj heq).symm
  have hon : ¬ s.active q = false := by
    rw [hactive]
    decide
  cases retry with
  | false =>
    obtain ⟨hholds, hentries⟩ := hput (List.perm_append_singleton k (s.place (.txq q)))
    refine ⟨hholds, hentries, ?_, hi.ret⟩
    refine hi.txqs.change (fun r hr => hother hr) (fun _ _ => rfl) (fun _ _ => rfl) (fun _ _ => rfl)
      (fun hoff => absurd hoff hon) fun _ => ⟨again, rest++[k], ?_, hnb, hlast⟩
    exact (Function.update_self _ _ _).trans (by rw [hlist, List.append_assoc])
  | true =>
    rw [txqQueueSkb_retry hi.holds.sound hlist (hi.holds.held.once _) hlast]
    have hperm : (again++k::rest).Perm (k::s.place (.txq q)) := by
      rw [hlist]
      exact List.perm_middle
    obtain ⟨hholds, hentries⟩ := hput hperm
    refine ⟨hholds.of_same rfl rfl rfl rfl rfl, hentries.of_same rfl rfl rfl rfl rfl rfl, ?_,
      hi.ret⟩
    refine hi.txqs.change (fun r hr => hother hr) (fun _ _ => rfl)
      (fun r hr => Function.update_of_ne hr _ _) (fun r hr => Function.update_of_ne hr _ _)
      (fun hoff => absurd hoff hon) fun _ => ⟨again++[k], rest, ?_, ?_, ?_⟩
    · exact (Function.update_self _ _ _).trans (by simp)
    · exact (Function.update_self _ _ _).trans (by rw [hnb, List.length_append]; rfl)
    · exact (Function.update_self _ _ _).trans List.getLast?_concat.symm

/-- The first frame of a txq is taken in hand. -/
theorem Inv.txqDequeue (hi : Inv s none) (hactive : s.active q = true)
    (hhead : s.place (.txq q) = k::l) : Inv (s.txqDequeue q k) (some k) := by
  have hk : k ∈ s.place (.txq q) := by
    rw [hhead]
    exact List.mem_cons_self
  have herase : (s.place (.txq q)).erase k = l := by
    rw [hhead, List.erase_cons_head]
  have hsub : ∀ r, ∀ j ∈ (s.setPlace (.txq q) ((s.place (.txq q)).erase k)).place r,
      j ∈ s.place r := by
    intro r j hj
    by_cases hr : r = .txq q
    · subst hr
      exact List.mem_of_mem_erase (by simpa [State.setPlace] using hj)
    · simpa [State.setPlace, Function.update_of_ne hr] using hj
  have hon : ¬ s.active q = false := by
    rw [hactive]
    decide
  refine ⟨(hi.holds.take hk).of_same rfl rfl rfl rfl rfl,
    (hi.entries.fewer hsub).of_same rfl rfl rfl rfl rfl rfl, ?_, hi.ret⟩
  refine hi.txqs.change (fun r hr => setPlace_txq fun heq => hr (Place.txq.inj heq).symm)
    (fun _ _ => rfl) (fun r hr => Function.update_of_ne hr _ _)
    (fun r hr => Function.update_of_ne hr _ _) (fun hoff => absurd hoff hon) fun _ => ?_
  obtain ⟨again, rest, hlist, hnb, hlast⟩ := hi.txqs.retries q hactive
  have hplace : (s.txqDequeue q k).place (.txq q) = l := (Function.update_self _ _ _).trans herase
  have hnb' : (s.txqDequeue q k).nbRetry q = s.nbRetry q-1 := Function.update_self _ _ _
  have hlast' : (s.txqDequeue q k).lastRetrySkb q =
      if s.nbRetry q = 1 then none else s.lastRetrySkb q := Function.update_self _ _ _
  unfold Counted
  rw [hplace, hnb', hlast', hnb, hlast]
  cases again with
  | nil => exact ⟨[], l, rfl, rfl, rfl⟩
  | cons a again =>
    rw [hhead] at hlist
    obtain ⟨-, hl⟩ := List.cons.inj hlist
    refine ⟨again, rest, hl, rfl, ?_⟩
    cases again with
    | nil => rfl
    | cons b again => simp

theorem Inv.markCfm (hi : Inv s (some k)) (hnew : ∀ i, s.txHostId i ≠ some k)
    (hdead : (s.frame k).confirms = true →
      ∀ j, s.txHostId (s.txdescFreeIdx % SDIO_TXDESC_CNT) = some j → ¬ Live s j) :
    Inv (s.markCfm k) (some k) := by
  have hlive : Live s k := hi.holds.inHand k rfl
  unfold State.markCfm
  split_ifs with hconfirms
  · have hholds := hi.holds.update (g := { s.frame k with
      needCfm := true
      hostid := s.txdescFreeIdx }) hlive
    refine ⟨hholds.of_same rfl rfl rfl rfl rfl, ?_, hi.txqs.of_same (fun _ => rfl) rfl rfl rfl,
      hi.ret⟩
    refine (hi.entries.setUnentered hi.holds hnew _).enter hholds (by simp [State.setFrame])
      (by simp [State.setFrame]) fun j hj => ?_
    have hjk : j ≠ k := by
      rintro rfl
      exact hnew _ hj
    rw [live_setFrame, if_neg hjk]
    exact hdead hconfirms j hj
  · exact ⟨hi.holds.update hlive, hi.entries.setUnentered hi.holds hnew _,
      hi.txqs.of_same (fun _ => rfl) rfl rfl rfl, hi.ret⟩

theorem markCfm_hdr : ((s.markCfm k).frame k).hdr = (s.frame k).hdr := by
  unfold State.markCfm
  split_ifs <;> simp [State.setFrame, State.txdescPush]

theorem markCfm_entered (h : ((s.markCfm k).frame k).needCfm = true) :
    Entered (s.markCfm k) k := by
  unfold State.markCfm at h ⊢
  split_ifs at h ⊢
  · simp [Entered, State.setFrame, State.txdescPush]
  · simp [State.setFrame] at h

theorem Inv.busTxdata (hi : Inv s (some k)) (hhdr : (s.frame k).hdr = .allocated)
    (hentered : (s.frame k).needCfm = true → Entered s k) (full : Bool) :
    Inv (s.busTxdata k full) none := by
  unfold State.busTxdata
  split_ifs with hdrop
  · exact hi.release hhdr
  · have hup : s.busUp = true := by
      rw [Bool.or_eq_true, not_or] at hdrop
      simpa using hdrop.1
    have hperm : (s.place .bus++[k]).Perm (k::s.place .bus) := List.perm_append_singleton _ _
    exact ⟨hi.holds.put hhdr hperm,
      hi.entries.put (fun j hj => List.mem_cons.mp (hperm.subset hj)) ⟨hup, hentered⟩,
      hi.txqs.of_same (fun _ => setPlace_txq nofun) rfl rfl rfl, hi.ret⟩

/-- A frame is taken from a place that is no txq. -/
theorem Inv.take (hi : Inv s none) (hk : k ∈ s.place p) (hp : ∀ q, p ≠ .txq q) :
    Inv (s.setPlace p ((s.place p).erase k)) (some k) := by
  refine ⟨hi.holds.take hk, hi.entries.fewer fun r j hj => ?_,
    hi.txqs.of_same (fun q => setPlace_txq (hp q)) rfl rfl rfl, hi.ret⟩
  by_cases hr : r = p
  · subst hr
    exact List.mem_of_mem_erase (by simpa using hj)
  · simpa [Function.update_of_ne hr] using hj

end Operations

end AIC.TxOwnership
