import Aic8800.TxOwnershipKept
import Aic8800.Lib.GuardedRun

/-!
# When every frame is freed once

Frames are lost where the ring is full, where a txq is initialised again, where
an aggregate cannot be sent, and where the bus stops with frames on it. A
confirmation that comes early or twice frees a frame under those that have it.
-/

set_option autoImplicit false

namespace AIC.TxOwnership
open AIC.TxConfirmRing (Status retryRequired swRetryRequired SDIO_TXDESC_CNT)
open Lib.GuardedRun Lib.HeldPlaces

/-- No txq with frames is initialised, no frame that needs a confirmation is entered over one that
still waits for it, every aggregate with such frames is sent, a confirmation is for a frame that
the firmware has, and the bus stops when it has no frames and all confirmations are there. -/
def Safe (s : State) : Act → Prop
  | .txqInit q => s.place (.txq q) = []
  | .txPush q _ => s.active q = true → ∀ k ∈ (s.place (.txq q)).head?,
      (s.frame k).confirms = true →
        ∀ j, s.txHostId (s.txdescFreeIdx % SDIO_TXDESC_CNT) = some j → ¬ Live s j
  | .sdioAggrSend sent => s.busUp = true → sent = true ∨ s.place .aggr = []
  | .confirm => ∀ c ∈ s.cfms.head?, ∃ k, s.txHostId (c.1 % SDIO_TXDESC_CNT) = some k ∧ Live s k ∧
      (c.2 ≠ 0 → k ∈ s.place .firmware)
  | .busStop => s.place .bus = [] ∧ s.place .aggr = [] ∧ ∀ k ∈ s.place .firmware, Pending s k
  | _ => True

section Actions
variable {s t : State} {j k q : ℕ} {l : List ℕ} {hand : Option ℕ}

theorem Inv.right (hi : Inv s none) : Right s := by
  refine ⟨hi.holds.sound, hi.holds.hdr_iff, fun k hk => ?_, hi.holds.held.single,
    fun k hk p hp => ?_, fun k hret => absurd hret (hi.ret k)⟩
  · obtain ⟨p, hp⟩ := (hi.holds.held.live_iff k).mp ⟨hk, (Option.some_ne_none k).symm⟩
    have hup : p = .bus ∨ p = .aggr → s.busUp = true := by
      intro hcase
      by_contra hdown
      obtain ⟨hbus, haggr, -⟩ := hi.entries.down (by simpa using hdown)
      rcases hcase with rfl | rfl
      · rw [hbus] at hp
        exact absurd hp List.not_mem_nil
      · rw [haggr] at hp
        exact absurd hp List.not_mem_nil
    cases p with
    | txq q =>
      refine .inl ⟨q, ?_, hp⟩
      by_contra hoff
      rw [hi.txqs.active q (by simpa using hoff)] at hp
      exact absurd hp List.not_mem_nil
    | bus => exact .inr (.inl ⟨hup (.inl rfl), .inl hp, hi.entries.bus k hp⟩)
    | aggr =>
      exact .inr (.inl ⟨hup (.inr rfl), .inr (.inl hp), fun _ => hi.entries.aggr k hp⟩)
    | firmware =>
      cases hbus : s.busUp with
      | true =>
        exact .inr (.inl ⟨hbus, .inr (.inr hp), fun _ => hi.entries.firmware k hp⟩)
      | false => exact .inr (.inr ⟨hp, (hi.entries.down hbus).2.2 k hp⟩)
  · have hlive : Live s k := (hi.holds.mem hp).1
    rw [Live, hi.holds.confirmed k hk] at hlive
    cases hlive

/-! ## Frames come in -/

theorem Inv.freeOk (hi : Inv s (some k)) (hhdr : (s.frame k).hdr ≠ .allocated) :
    Inv (s.freeOk k) none := by
  obtain ⟨hholds, hentries, htxqs, -⟩ := hi.freeSkb hhdr
  refine ⟨hholds.of_same rfl rfl rfl rfl rfl, hentries.of_same rfl rfl rfl rfl rfl rfl,
    htxqs.of_same (fun _ => rfl) rfl rfl rfl, fun j hj => ?_⟩
  cases Option.some.inj hj

theorem Inv.queueNew (hi : Inv s (some k)) (hactive : s.active q = true)
    (hnew : ∀ i, s.txHostId i ≠ some k) : Inv ((s.giveHdr q k).txqQueueSkb q k false) none :=
  hi.giveHdr.txqQueueSkb giveHdr_hdr hactive hnew false

theorem Inv.xmitSkb (hi : Inv s (some k)) (hhdr : (s.frame k).hdr ≠ .allocated)
    (hnew : ∀ i, s.txHostId i ≠ some k) (x : State.Xmit) : Inv (s.xmitSkb x k) none := by
  unfold State.xmitSkb
  split
  · exact hi.freeOk hhdr
  · rename_i q _
    split_ifs with hoff hno hprep
    · exact hi.freeOk hhdr
    · exact hi.freeOk hhdr
    · exact absurd rfl hprep
    · have hactive : s.active q = true := by simpa using hoff
      obtain ⟨hholds, hentries, htxqs, -⟩ := hi.queueNew hactive hnew
      refine ⟨hholds.of_same rfl rfl rfl rfl rfl, hentries.of_same rfl rfl rfl rfl rfl rfl,
        htxqs.of_same (fun _ => rfl) rfl rfl rfl, fun j hj => ?_⟩
      cases Option.some.inj hj

theorem allocSkb_hdr {mgmt : Bool} {frameCtl : UInt8} {ethertype : ℕ} :
    ((s.allocSkb mgmt frameCtl ethertype).frame s.next).hdr = .absent := by
  simp [State.allocSkb, State.setFrame]

/-- The copy is allocated before the skb is freed. -/
theorem allocSkb_freeSkb {mgmt : Bool} {frameCtl : UInt8} {ethertype : ℕ} (hk : k ≠ s.next) :
    (s.allocSkb mgmt frameCtl ethertype).freeSkb k =
      (s.freeSkb k).allocSkb mgmt frameCtl ethertype := by
  simp [State.allocSkb, State.freeSkb, State.setFrame, hk, Function.update_comm hk]

theorem Inv.startXmit (hi : Inv s none) (x : State.Xmit) : Inv (s.startXmit x) none := by
  have hnew : ∀ i k, s.next ≤ k → s.txHostId i ≠ some k := by
    intro i k hge hk
    exact absurd (hi.entries.old i k hk) (by omega)
  have halloc := hi.alloc false 0 x.ethertype
  have hhdr : ((s.allocSkb false 0 x.ethertype).frame s.next).hdr ≠ .allocated := by
    rw [allocSkb_hdr]
    decide
  unfold State.startXmit
  dsimp only
  split
  · exact halloc.xmitSkb hhdr (fun i => hnew i _ le_rfl) x
  · exact halloc.freeOk hhdr
  · rw [allocSkb_freeSkb (Nat.ne_of_lt (Nat.lt_succ_self s.next))]
    have hcopy := (halloc.freeSkb hhdr).alloc false 0 x.ethertype
    refine hcopy.xmitSkb ?_ (fun i => hnew i _ (Nat.le_succ _)) x
    rw [allocSkb_hdr]
    decide

theorem Inv.startMgmtXmit (hi : Inv s none) (frameCtl : UInt8) (q : ℕ) (skb hdr : Bool) :
    Inv (s.startMgmtXmit frameCtl q skb hdr) none := by
  have halloc := hi.alloc true frameCtl 0
  unfold State.startMgmtXmit
  split_ifs with hoff hno hnohdr hprep
  · exact hi
  · exact hi
  · refine halloc.freeSkb ?_
    rw [allocSkb_hdr]
    decide
  · exact absurd rfl hprep
  · have hactive : s.active q = true := by simpa using hoff
    exact halloc.queueNew hactive fun i hk => absurd (hi.entries.old i _ hk) (lt_irrefl _)

/-! ## Txqs -/

theorem Inv.txqInit (hi : Inv s none) (hp : s.place (.txq q) = []) : Inv (s.txqInit q) none := by
  have hplace : Function.update s.place (.txq q) [] = s.place := by
    rw [← hp]
    exact Function.update_eq_self _ _
  refine ⟨hi.holds.of_same rfl hplace rfl rfl rfl, hi.entries.of_same rfl hplace rfl rfl rfl rfl,
    ?_, hi.ret⟩
  refine hi.txqs.change (fun r _ => congrFun hplace _) (fun r hr => Function.update_of_ne hr _ _)
    (fun r hr => Function.update_of_ne hr _ _) (fun r hr => Function.update_of_ne hr _ _)
    (fun _ => (congrFun hplace _).trans hp) fun _ => ⟨[], [], ?_, ?_, ?_⟩
  · exact (congrFun hplace _).trans hp
  · exact Function.update_self _ _ _
  · exact Function.update_self _ _ _

theorem foldl_release_eq (l : List ℕ) (s : State) : ∃ frame fault,
    l.foldl State.release s = { s with
      frame := frame
      fault := fault } := by
  induction l generalizing s with
  | nil => exact ⟨s.frame, s.fault, rfl⟩
  | cons k l ih =>
    obtain ⟨frame, fault, heq⟩ := ih (s.release k)
    exact ⟨frame, fault, heq⟩

theorem foldl_release_setPlace (l l' : List ℕ) (p : Place) (s : State) :
    l.foldl State.release (s.setPlace p l') = (l.foldl State.release s).setPlace p l' := by
  induction l generalizing s with
  | nil => rfl
  | cons k l ih => exact ih (s.release k)

/-- One turn of the loop in `rwnx_txq_flush`. -/
theorem txqFlush_cons (hlist : s.place (.txq q) = k::l) :
    s.txqFlush q = ((s.setPlace (.txq q) l).release k).txqFlush q := by
  have hrest : ((s.setPlace (.txq q) l).release k).place (.txq q) = l := Function.update_self _ _ _
  unfold State.txqFlush
  rw [hlist, hrest, List.foldl_cons]
  have hturn : (s.setPlace (.txq q) l).release k = (s.release k).setPlace (.txq q) l := rfl
  rw [hturn, foldl_release_setPlace]
  simp [State.setPlace]

theorem txqFlush_kept (hh : Holds s none) (he : Entries s) (hlist : s.place (.txq q) = l) :
    Holds (s.txqFlush q) none ∧ Entries (s.txqFlush q) := by
  induction l generalizing s with
  | nil =>
    have hsame : s.txqFlush q = s := by
      unfold State.txqFlush
      rw [hlist, List.foldl_nil, State.setPlace, ← hlist, Function.update_eq_self]
    rw [hsame]
    exact ⟨hh, he⟩
  | cons k l ih =>
    have hk : k ∈ s.place (.txq q) := by
      rw [hlist]
      exact List.mem_cons_self
    have hhand : Holds (s.setPlace (.txq q) l) (some k) := by
      have htake := hh.take hk
      rwa [hlist, List.erase_cons_head] at htake
    have hfewer : Entries (s.setPlace (.txq q) l) := by
      refine he.fewer fun p j hj => ?_
      by_cases hp : p = .txq q
      · subst hp
        rw [Function.update_self] at hj
        rw [hlist]
        exact List.mem_cons_of_mem k hj
      · rwa [Function.update_of_ne hp] at hj
    have hhdr : ((s.setPlace (.txq q) l).frame k).hdr = .allocated :=
      (hh.hdr_iff k).mpr (hh.mem hk).1
    have heq := release_eq hhand.sound (hhand.inHand k rfl) hhdr
    rw [txqFlush_cons hlist]
    refine ih ?_ ?_ (Function.update_self _ _ _)
    · rw [heq]
      exact hhand.freed rfl fun h => by cases h
    · rw [heq]
      exact hfewer.setFrame rfl rfl fun h => by cases h

theorem Inv.txqDeinit (hi : Inv s none) : Inv (s.txqDeinit q) none := by
  unfold State.txqDeinit
  split_ifs with hactive
  · obtain ⟨hholds, hentries⟩ := txqFlush_kept (q := q) hi.holds hi.entries rfl
    obtain ⟨frame, fault, heq⟩ := foldl_release_eq (s.place (.txq q)) s
    have hflush : s.txqFlush q = { s.setPlace (.txq q) [] with
        frame := frame
        fault := fault } := by
      unfold State.txqFlush
      rw [heq]
      rfl
    refine ⟨hholds.of_same rfl rfl rfl rfl rfl, hentries.of_same rfl rfl rfl rfl rfl rfl, ?_, ?_⟩
    · rw [hflush]
      refine hi.txqs.change (fun r hr => setPlace_txq fun h => hr (Place.txq.inj h).symm)
        (fun r hr => Function.update_of_ne hr _ _) (fun _ _ => rfl) (fun _ _ => rfl)
        (fun _ => Function.update_self _ _ _) fun hon => ?_
      have hoff : Function.update s.active q false q = true := hon
      rw [Function.update_self] at hoff
      cases hoff
    · rw [hflush]
      exact hi.ret
  · exact hi

/-! ## The bus and the firmware -/

theorem Inv.txPush (hi : Inv s none) (hactive : s.active q = true)
    (hhead : s.place (.txq q) = k::l) (hdead : (s.frame k).confirms = true →
      ∀ j, s.txHostId (s.txdescFreeIdx % SDIO_TXDESC_CNT) = some j → ¬ Live s j) (full : Bool) :
    Inv (s.txPush q k full) none := by
  have hk : k ∈ s.place (.txq q) := by
    rw [hhead]
    exact List.mem_cons_self
  have hlive : Live s k := (hi.holds.mem hk).1
  have hhdr : (s.frame k).hdr = .allocated := (hi.holds.hdr_iff k).mpr hlive
  have hhand : Inv (s.txqDequeue q k) (some k) := hi.txqDequeue hactive hhead
  have hmark := hhand.markCfm (hi.entries.unentered hi.holds hk) hdead
  have htouch : (s.txqDequeue q k).touch k = s.txqDequeue q k := touch_eq hlive hhdr
  unfold State.txPush
  rw [htouch]
  exact hmark.busTxdata (markCfm_hdr.trans hhdr) markCfm_entered full

theorem Inv.sdioAggr (hi : Inv s none) (hup : s.busUp = true) (hk : k ∈ s.place .bus) :
    Inv (s.sdioAggr k) none := by
  have hlive : Live s k := (hi.holds.mem hk).1
  have hhdr : (s.frame k).hdr = .allocated := (hi.holds.hdr_iff k).mpr hlive
  have hhand := hi.take hk nofun
  have htouch : (s.setPlace .bus ((s.place .bus).erase k)).touch k =
      s.setPlace .bus ((s.place .bus).erase k) := touch_eq hlive hhdr
  unfold State.sdioAggr
  rw [htouch]
  dsimp only
  split_ifs with hcfm
  · have hperm := List.perm_append_singleton k
      ((s.setPlace .bus ((s.place .bus).erase k)).place .aggr)
    exact ⟨hhand.holds.put hhdr hperm, hhand.entries.put
      (fun j hj => List.mem_cons.mp (hperm.subset hj)) ⟨hup, hi.entries.bus k hk hcfm⟩,
      hhand.txqs.of_same (fun _ => setPlace_txq nofun) rfl rfl rfl, hhand.ret⟩
  · exact hhand.release hhdr

/-- The frames of the aggregate come to the firmware. -/
theorem Inv.sdioAggrSend_sent (hi : Inv s none) (hup : s.busUp = true) :
    Inv (s.sdioAggrSend true) none := by
  have htxq : ∀ r, ((s.sdioAggrSend true).place (.txq r)) = s.place (.txq r) := fun _ => rfl
  have hfirmware : (s.sdioAggrSend true).place .firmware =
      s.place .firmware++s.place .aggr := rfl
  refine ⟨⟨hi.holds.sound, hi.holds.held.pour nofun, no_hand, hi.holds.hdr, hi.holds.fresh,
    hi.holds.confirmed⟩, ⟨hi.entries.old, fun i k hk hlive => ?_, hi.entries.bus,
    fun _ hk => absurd hk List.not_mem_nil,
    fun k hk => ?_, fun hdown => ?_⟩, hi.txqs.of_same htxq rfl rfl rfl, hi.ret⟩
  · have hslot : Slot s i k := hi.entries.slot i k hk hlive
    exact ⟨hslot.index, hslot.needCfm, hslot.pushed⟩
  · rw [hfirmware] at hk
    rcases List.mem_append.mp hk with hin | hin
    · exact hi.entries.firmware k hin
    · exact hi.entries.aggr k hin
  · rw [show s.busUp = false from hdown] at hup
    cases hup

theorem Inv.sdioAggrSend (hi : Inv s none) (hup : s.busUp = true) {sent : Bool}
    (hsafe : sent = true ∨ s.place .aggr = []) : Inv (s.sdioAggrSend sent) none := by
  cases sent with
  | true => exact hi.sdioAggrSend_sent hup
  | false =>
    have haggr : s.place .aggr = [] := by simpa using hsafe
    have hplace : Function.update s.place .aggr [] = s.place := by
      rw [← haggr]
      exact Function.update_eq_self _ _
    have hdrop : s.sdioAggrSend false = s.setPlace .aggr [] := rfl
    rw [hdrop]
    exact ⟨hi.holds.of_same rfl hplace rfl rfl rfl, hi.entries.of_same rfl hplace rfl rfl rfl rfl,
      hi.txqs.of_same (fun _ => setPlace_txq nofun) rfl rfl rfl, hi.ret⟩

theorem Inv.receive (hi : Inv s none) (hup : s.busUp = true) (c : ℕ × Status) :
    Inv { s with cfms := s.cfms++[c] } none := by
  refine ⟨hi.holds.of_same rfl rfl rfl rfl rfl, ⟨hi.entries.old, fun i k hk hlive => ?_,
    hi.entries.bus, hi.entries.aggr, hi.entries.firmware, fun hdown => ?_⟩,
    hi.txqs.of_same (fun _ => rfl) rfl rfl rfl, hi.ret⟩
  · have hslot : Slot s i k := hi.entries.slot i k hk hlive
    exact ⟨hslot.index, hslot.needCfm, hslot.pushed⟩
  · rw [show s.busUp = false from hdown] at hup
    cases hup

/-- A confirmation of status zero is dropped. -/
theorem Inv.dropCfm (hi : Inv s none) {c : ℕ × Status} {cs : List (ℕ × Status)}
    (hcfms : s.cfms = c::cs) (hstatus : c.2 = 0) : Inv { s with cfms := cs } none := by
  refine ⟨hi.holds.of_same rfl rfl rfl rfl rfl, ⟨hi.entries.old, fun i k hk hlive => ?_,
    hi.entries.bus, hi.entries.aggr, hi.entries.firmware, fun hdown => ?_⟩,
    hi.txqs.of_same (fun _ => rfl) rfl rfl rfl, hi.ret⟩
  · have hslot : Slot s i k := hi.entries.slot i k hk hlive
    exact ⟨hslot.index, hslot.needCfm, hslot.pushed⟩
  · obtain ⟨hbus, haggr, hpending⟩ := hi.entries.down hdown
    refine ⟨hbus, haggr, fun k hk => ?_⟩
    obtain ⟨d, hd, hne, hentry⟩ := hpending k hk
    rw [hcfms] at hd
    rcases List.mem_cons.mp hd with rfl | hin
    · exact absurd hstatus hne
    · exact ⟨d, hin, hne, hentry⟩

/-- The confirmation is taken with its entry, and the frame from the firmware. -/
def State.takeCfm (s : State) (cs : List (ℕ × Status)) (i k : ℕ) : State :=
  { s.setPlace .firmware ((s.place .firmware).erase k) with
    cfms := cs
    txHostId := Function.update s.txHostId i none }

theorem Inv.takeCfm (hi : Inv s none) {c : ℕ × Status} {cs : List (ℕ × Status)}
    (hcfms : s.cfms = c::cs) (hk : k ∈ s.place .firmware)
    (hentry : s.txHostId (c.1 % SDIO_TXDESC_CNT) = some k) :
    Inv (s.takeCfm cs (c.1 % SDIO_TXDESC_CNT) k) (some k) := by
  obtain ⟨hholds, -, htxqs, -⟩ := hi.take hk nofun
  have hne : ∀ {p j}, j ∈ (s.setPlace .firmware ((s.place .firmware).erase k)).place p → j ≠ k :=
    fun hj heq => (hholds.mem hj).2 (congrArg some heq.symm)
  have hkeep : ∀ {i j}, j ≠ k → s.txHostId i = some j →
      Function.update s.txHostId (c.1 % SDIO_TXDESC_CNT) none i = some j := by
    intro i j hj hi
    refine (Function.update_of_ne ?_ _ _).trans hi
    rintro rfl
    exact hj (Option.some.inj (hi.symm.trans hentry))
  have hwas : ∀ {i j}, Function.update s.txHostId (c.1 % SDIO_TXDESC_CNT) none i = some j →
      s.txHostId i = some j := by
    intro i j hj
    by_cases hi : i = c.1 % SDIO_TXDESC_CNT
    · rw [hi, Function.update_self] at hj
      cases hj
    · rwa [Function.update_of_ne hi] at hj
  have hin : ∀ {j}, j ∈ (s.place .firmware).erase k → j ∈ s.place .firmware ∧ j ≠ k := fun hj =>
    ⟨List.mem_of_mem_erase hj, fun heq => (hi.holds.held.once _).not_mem_erase (heq ▸ hj)⟩
  refine ⟨hholds.of_same rfl rfl rfl rfl rfl, ⟨fun i j hj => hi.entries.old i j (hwas hj),
    fun i j hj hlive => ?_, fun j hj hcfm => ?_, fun j hj => ?_, fun j hj => ?_, fun hdown => ?_⟩,
    htxqs.of_same (fun _ => rfl) rfl rfl rfl, hi.ret⟩
  · have hslot : Slot s i j := hi.entries.slot i j (hwas hj) hlive
    exact ⟨hslot.index, hslot.needCfm, hslot.pushed⟩
  · exact hkeep (hne (p := .bus) hj) (hi.entries.bus j hj hcfm)
  · exact hkeep (hne (p := .aggr) hj) (hi.entries.aggr j hj)
  · obtain ⟨hj, hjk⟩ := hin hj
    exact hkeep hjk (hi.entries.firmware j hj)
  · obtain ⟨hbus, haggr, hpending⟩ := hi.entries.down hdown
    refine ⟨hbus, haggr, fun j hj => ?_⟩
    obtain ⟨hj, hjk⟩ := hin hj
    obtain ⟨d, hd, hstatus, hd'⟩ := hpending j hj
    rw [hcfms] at hd
    rcases List.mem_cons.mp hd with rfl | hmem
    · exact absurd (Option.some.inj (hd'.symm.trans hentry)) hjk
    · exact ⟨d, hmem, hstatus, hkeep hjk hd'⟩

/-- A frame has one entry. -/
theorem takeCfm_unentered (hi : Inv s none) (hk : Live s k) {i : ℕ}
    (hentry : s.txHostId i = some k) (cs : List (ℕ × Status)) (j : ℕ) :
    (s.takeCfm cs i k).txHostId j ≠ some k := by
  intro hj
  by_cases hji : j = i
  · simp [State.takeCfm, hji] at hj
  · have hwas : s.txHostId j = some k := (Function.update_of_ne hji _ _).symm.trans hj
    exact hji ((hi.entries.slot j k hwas hk).index.trans (hi.entries.slot i k hentry hk).index.symm)

theorem Inv.noteCfm (hi : Inv s none) (hk : (s.frame k).skb = .freed) :
    Inv { s with confirmed := s.confirmed++[k] } none := by
  refine ⟨⟨hi.holds.sound, hi.holds.held, hi.holds.inHand, hi.holds.hdr, hi.holds.fresh,
    fun j hj => ?_⟩, hi.entries.of_same rfl rfl rfl rfl rfl rfl,
    hi.txqs.of_same (fun _ => rfl) rfl rfl rfl, hi.ret⟩
  rcases List.mem_append.mp hj with hin | hself
  · exact hi.holds.confirmed j hin
  · obtain rfl := List.mem_singleton.mp hself
    exact hk

theorem release_skb : ((s.release k).frame k).skb = .freed := by
  simp [State.release, State.freeSkb, State.setFrame]

theorem Inv.confirm (hi : Inv s none) {c : ℕ × Status} {cs : List (ℕ × Status)}
    (hcfms : s.cfms = c::cs) (hentry : s.txHostId (c.1 % SDIO_TXDESC_CNT) = some k)
    (hlive : Live s k) (hfirmware : c.2 ≠ 0 → k ∈ s.place .firmware) :
    Inv (({ s with cfms := cs } : State).txCfmHandler c.1 c.2) none := by
  have hhdr : (s.frame k).hdr = .allocated := (hi.holds.hdr_iff k).mpr hlive
  have htouch : ({ s with cfms := cs } : State).touch k = { s with cfms := cs } :=
    touch_eq hlive hhdr
  unfold State.txCfmHandler
  rw [show ({ s with cfms := cs } : State).txHostId (c.1 % SDIO_TXDESC_CNT) = some k from hentry]
  dsimp only
  rw [htouch]
  split_ifs with hstatus
  · exact hi.dropCfm hcfms hstatus
  · have hhand := hi.takeCfm hcfms (hfirmware hstatus) hentry
    have hnew := takeCfm_unentered hi hlive hentry cs
    unfold State.txdatacfm
    dsimp only
    split_ifs with hretry
    · have hactive : s.active (s.frame k).txq = true := by
        simp only [Bool.and_eq_true] at hretry
        exact hretry.1.2
      exact hhand.txqQueueSkb hhdr hactive hnew true
    · exact (hhand.release hhdr).noteCfm release_skb

theorem Inv.busStop (hi : Inv s none) (hbus : s.place .bus = []) (haggr : s.place .aggr = [])
    (hpending : ∀ k ∈ s.place .firmware, Pending s k) : Inv s.busStop none := by
  have hplace : Function.update s.place .bus [] = s.place := by
    rw [← hbus]
    exact Function.update_eq_self _ _
  unfold State.busStop
  rw [hbus, List.foldl_nil]
  refine ⟨hi.holds.of_same rfl hplace rfl rfl rfl, ⟨hi.entries.old, fun i k hk hlive => ?_,
    fun _ hk => absurd hk List.not_mem_nil, hi.entries.aggr, hi.entries.firmware,
    fun _ => ⟨(congrFun hplace _).trans hbus, haggr, hpending⟩⟩, hi.txqs.of_same (fun r => congrFun hplace (.txq r)) rfl rfl rfl, hi.ret⟩
  have hslot : Slot s i k := hi.entries.slot i k hk hlive
  exact ⟨hslot.index, hslot.needCfm, hslot.pushed⟩

theorem act_next {a : Act} (hi : Inv s none) (hp : Safe s a) (ht : act s a = some t) :
    Inv t none := by
  cases a with
  | startXmit x =>
    obtain rfl := Option.some.inj ht
    exact hi.startXmit x
  | startMgmtXmit frameCtl q skb hdr =>
    obtain rfl := Option.some.inj ht
    exact hi.startMgmtXmit frameCtl q skb hdr
  | txqInit q =>
    obtain rfl := Option.some.inj ht
    exact hi.txqInit hp
  | txqDeinit q =>
    obtain rfl := Option.some.inj ht
    exact hi.txqDeinit
  | txPush q full =>
    obtain ⟨hactive, ht⟩ := Option.ite_none_right_eq_some.mp ht
    obtain ⟨k, hk, rfl⟩ := Option.map_eq_some_iff.mp ht
    obtain ⟨l, hhead⟩ := List.head?_eq_some_iff.mp hk
    exact hi.txPush hactive hhead (hp hactive k hk) full
  | sdioAggr k =>
    obtain ⟨⟨hup, hk⟩, ⟨⟩⟩ := Option.ite_none_right_eq_some.mp ht
    exact hi.sdioAggr hup hk
  | sdioAggrSend sent =>
    obtain ⟨hup, ⟨⟩⟩ := Option.ite_none_right_eq_some.mp ht
    exact hi.sdioAggrSend hup (hp hup)
  | receive usedIdx status =>
    obtain ⟨hup, ⟨⟩⟩ := Option.ite_none_right_eq_some.mp ht
    exact hi.receive hup _
  | confirm =>
    obtain ⟨c, hc, rfl⟩ := Option.map_eq_some_iff.mp ht
    obtain ⟨cs, hcfms⟩ := List.head?_eq_some_iff.mp hc
    obtain ⟨k, hentry, hlive, hfirmware⟩ := hp c hc
    rw [hcfms, List.tail_cons]
    exact hi.confirm hcfms hentry hlive hfirmware
  | busStop =>
    obtain rfl := Option.some.inj ht
    exact hi.busStop hp.1 hp.2.1 hp.2.2

/-! ## What goes wrong otherwise -/

theorem Owned.mem (h : Owned s k) : ∃ p, k ∈ s.place p := by
  rcases h with ⟨q, -, hk⟩ | ⟨-, hk | hk | hk, -⟩ | ⟨hk, -⟩
  · exact ⟨.txq q, hk⟩
  · exact ⟨.bus, hk⟩
  · exact ⟨.aggr, hk⟩
  · exact ⟨.firmware, hk⟩
  · exact ⟨.firmware, hk⟩

/-- The frames of a place that is cleared are lost. -/
theorem Inv.empty_of_cleared {p : Place} (hi : Inv s none) (hr : Right t)
    (hplace : t.place = Function.update s.place p []) (hframe : t.frame = s.frame) :
    s.place p = [] := by
  refine List.eq_nil_iff_forall_not_mem.mpr fun k hk => ?_
  have hlive : Live t k := by
    unfold Live
    rw [hframe]
    exact (hi.holds.mem hk).1
  obtain ⟨r, hr'⟩ := (hr.owned k hlive).mem
  rw [hplace] at hr'
  by_cases hrp : r = p
  · rw [hrp, Function.update_self] at hr'
    exact List.not_mem_nil hr'
  · rw [Function.update_of_ne hrp] at hr'
    exact hrp (hi.holds.held.single r p k hr' hk)

theorem busTxdata_ring (full : Bool) : (s.busTxdata k full).txHostId = s.txHostId := by
  unfold State.busTxdata
  split_ifs <;> rfl

theorem busTxdata_txq (full : Bool) :
    (s.busTxdata k full).place (.txq q) = s.place (.txq q) := by
  unfold State.busTxdata
  split_ifs <;> rfl

theorem busTxdata_frame (full : Bool) (hj : j ≠ k) :
    (s.busTxdata k full).frame j = s.frame j := by
  unfold State.busTxdata
  split_ifs
  · simp [State.release, State.freeHdr, State.freeSkb, State.setFrame, hj]
  · rfl

theorem markCfm_of_confirms (h : (s.frame k).confirms = true) : s.markCfm k =
    (s.setFrame k { s.frame k with
      needCfm := true
      hostid := s.txdescFreeIdx }).txdescPush k :=
  if_pos h

/-- A frame whose entry is overwritten is never freed. -/
theorem Inv.dead_of_push (hi : Inv s none) (hhead : s.place (.txq q) = k::l) {full : Bool}
    (hr : Right (s.txPush q k full)) (hconfirms : (s.frame k).confirms = true)
    (hj : s.txHostId (s.txdescFreeIdx % SDIO_TXDESC_CNT) = some j) : ¬ Live s j := by
  intro hlive
  have hk : k ∈ s.place (.txq q) := by
    rw [hhead]
    exact List.mem_cons_self
  have hjk : j ≠ k := by
    rintro rfl
    exact hi.entries.unentered hi.holds hk _ hj
  have hslot : Slot s _ j := hi.entries.slot _ j hj hlive
  have hmark := markCfm_of_confirms (s := (s.txqDequeue q k).touch k) hconfirms
  have hring : (s.txPush q k full).txHostId =
      Function.update s.txHostId (s.txdescFreeIdx % SDIO_TXDESC_CNT) (some k) := by
    unfold State.txPush
    rw [busTxdata_ring, hmark]
    rfl
  have hframe : (s.txPush q k full).frame j = s.frame j := by
    unfold State.txPush
    rw [busTxdata_frame full hjk, hmark]
    exact setFrame_frame hjk
  have hentry : ∀ i, (s.txPush q k full).txHostId i = some j → False := by
    intro i hi'
    rw [hring] at hi'
    by_cases hii : i = s.txdescFreeIdx % SDIO_TXDESC_CNT
    · rw [hii, Function.update_self] at hi'
      exact hjk (Option.some.inj hi').symm
    · rw [Function.update_of_ne hii] at hi'
      exact hii ((hi.entries.slot i j hi' hlive).index.trans hslot.index.symm)
  have hlive' : Live (s.txPush q k full) j := by
    unfold Live
    rw [hframe]
    exact hlive
  rcases hr.owned j hlive' with ⟨r, -, hmem⟩ | ⟨-, -, hentered⟩ | ⟨-, c, -, -, hc⟩
  · have hwas : j ∈ s.place (.txq r) := by
      unfold State.txPush at hmem
      rw [busTxdata_txq, hmark] at hmem
      have hmem' :
          j ∈ Function.update s.place (.txq q) ((s.place (.txq q)).erase k) (.txq r) := hmem
      by_cases hrq : Place.txq r = .txq q
      · rw [hrq, Function.update_self] at hmem'
        rw [hrq]
        exact List.mem_of_mem_erase hmem'
      · rwa [Function.update_of_ne hrq] at hmem'
    exact hslot.pushed r hwas
  · exact hentry _ (hentered (by rw [hframe]; exact hslot.needCfm))
  · exact hentry _ hc

theorem txdatacfm_fault {status : Status} (h : s.fault = true) :
    (s.txdatacfm k status).fault = true := by
  unfold State.txdatacfm
  dsimp only
  split_ifs
  · unfold State.txqQueueSkb
    simp only [Bool.not_true, Bool.false_eq_true, if_false]
    split
    · exact h
    · simp [State.setPlace, h]
  · simp [State.release, State.freeHdr, State.freeSkb, State.setFrame, State.setPlace, h]

theorem txqQueueSkb_place {p : Place} {retry : Bool} (hp : p ≠ .txq q) :
    (s.txqQueueSkb q k retry).place p = s.place p := by
  unfold State.txqQueueSkb
  cases retry with
  | false => exact Function.update_of_ne hp _ _
  | true =>
    simp only [Bool.not_true, Bool.false_eq_true, if_false]
    split
    · exact Function.update_of_ne hp _ _
    · exact Function.update_of_ne hp _ _

theorem retry_mem {again rest : List ℕ} (hfault : s.fault = false)
    (hlist : s.place (.txq q) = again++rest) (hnodup : (s.place (.txq q)).Nodup)
    (hlast : s.lastRetrySkb q = again.getLast?) :
    k ∈ (s.txqQueueSkb q k true).place (.txq q) := by
  rw [txqQueueSkb_retry hfault hlist hnodup hlast]
  simp [State.setPlace]

/-- The firmware has the frame of a confirmation. -/
theorem Inv.firmware_of_confirm (hi : Inv s none) {c : ℕ × Status} {cs : List (ℕ × Status)}
    (hr : Right (({ s with cfms := cs } : State).txCfmHandler c.1 c.2)) :
    ∃ k, s.txHostId (c.1 % SDIO_TXDESC_CNT) = some k ∧ Live s k ∧
      (c.2 ≠ 0 → k ∈ s.place .firmware) := by
  cases hentry : s.txHostId (c.1 % SDIO_TXDESC_CNT) with
  | none =>
    have hsound := hr.sound
    unfold State.txCfmHandler at hsound
    rw [show ({ s with cfms := cs } : State).txHostId (c.1 % SDIO_TXDESC_CNT) = none from hentry]
      at hsound
    cases hsound
  | some k =>
    unfold State.txCfmHandler at hr
    rw [show ({ s with cfms := cs } : State).txHostId (c.1 % SDIO_TXDESC_CNT) = some k from hentry]
      at hr
    dsimp only at hr
    have hlive : Live s k := by
      by_contra hdead
      have hfault : (({ s with cfms := cs } : State).touch k).fault = true := by
        have hskb : ¬ (s.frame k).skb = .allocated := hdead
        simp [State.touch, hskb]
      have hsound := hr.sound
      split_ifs at hsound
      · rw [hfault] at hsound
        cases hsound
      · rw [txdatacfm_fault] at hsound
        · cases hsound
        · exact hfault
    refine ⟨k, rfl, hlive, fun hstatus => ?_⟩
    by_contra hout
    have hslot : Slot s _ k := hi.entries.slot _ k hentry hlive
    obtain ⟨p, hp⟩ := (hi.holds.held.live_iff k).mp ⟨hlive, (Option.some_ne_none k).symm⟩
    have hfirmware : p ≠ .firmware := by
      rintro rfl
      exact hout hp
    have htxq : ∀ q, p ≠ .txq q := by
      rintro q rfl
      exact hslot.pushed q hp
    have hstays : k ∈ Function.update s.place .firmware ((s.place .firmware).erase k) p := by
      rwa [Function.update_of_ne hfirmware]
    have htouch : ({ s with cfms := cs } : State).touch k = { s with cfms := cs } :=
      touch_eq hlive ((hi.holds.hdr_iff k).mpr hlive)
    rw [if_neg hstatus, htouch] at hr
    unfold State.txdatacfm at hr
    dsimp only at hr
    split_ifs at hr with hretry
    · have hactive : s.active (s.frame k).txq = true := by
        simp only [Bool.and_eq_true] at hretry
        exact hretry.1.2
      obtain ⟨again, rest, hlist, -, hlast⟩ := hi.txqs.retries _ hactive
      -- the frame is in two places
      refine htxq _ (hr.single (.txq (s.frame k).txq) p k ?_ ?_).symm
      · exact retry_mem hi.holds.sound hlist (hi.holds.held.once _) hlast
      · rw [txqQueueSkb_place (htxq _)]
        exact hstays
    · exact hr.confirmed k (List.mem_append_right _ (List.mem_singleton.mpr rfl)) p hstays

theorem foldl_freeSkb_eq (l : List ℕ) (s : State) : ∃ frame fault,
    (∀ k, frame k = if k ∈ l then { s.frame k with skb := .freed } else s.frame k) ∧
    l.foldl State.freeSkb s = { s with
      frame := frame
      fault := fault } := by
  induction l generalizing s with
  | nil => exact ⟨s.frame, s.fault, fun k => (if_neg List.not_mem_nil).symm, rfl⟩
  | cons j l ih =>
    obtain ⟨frame, fault, hframe, heq⟩ := ih (s.freeSkb j)
    refine ⟨frame, fault, fun k => ?_, heq⟩
    rw [hframe k]
    by_cases hkj : k = j
    · subst hkj
      simp [State.freeSkb, State.setFrame]
    · simp [State.freeSkb, State.setFrame, hkj]

/-- The bus stops with nothing left on it. -/
theorem Inv.empty_of_stop (hi : Inv s none) (hr : Right s.busStop) :
    s.place .bus = [] ∧ s.place .aggr = [] ∧ ∀ k ∈ s.place .firmware, Pending s k := by
  obtain ⟨frame, fault, hframe, heq⟩ := foldl_freeSkb_eq (s.place .bus) s
  have hstop : s.busStop = { s.setPlace .bus [] with
      frame := frame
      fault := fault
      busUp := false } := by
    unfold State.busStop
    rw [heq]
    rfl
  rw [hstop] at hr
  have hleft : ∀ {p k}, k ∈ s.place p → p ≠ .bus → (∀ r, p ≠ .txq r) →
      k ∈ s.place .firmware ∧ Pending s k := by
    intro p k hk hbus htxq
    have hsame : frame k = s.frame k := (hframe k).trans
      (if_neg fun hin => hbus (hi.holds.held.single p .bus k hk hin))
    have hlive : (frame k).skb = .allocated := by
      rw [hsame]
      exact (hi.holds.mem hk).1
    rcases hr.owned k hlive with ⟨r, -, hmem⟩ | ⟨hup, -⟩ | ⟨hmem, hpending⟩
    · have hin : k ∈ s.place (.txq r) := by
        rwa [show (s.setPlace .bus []).place (.txq r) = s.place (.txq r) from
          setPlace_txq nofun] at hmem
      exact absurd (hi.holds.held.single p _ k hk hin) (htxq r)
    · cases hup
    · exact ⟨hmem, hpending⟩
  refine ⟨List.eq_nil_iff_forall_not_mem.mpr fun k hk => ?_,
    List.eq_nil_iff_forall_not_mem.mpr fun k hk => ?_, fun k hk => (hleft hk nofun nofun).2⟩
  · have hfreed : frame k = { s.frame k with skb := .freed } := (hframe k).trans (if_pos hk)
    have hhdr : (frame k).hdr = .allocated := by
      rw [hfreed]
      exact (hi.holds.hdr_iff k).mpr (hi.holds.mem hk).1
    have hlive : (frame k).skb = .allocated := (hr.together k).mp hhdr
    rw [hfreed] at hlive
    cases hlive
  · have hin : k ∈ s.place .firmware := (hleft hk nofun nofun).1
    cases hi.holds.held.single .aggr .firmware k hk hin

theorem act_force {a : Act} (hi : Inv s none) (h : ∀ t ∈ act s a, Right t) : Safe s a := by
  cases a with
  | txqInit q => exact hi.empty_of_cleared (h _ rfl) rfl rfl
  | txPush q full =>
    intro hactive k hk hconfirms j hj
    obtain ⟨l, hhead⟩ := List.head?_eq_some_iff.mp hk
    refine hi.dead_of_push hhead (h (s.txPush q k full) ?_) hconfirms hj
    exact (if_pos hactive).trans (Option.map_eq_some_iff.mpr ⟨k, hk, rfl⟩)
  | sdioAggrSend sent =>
    intro hup
    cases sent with
    | true => exact .inl rfl
    | false => exact .inr (hi.empty_of_cleared (h _ (if_pos hup)) rfl rfl)
  | confirm =>
    intro c hc
    exact hi.firmware_of_confirm (h _ (Option.map_eq_some_iff.mpr ⟨c, hc, rfl⟩))
  | busStop => exact hi.empty_of_stop (h _ rfl)
  | _ => trivial

end Actions

/-! ## Runs -/

theorem init_inv : Inv init none := by
  have hdead : ∀ k, ¬ Live init k := fun k hk => Mem.noConfusion hk
  have hempty : ∀ {k : ℕ} {P : Prop}, k ∈ ([] : List ℕ) → P := fun hk => absurd hk List.not_mem_nil
  have hentry : ∀ {k : ℕ} {P : Prop}, (none : Option ℕ) = some k → P := fun {k} _ hk =>
    absurd hk (Option.some_ne_none k).symm
  refine ⟨⟨rfl, held_empty.congr fun k => ⟨False.elim, fun hk => hdead k hk.1⟩, no_hand,
    fun k _ => iff_of_false (fun hk => Mem.noConfusion hk) (hdead k), fun _ _ => rfl,
    fun _ hk => hempty hk⟩, ⟨fun _ _ hk => hentry hk, fun _ _ hk => hentry hk,
    fun _ hk => hempty hk, fun _ hk => hempty hk, fun _ hk => hempty hk,
    fun hup => absurd hup Bool.true_eq_false_eq_False⟩,
    ⟨fun _ _ => rfl, fun _ hq => absurd hq Bool.false_ne_true⟩,
    fun _ hret => absurd hret (Option.some_ne_none _).symm⟩

theorem Inv.forget {s : State} (hi : Inv s none) : Inv { s with ret := none } none :=
  ⟨hi.holds.of_same rfl rfl rfl rfl rfl, hi.entries.of_same rfl rfl rfl rfl rfl rfl,
    hi.txqs.of_same (fun _ => rfl) rfl rfl rfl, fun _ h => absurd h (Option.some_ne_none _).symm⟩

theorem safe_forget {s : State} {a : Act} : Safe { s with ret := none } a ↔ Safe s a := by
  cases a <;> exact Iff.rfl

theorem run_owned_iff (acts : List Act) :
    Throughout step Right init acts ↔ Meets step Safe init acts := by
  refine throughout_iff (J := fun s => Inv s none) (fun s a t hp ht hi => ?_) (fun s hi => hi.right)
    (fun s a hi h => ?_) init_inv acts
  · obtain ⟨-, ht⟩ := Option.ite_none_left_eq_some.mp ht
    exact act_next hi.forget (safe_forget.mpr hp) ht
  · have hstep : step s a = act { s with ret := none } a := by
      unfold step
      rw [hi.holds.sound]
      rfl
    rw [hstep] at h
    exact safe_forget.mp (act_force hi.forget h)

/-- The bus stops with a deauthentication frame in its queue: the skb is freed, and nothing will
free the header. -/
theorem header_left_by_stop : ¬ Throughout step Right init
    [.txqInit 0, .startMgmtXmit 0xd0 0 true true, .txPush 0 false, .busStop] := by
  intro h
  have hrun : (exec step init
      [.txqInit 0, .startMgmtXmit 0xd0 0 true true, .txPush 0 false, .busStop]).map
        (fun t => ((t.frame 0).hdr, (t.frame 0).skb)) = some (.allocated, .freed) := by
    decide
  obtain ⟨t, ht, heq⟩ := Option.map_eq_some_iff.mp hrun
  have hr : Right t := h _ List.prefix_rfl t ht
  have hlive : Live t 0 := (hr.together 0).mp (congrArg Prod.fst heq)
  cases hlive.symm.trans (congrArg Prod.snd heq)

end AIC.TxOwnership
