import Aic8800.ReorderWindow

/-!
# Runs of the reorder machine

From a control as `reord_init_sta` leaves it, over any arrivals with 12-bit
numbers and any timer runs. The pending list stays ordered and inside the
window, and the frames taken off it go up in order. A late frame does not wait
for that order: it goes up where it arrives, or is freed when it is RTP.
-/

set_option autoImplicit false

namespace AIC.ReorderRun
open AIC.ReorderMachine AIC.ReorderWindow Lib.ReorderBuffer Lib.Trace

structure Fresh (c : ReordCtrl) : Prop where
  wsize : c.wsizeB = AICWF_REORDER_WINSIZE
  indSn : c.indSn = 0xFFFF
  empty : c.reordList = []

theorem init_fresh : Fresh reordInitCtrl := ⟨rfl, rfl, rfl⟩

/-- A fresh control that takes up a sequence number is the empty buffer there. -/
theorem fresh_tracks {c : ReordCtrl} (h : Fresh c) {n : ℕ} (hn : n < 4096) :
    Tracks { c with indSn := n } ⟨n, []⟩ where
  wsize := h.wsize
  indSn := by
    have := snAt_cast n
    simp only
    omega
  list := h.empty
  numbered := by simp [Numbered]

theorem empty_windowed (n : ℤ) : Windowed 64 (⟨n, []⟩ : Buffer RecvMsdu) :=
  ⟨List.Pairwise.nil, by simp, by simp⟩

/-- The position of an arrival: the one nearest to `ind_sn`. -/
def arrivalAt (b : Buffer RecvMsdu) (f : RecvMsdu) : ℤ :=
  Lib.SerialOrder.lift 4096 b.next f.seqNum

theorem arrivalAt_spec (b : Buffer RecvMsdu) {f : RecvMsdu} (hf : f.seqNum < 4096) :
    f.seqNum = snAt (arrivalAt b f) ∧ b.next ≤ arrivalAt b f+2048 ∧
      arrivalAt b f < b.next+2048 := by
  have hb := Lib.SerialOrder.lift_bounds (M := 4096) (by decide) b.next f.seqNum
  push_cast at hb
  unfold arrivalAt
  exact ⟨(Lib.SerialOrder.residue_lift (by decide) b.next hf).symm, by omega, by omega⟩

/-! ## The representation invariant -/

structure Represents (c : ReordCtrl) : Prop where
  wsize : c.wsizeB = AICWF_REORDER_WINSIZE
  ordered : c.reordList.Pairwise (fun f g => snLess f.seqNum g.seqNum)
  distinct : (c.reordList.map RecvMsdu.seqNum).Nodup
  window : ∀ f ∈ c.reordList, 1 ≤ (f.seqNum+4096-c.indSn) % 4096 ∧
    (f.seqNum+4096-c.indSn) % 4096 ≤ c.wsizeB-1
  indSn : c.indSn < 4096 ∨ (c.indSn = 0xFFFF ∧ c.reordList = [])

theorem fresh_represents {c : ReordCtrl} (h : Fresh c) : Represents c where
  wsize := h.wsize
  ordered := by simp [h.empty]
  distinct := by simp [h.empty]
  window := by simp [h.empty]
  indSn := Or.inr ⟨h.indSn, h.empty⟩

theorem tracks_represents {c : ReordCtrl} {b : Buffer RecvMsdu} (h : Tracks c b)
    (hb : Windowed 64 b) : Represents c := by
  have hless : c.reordList.Pairwise (fun f g => snLess f.seqNum g.seqNum) := by
    rw [h.list, List.pairwise_map]
    apply hb.ordered.imp_of_mem
    intro f g hf hg hfg
    have h1 := hb.above f hf
    have h2 := hb.inside g hg
    rw [h.numbered f hf, h.numbered g hg]
    exact snLess_of_lt hfg (by omega)
  refine ⟨h.wsize, hless, ?_, ?_, Or.inl (h.indSn ▸ snAt_lt _)⟩
  · rw [List.Nodup, List.pairwise_map]
    apply hless.imp
    intro f g hfg heq
    rw [heq] at hfg
    simp [snLess] at hfg
  · intro f hf
    rw [h.list] at hf
    obtain ⟨g, hg, rfl⟩ := List.mem_map.mp hf
    have h1 := hb.above g hg
    have h2 := hb.inside g hg
    have h3 := snAt_cast g.1
    have h4 := snAt_cast b.next
    rw [h.indSn, h.numbered g hg, h.wsize, AICWF_REORDER_WINSIZE]
    omega

/-- The control is fresh or follows a buffer inside its window. -/
def Follows (c : ReordCtrl) : Prop := Fresh c ∨ ∃ b, Tracks c b ∧ Windowed 64 b

theorem handler_tracks {c : ReordCtrl} {b : Buffer RecvMsdu} (h : Tracks c b) :
    Tracks (reordTimeoutHandler c) b := ⟨h.wsize, h.indSn, h.list, h.numbered⟩

theorem fresh_worker {c : ReordCtrl} (h : Fresh c) :
    Fresh (reordTimeoutWorker c).1 ∧ (reordTimeoutWorker c).2 = [] := by
  simp only [reordTimeoutWorker, reordRxframesProcess, h.empty, reordRxframesInd,
    List.dropWhile_nil, List.takeWhile_nil, List.map_nil, and_true]
  exact ⟨h.wsize, h.indSn, rfl⟩

theorem step_follows {c : ReordCtrl} (h : Follows c) {e : Event} (he : e.Valid) :
    Follows (step c e).1 := by
  cases e with
  | arrival f =>
    right
    rcases h with h | ⟨b, hc, hb⟩
    · have hf : f.seqNum < 4096 := he
      obtain ⟨h1, h2, h3⟩ := arrivalAt_spec ⟨f.seqNum, []⟩ hf
      simp only [step, unit_fresh h.indSn hf]
      exact ⟨_, (unit_tracks (fresh_tracks h hf) (empty_windowed _) h1 h2 h3).1,
        arrive_windowed (by decide) (empty_windowed _) _⟩
    · obtain ⟨h1, h2, h3⟩ := arrivalAt_spec b he
      exact ⟨_, (unit_tracks hc hb h1 h2 h3).1, arrive_windowed (by decide) hb _⟩
  | timeoutHandler =>
    rcases h with h | ⟨b, hc, hb⟩
    · exact Or.inl ⟨h.wsize, h.indSn, h.empty⟩
    · exact Or.inr ⟨b, handler_tracks hc, hb⟩
  | timeoutWorker =>
    rcases h with h | ⟨b, hc, hb⟩
    · exact Or.inl (fresh_worker h).1
    · exact Or.inr ⟨_, (worker_tracks hc hb).1, expire_windowed hb⟩

theorem run_follows {es : List Event} (he : ∀ e ∈ es, e.Valid) :
    Follows (run step reordInitCtrl es).1 :=
  run_history (P := fun _ c _ => Follows c) (Or.inl init_fresh) es
    (fun _ e _ _ hpre h => step_follows h (he e (hpre.subset (by simp))))

/-- After any arrivals and timer runs the pending list is ordered by
`SN_LESS`, and every number on it is 1 to `wsize_b-1` ahead of `ind_sn`. -/
theorem run_represents (es : List Event) (he : ∀ e ∈ es, e.Valid) :
    Represents (run step reordInitCtrl es).1 := by
  rcases run_follows he with h | ⟨b, hc, hb⟩
  · exact fresh_represents h
  · exact tracks_represents hc hb

def sampleMsdu (seqNum : ℕ) : RecvMsdu := ⟨SkBuff.ofList (List.replicate 60 0), 0, seqNum, true⟩

theorem run_represents_wrap :
    Represents (run step reordInitCtrl [.arrival (sampleMsdu 4090), .arrival (sampleMsdu 2),
      .arrival (sampleMsdu 4092), .timeoutHandler, .timeoutWorker,
      .arrival (sampleMsdu 1900)]).1 :=
  run_represents _ (by simp [Event.Valid, sampleMsdu])

/-! ## The order of delivery -/

/-- `SN_LESS(seq_num, ind_sn)` when the frame arrives. -/
def Late (c : ReordCtrl) (f : RecvMsdu) : Prop :=
  c.indSn ≠ 0xFFFF ∧ snLess f.seqNum c.indSn = true

/-- The frames taken off the pending list, in the order they were indicated. -/
def listed (out : List Ind) : List RecvMsdu := out.filterMap Ind.fromList

theorem listed_append (out out' : List Ind) : listed (out++out') = listed out++listed out' :=
  List.filterMap_append

theorem listed_map (l : List RecvMsdu) : listed (l.map .listed) = l := by
  rw [listed, List.filterMap_map]
  exact List.filterMap_some

theorem listed_aside (b : Buffer RecvMsdu) (p : ℤ) (f : RecvMsdu) : listed (aside b p f) = [] := by
  unfold aside
  split_ifs <;> rfl

/-- The frames off the list so far stand at rising positions, in strides of
at most half a turn. -/
def Delivered (c : ReordCtrl) (out : List Ind) : Prop :=
  (Fresh c ∧ listed out = []) ∨ ∃ b L₀ ps L, Tracks c b ∧ Windowed 64 b ∧ Trails 2048 L b ∧
    Rises 2048 L₀ ps L ∧ (listed out).map RecvMsdu.seqNum = ps.map snAt

theorem numbers_eq {l : List (ℤ × RecvMsdu)} (h : Numbered l) :
    (l.map Prod.snd).map RecvMsdu.seqNum = (l.map Prod.fst).map snAt := by
  rw [List.map_map, List.map_map]
  exact List.map_congr_left h

theorem arrive_numbered {b : Buffer RecvMsdu} {f : RecvMsdu} {p : ℤ} (hb : Numbered b.held)
    (hf : f.seqNum = snAt p) : Numbered (arrive 64 b (p, f)).2 := by
  unfold arrive
  split_ifs
  · simp [Numbered]
  · cases hp : place (p, f) b.held with
    | none => simp [Numbered]
    | some l =>
      intro g hg
      rcases (mem_place hp g).mp (settle_subset _ _ hg) with rfl | hg
      · exact hf
      · exact hb g hg

theorem expire_numbered {b : Buffer RecvMsdu} (hb : Numbered b.held) :
    Numbered (expire b).2 := by
  unfold expire
  cases hh : b.held with
  | nil => simp [Numbered]
  | cons g gs =>
    intro x hx
    have hx' : x ∈ (settle g.1 (g::gs)).2 := hx
    exact hb x (hh ▸ settle_subset _ _ hx')

theorem arrival_delivered {c : ReordCtrl} {b : Buffer RecvMsdu} {L₀ L : ℤ} {ps : List ℤ}
    {out : List Ind} (hc : Tracks c b) (hb : Windowed 64 b) (ht : Trails 2048 L b)
    (hr : Rises 2048 L₀ ps L) (ho : (listed out).map RecvMsdu.seqNum = ps.map snAt)
    {f : RecvMsdu} (hf : f.seqNum < 4096) :
    Delivered (reordUnit c f).1 (out++(reordUnit c f).2) := by
  obtain ⟨h1, h2, h3⟩ := arrivalAt_spec b hf
  obtain ⟨hc', hout⟩ := unit_tracks hc hb h1 h2 h3
  obtain ⟨L', hr', ht'⟩ := arrive_rises (W := 64) (by decide) (by decide) hb ht
    (e := (arrivalAt b f, f)) h3
  have hn := numbers_eq (arrive_numbered hc.numbered h1)
  refine Or.inr ⟨_, L₀, _, L', hc', arrive_windowed (by decide) hb _, ht', hr.append hr', ?_⟩
  rw [hout, listed_append, listed_append, listed_aside, listed_map, List.nil_append,
    List.map_append, List.map_append, ho, hn]

theorem step_delivered {c : ReordCtrl} {out : List Ind} (h : Delivered c out) {e : Event}
    (he : e.Valid) : Delivered (step c e).1 (out++(step c e).2) := by
  cases e with
  | arrival f =>
    rcases h with ⟨h, ho⟩ | ⟨b, L₀, ps, L, hc, hb, ht, hr, ho⟩
    · have hf : f.seqNum < 4096 := he
      simp only [step, unit_fresh h.indSn hf]
      exact arrival_delivered (fresh_tracks h hf) (empty_windowed _) (L := f.seqNum-1)
        ⟨by simp only; omega, by simp only; omega, by simp⟩ (.nil _) (by rw [ho]; rfl) hf
    · exact arrival_delivered hc hb ht hr ho he
  | timeoutHandler =>
    simp only [step, List.append_nil]
    rcases h with ⟨h, ho⟩ | ⟨b, L₀, ps, L, hc, hrest⟩
    · exact Or.inl ⟨⟨h.wsize, h.indSn, h.empty⟩, ho⟩
    · exact Or.inr ⟨b, L₀, ps, L, handler_tracks hc, hrest⟩
  | timeoutWorker =>
    rcases h with ⟨h, ho⟩ | ⟨b, L₀, ps, L, hc, hb, ht, hr, ho⟩
    · obtain ⟨hw, hout⟩ := fresh_worker h
      simp only [step, hout, List.append_nil]
      exact Or.inl ⟨hw, ho⟩
    · obtain ⟨hc', hout⟩ := worker_tracks hc hb
      obtain ⟨L', hr', ht'⟩ := expire_rises (W := 64) (by decide) hb ht
      have hn := numbers_eq (expire_numbered hc.numbered)
      refine Or.inr ⟨_, L₀, _, L', hc', expire_windowed hb, ht', hr.append hr', ?_⟩
      rw [step, hout, listed_append, listed_map, List.map_append, List.map_append, ho, hn]

/-- The outputs of an arrival: a late frame alone, otherwise only frames off
the list and a duplicate freed. -/
def ArrivalOut (c : ReordCtrl) (f : RecvMsdu) (out : List Ind) : Prop :=
  (Late c f → out = [if f.pkt.data 42 = 0x80 then .kfree f.pkt else .direct f]) ∧
    (¬ Late c f → ∀ x ∈ out, x = .kfree f.pkt ∨ ∃ g, x = .listed g)

theorem tracks_arrival_out {c : ReordCtrl} {b : Buffer RecvMsdu} (hc : Tracks c b)
    (hb : Windowed 64 b) {f : RecvMsdu} (hf : f.seqNum < 4096) :
    ArrivalOut c f (reordUnit c f).2 := by
  obtain ⟨h1, h2, h3⟩ := arrivalAt_spec b hf
  have hne : c.indSn ≠ 0xFFFF := by
    have := snAt_lt b.next
    rw [hc.indSn]
    omega
  by_cases hlate : arrivalAt b f < b.next
  · have hl : Late c f := ⟨hne, by rw [h1, hc.indSn]; exact snLess_of_lt hlate h2⟩
    rw [unit_late hc h1 h2 hlate, aside, if_pos hlate]
    exact ⟨fun _ => rfl, fun h => absurd hl h⟩
  · have hl : ¬ Late c f := by
      rintro ⟨-, h⟩
      rw [h1, hc.indSn, snLess_snAt h3 (by omega)] at h
      exact hlate (of_decide_eq_true h)
    refine ⟨fun h => absurd h hl, fun _ x hx => ?_⟩
    rw [(unit_tracks hc hb h1 h2 h3).2, aside, if_neg hlate] at hx
    rcases List.mem_append.mp hx with hx | hx
    · left
      split_ifs at hx
      · exact List.mem_singleton.mp hx
      · exact absurd hx List.not_mem_nil
    · right
      obtain ⟨g, -, rfl⟩ := List.mem_map.mp hx
      exact ⟨g, rfl⟩

theorem fresh_arrival_out {c : ReordCtrl} (h : Fresh c) {f : RecvMsdu} (hf : f.seqNum < 4096) :
    ArrivalOut c f (reordUnit c f).2 := by
  have hs := tracks_arrival_out (fresh_tracks h hf) (empty_windowed _) hf
  rw [unit_fresh h.indSn hf]
  have hless : ¬ Late { c with indSn := f.seqNum } f := by
    rintro ⟨-, hl⟩
    simp [snLess] at hl
  exact ⟨fun hl => absurd h.indSn hl.1, fun _ => hs.2 hless⟩

end AIC.ReorderRun
