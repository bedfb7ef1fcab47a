import Mathlib.Data.List.TakeWhile
import Aic8800.Lib.SerialOrder
import Aic8800.Lib.ReorderDelivery
import Aic8800.ReorderMachine

/-!
# The reorder window

The control is the receive buffer over unbounded positions, seen modulo 4096.
An arrival takes the position nearest to `ind_sn`; every comparison the source
makes is between positions less than half a turn apart, so the three loops do
on the circle what the buffer does on the line. The representation invariant
of the pending list follows from the buffer's window.
-/

set_option autoImplicit false

namespace AIC.ReorderWindow
open AIC.ReorderMachine Lib.ReorderBuffer

abbrev snAt (x : ℤ) : ℕ := Lib.SerialOrder.residue 4096 x

theorem and_fff (x : ℕ) : x &&& 0xFFF = x % 4096 := Nat.and_two_pow_sub_one_eq_mod x 12

theorem snLess_iff (a b : ℕ) :
    snLess a b = true ↔ Lib.SerialOrder.Precedes 4096 a b := by
  rw [snLess, beq_iff_eq, Lib.SerialOrder.Precedes]
  omega

theorem snAt_lt (x : ℤ) : snAt x < 4096 := Lib.SerialOrder.residue_lt (by decide) x

theorem snAt_cast (x : ℤ) : (snAt x : ℤ) = x % 4096 :=
  Lib.SerialOrder.residue_cast (by decide) x

theorem snAt_succ (x : ℤ) : (snAt x+1) &&& 0xFFF = snAt (x+1) := by
  have h1 := snAt_cast x
  have h2 := snAt_cast (x+1)
  rw [and_fff]
  omega

theorem snLess_snAt {x y : ℤ} (h₁ : x < y+2048) (h₂ : y < x+2048) :
    snLess (snAt x) (snAt y) = decide (x < y) := by
  rw [Bool.eq_iff_iff, decide_eq_true_eq, snLess_iff (snAt x) (snAt y)]
  exact Lib.SerialOrder.precedes_iff (by decide) (by push_cast; omega) (by push_cast; omega)

theorem snLess_of_lt {x y : ℤ} (h₁ : x < y) (h₂ : y ≤ x+2048) :
    snLess (snAt x) (snAt y) = true :=
  (snLess_iff (snAt x) (snAt y)).mpr
    (Lib.SerialOrder.precedes_of_lt (by decide) h₁ (by push_cast; omega))

theorem snEqual_snAt {x y : ℤ} (h₁ : x < y+4096) (h₂ : y < x+4096) :
    snEqual (snAt x) (snAt y) = decide (x = y) := by
  rw [Bool.eq_iff_iff, decide_eq_true_eq, snEqual, beq_iff_eq]
  exact Lib.SerialOrder.residue_eq_iff (by decide) (by push_cast; omega) (by push_cast; omega)

/-- The entries of a list carry the sequence numbers of their positions. -/
def Numbered (l : List (ℤ × RecvMsdu)) : Prop := ∀ g ∈ l, g.2.seqNum = snAt g.1

/-! ## The loops -/

theorem enqueue_place (e : ℤ × RecvMsdu) (l : List (ℤ × RecvMsdu))
    (he : e.2.seqNum = snAt e.1) (hl : Numbered l)
    (hd : ∀ g ∈ l, g.1 < e.1+2048 ∧ e.1 < g.1+2048) :
    reordRxframeEnqueue e.2 (l.map Prod.snd) = (place e l).map (List.map Prod.snd) := by
  induction l with
  | nil => rfl
  | cons g gs ih =>
    have hg := hd g (by simp)
    have ih := ih (fun x hx => hl x (by simp [hx])) (fun x hx => hd x (by simp [hx]))
    simp only [List.map_cons, reordRxframeEnqueue, place, he, hl g (by simp),
      snLess_snAt hg.1 hg.2, snEqual_snAt (show g.1 < e.1+4096 by omega) (by omega), ih]
    by_cases h1 : g.1 < e.1
    · simp [h1, Function.comp_def]
    · by_cases h2 : g.1 = e.1 <;> simp [h1, h2]

/-- `bPktInBuf` says whether the buffer still holds a packet above the scan. -/
theorem processLoop_scan (n : ℤ) {l : List (ℤ × RecvMsdu)} (ho : Ordered l) (hl : Numbered l)
    {B : ℤ} (hn : n ≤ B) (hB : ∀ g ∈ l, g.1 < B ∧ B < g.1+2048 ∧ g.1 < n+2048) :
    processLoop (snAt n) (l.map Prod.snd) =
      (snAt (scan n l), l.any (fun g => scan n l < g.1)) := by
  induction l generalizing n with
  | nil => rfl
  | cons g gs ih =>
    obtain ⟨hgo, hgs⟩ := List.pairwise_cons.mp ho
    have hg := hB g (by simp)
    have hnum : Numbered gs := fun x hx => hl x (by simp [hx])
    simp only [List.map_cons, processLoop, hl g (by simp),
      snLess_snAt (show n < g.1+2048 by omega) hg.2.2,
      snEqual_snAt (show n < g.1+4096 by omega) (show g.1 < n+4096 by omega), snAt_succ, scan]
    by_cases h1 : n < g.1
    · simp [h1]
    · by_cases h2 : n = g.1
      · subst h2
        have hge := scan_ge (g.1+1) gs
        rw [ih (g.1+1) hgs hnum (by omega) (fun x hx => by have := hB x (by simp [hx]); omega)]
        simp [show ¬ scan (g.1+1) gs < g.1 by omega]
      · have hge := scan_ge n gs
        rw [ih n hgs hnum hn (fun x hx => hB x (by simp [hx]))]
        simp [h1, h2, show ¬ scan n gs < g.1 by omega]

theorem takeWhile_map_snd (n : ℤ) {l : List (ℤ × RecvMsdu)} (hl : Numbered l)
    (hd : ∀ g ∈ l, g.1 < n+2048 ∧ n < g.1+2048) :
    (l.map Prod.snd).takeWhile (fun f => !snLess (snAt n) f.seqNum) =
        (l.takeWhile (fun g => g.1 ≤ n)).map Prod.snd ∧
      (l.map Prod.snd).dropWhile (fun f => !snLess (snAt n) f.seqNum) =
        (l.dropWhile (fun g => g.1 ≤ n)).map Prod.snd := by
  induction l with
  | nil => exact ⟨rfl, rfl⟩
  | cons g gs ih =>
    have hg := hd g (by simp)
    have ih := ih (fun x hx => hl x (by simp [hx])) (fun x hx => hd x (by simp [hx]))
    have htest : (!snLess (snAt n) g.2.seqNum) = decide (g.1 ≤ n) := by
      rw [hl g (by simp), snLess_snAt hg.2 hg.1, ← decide_not]
      simp
    simp only [List.map_cons, List.takeWhile_cons, List.dropWhile_cons, htest, ih.1, ih.2]
    by_cases h : g.1 ≤ n <;> simp [h]

/-! ## The control as a buffer -/

/-- The control stands at the buffer's position and holds its packets. -/
structure Tracks (c : ReordCtrl) (b : Buffer RecvMsdu) : Prop where
  wsize : c.wsizeB = AICWF_REORDER_WINSIZE
  indSn : c.indSn = snAt b.next
  list : c.reordList = b.held.map Prod.snd
  numbered : Numbered b.held

/-- `reord_rxframes_process` and `reord_rxframes_ind`, from `ind_sn` at `n`. -/
theorem settle_tracks {c : ReordCtrl} {n B : ℤ} {l : List (ℤ × RecvMsdu)} (ho : Ordered l)
    (hl : Numbered l) (hw : c.wsizeB = AICWF_REORDER_WINSIZE)
    (hc : c.reordList = l.map Prod.snd) (hn : n ≤ B)
    (hB : ∀ g ∈ l, g.1 < B ∧ B < g.1+2048 ∧ g.1 < n+2048) (t : Bool) :
    let d := { c with indSn := (processLoop (snAt n) c.reordList).1, reordTimer := t }
    Tracks (reordRxframesInd d).1 (settle n l).1 ∧
      (reordRxframesInd d).2 = ((settle n l).2.map Prod.snd).map .listed := by
  intro d
  have hs := processLoop_scan n ho hl hn hB
  have hd : d.indSn = snAt (scan n l) := by simp only [d, hc, hs]
  have hle : scan n l ≤ B := scan_le hn (fun g hg => (hB g hg).1)
  have hge := scan_ge n l
  obtain ⟨htake, hdrop⟩ := takeWhile_map_snd (scan n l) hl (fun g hg => by
    have := hB g hg; omega)
  have hlist : d.reordList = l.map Prod.snd := hc
  refine ⟨⟨hw, hd, ?_, ?_⟩, ?_⟩
  · simp only [reordRxframesInd, hd, hlist, hdrop, settle]
  · intro g hg
    exact hl g (List.dropWhile_sublist _ |>.subset hg)
  · simp only [reordRxframesInd, hd, hlist, htake, settle]

/-- Without `bPktInBuf` nothing is left on the list. -/
theorem settle_emptied {c : ReordCtrl} {n B : ℤ} {l : List (ℤ × RecvMsdu)} (ho : Ordered l)
    (hl : Numbered l) (hw : c.wsizeB = AICWF_REORDER_WINSIZE)
    (hc : c.reordList = l.map Prod.snd) (hn : n ≤ B)
    (hB : ∀ g ∈ l, g.1 < B ∧ B < g.1+2048 ∧ g.1 < n+2048)
    (hmore : (processLoop (snAt n) c.reordList).2 = false) (t : Bool) :
    (reordRxframesInd { c with
      indSn := (processLoop (snAt n) c.reordList).1
      reordTimer := t }).1.reordList = [] := by
  rw [hc, processLoop_scan n ho hl hn hB] at hmore
  have hall : ∀ g ∈ l, g.1 ≤ scan n l := by simpa using hmore
  have hrest : (settle n l).1.held = [] := by
    simpa [settle, List.dropWhile_eq_nil_iff] using hall
  rw [(settle_tracks ho hl hw hc hn hB t).1.list, hrest, List.map_nil]

/-! ## One arrival -/

theorem needCheck_late {c : ReordCtrl} {b : Buffer RecvMsdu} (h : Tracks c b) {p : ℤ}
    (h₁ : p < b.next) (h₂ : b.next ≤ p+2048) : reordNeedCheck c (snAt p) = (c, true) := by
  have hne : c.indSn ≠ 0xFFFF := by
    have := snAt_lt b.next
    rw [h.indSn]
    omega
  simp only [reordNeedCheck, if_neg hne]
  rw [h.indSn, snLess_of_lt h₁ h₂, if_pos rfl, ← h.indSn]

theorem needCheck_slide {c : ReordCtrl} {b : Buffer RecvMsdu} (h : Tracks c b) {p : ℤ}
    (h₁ : b.next ≤ p) (h₂ : p < b.next+2048) :
    reordNeedCheck c (snAt p) = ({ c with indSn := snAt (slide 64 b.next p) }, false) := by
  have hne : c.indSn ≠ 0xFFFF := by
    have := snAt_lt b.next
    rw [h.indSn]
    omega
  have hwend : (c.indSn+64-1) &&& 0xFFF = snAt (b.next+63) := by
    have h1 := snAt_cast b.next
    have h2 := snAt_cast (b.next+63)
    rw [and_fff, h.indSn]
    omega
  have hless : snLess (snAt p) c.indSn = false := by
    rw [h.indSn, snLess_snAt h₂ (by omega), decide_eq_false (not_lt.mpr h₁)]
  have hequal : snEqual (snAt p) c.indSn = decide (p = b.next) := by
    rw [h.indSn, snEqual_snAt (by omega) (by omega)]
  have hend : snLess ((c.indSn+64-1) &&& 0xFFF) (snAt p) = decide (b.next+63 < p) := by
    rw [hwend, snLess_snAt (by omega) (by omega)]
  have hsucc : (c.indSn+1) &&& 0xFFF = snAt (b.next+1) := by rw [h.indSn, snAt_succ]
  simp only [reordNeedCheck, if_neg hne, h.wsize, AICWF_REORDER_WINSIZE, hless, hequal, hend,
    hsucc, Bool.false_eq_true, if_false, decide_eq_true_eq, slide]
  by_cases hp : p = b.next
  · rw [if_pos hp, if_pos hp]
  rw [if_neg hp, if_neg hp]
  by_cases hfar : b.next+63 < p
  · have h1 := snAt_cast p
    have h2 := snAt_cast (p-63)
    have hback : p-(((64 : ℕ) : ℤ)-1) = p-63 := by norm_num
    rw [if_pos hfar, if_pos (show b.next+((64 : ℕ) : ℤ) ≤ p by omega), hback]
    -- the two subtractions of the source, without and with a wrap
    split_ifs with hwrap
    · have hsub : snAt p-(64-1) = snAt (p-63) := by omega
      rw [hsub]
    · have hsub : 0xFFF-(64-(snAt p+1))+1 = snAt (p-63) := by omega
      rw [hsub]
  · rw [if_neg hfar, if_neg (show ¬ b.next+((64 : ℕ) : ℤ) ≤ p by omega), h.indSn]

/-- The first arrival on a fresh control finds `ind_sn` at its own number. -/
theorem unit_fresh {c : ReordCtrl} (h : c.indSn = 0xFFFF) {f : RecvMsdu}
    (hf : f.seqNum < 4096) : reordUnit c f = reordUnit { c with indSn := f.seqNum } f := by
  have hne : f.seqNum ≠ 0xFFFF := by omega
  have hless : snLess f.seqNum f.seqNum = false := by
    have := snLess_iff f.seqNum f.seqNum
    have hn : ¬ Lib.SerialOrder.Precedes 4096 f.seqNum f.seqNum := by
      simp [Lib.SerialOrder.Precedes]
    simpa [hn] using this
  have hcheck : reordNeedCheck c f.seqNum = reordNeedCheck { c with indSn := f.seqNum } f.seqNum := by
    simp [reordNeedCheck, h, hne, hless, snEqual]
  simp only [reordUnit, hcheck]

/-- What happens to a frame that does not enter the list: late and not RTP it
goes straight up, late RTP or on the list already it is freed. -/
def aside (b : Buffer RecvMsdu) (p : ℤ) (f : RecvMsdu) : List Ind :=
  if p < b.next then [if f.pkt.data 42 = 0x80 then .kfree f.pkt else .direct f]
  else if (place (p, f) b.held).isNone then [.kfree f.pkt] else []

theorem unit_of_none {c d : ReordCtrl} {f : RecvMsdu}
    (hcheck : reordNeedCheck c f.seqNum = (d, false))
    (henq : reordRxframeEnqueue f d.reordList = none) : reordUnit c f = (d, [.kfree f.pkt]) := by
  simp only [reordUnit, hcheck, henq, Bool.false_eq_true, if_false]

theorem unit_of_some {c d : ReordCtrl} {f g : RecvMsdu} {gs : List RecvMsdu}
    (hcheck : reordNeedCheck c f.seqNum = (d, false))
    (henq : reordRxframeEnqueue f d.reordList = some (g::gs)) :
    reordUnit c f = reordRxframesInd
      { d with
        reordList := g::gs
        indSn := (processLoop d.indSn (g::gs)).1
        reordTimer := (processLoop d.indSn (g::gs)).2 } := by
  simp only [reordUnit, hcheck, henq, Bool.false_eq_true, if_false, reordRxframesProcess]

theorem unit_late {c : ReordCtrl} {b : Buffer RecvMsdu} (h : Tracks c b) {f : RecvMsdu} {p : ℤ}
    (hf : f.seqNum = snAt p) (h₁ : b.next ≤ p+2048) (hlate : p < b.next) :
    reordUnit c f = (c, aside b p f) := by
  have hne : snAt p ≠ c.indSn := by
    rw [h.indSn]
    intro heq
    have := (Lib.SerialOrder.residue_eq_iff (M := 4096) (by decide)
      (by push_cast; omega) (by push_cast; omega)).mp heq
    omega
  simp only [reordUnit, hf, needCheck_late h hlate h₁, if_true, aside, if_pos hlate, if_neg hne]
  split_ifs <;> rfl

/-- With a new position placed, the list lies within half a turn of any `ind_sn` in reach. -/
theorem placed_bounds {b : Buffer RecvMsdu} (hb : Windowed 64 b) {f : RecvMsdu} {p : ℤ}
    {l : List (ℤ × RecvMsdu)} (hp : place (p, f) b.held = some l) (h₁ : b.next ≤ p)
    (h₂ : p < b.next+2048) : slide 64 b.next p ≤ max (p+1) (b.next+64) ∧
      ∀ g ∈ l, g.1 < max (p+1) (b.next+64) ∧ max (p+1) (b.next+64) < g.1+2048 ∧
        g.1 < slide 64 b.next p+2048 := by
  have hs := slide_bounds (W := 64) (by decide) h₁
  refine ⟨by omega, fun g hg => ?_⟩
  rcases (mem_place hp g).mp hg with rfl | hg
  · simp only
    omega
  · have h3 := hb.above g hg
    have h4 := hb.inside g hg
    omega

theorem placed_numbered {b : Buffer RecvMsdu} (hb : Numbered b.held) {f : RecvMsdu} {p : ℤ}
    {l : List (ℤ × RecvMsdu)} (hp : place (p, f) b.held = some l) (hf : f.seqNum = snAt p) :
    Numbered l := by
  intro g hg
  rcases (mem_place hp g).mp hg with rfl | hg
  · exact hf
  · exact hb g hg

theorem unit_tracks {c : ReordCtrl} {b : Buffer RecvMsdu} (h : Tracks c b)
    (hb : Windowed 64 b) {f : RecvMsdu} {p : ℤ} (hf : f.seqNum = snAt p)
    (h₁ : b.next ≤ p+2048) (h₂ : p < b.next+2048) :
    Tracks (reordUnit c f).1 (arrive 64 b (p, f)).1 ∧
      (reordUnit c f).2 = aside b p f++((arrive 64 b (p, f)).2.map Prod.snd).map .listed := by
  by_cases hlate : p < b.next
  · rw [unit_late h hf h₁ hlate, arrive, if_pos hlate]
    exact ⟨h, by simp⟩
  have hle : b.next ≤ p := not_lt.mp hlate
  have hcheck := needCheck_slide h hle h₂
  rw [← hf] at hcheck
  have henq := enqueue_place (p, f) b.held hf h.numbered (fun g hg => by
    have := hb.above g hg
    have := hb.inside g hg
    simp only
    omega)
  rw [← h.list] at henq
  cases hp : place (p, f) b.held with
  | none =>
    have harr : arrive 64 b (p, f) = ({ b with next := slide 64 b.next p }, []) := by
      simp only [arrive, if_neg hlate, hp]
    have haside : aside b p f = [.kfree f.pkt] := by
      simp only [aside, if_neg hlate, hp, Option.isNone_none, if_true]
    rw [unit_of_none hcheck (by rw [henq, hp]; rfl), harr, haside]
    exact ⟨⟨h.wsize, rfl, h.list, h.numbered⟩, rfl⟩
  | some l =>
    have ho := place_ordered hb.ordered hp
    have hl := placed_numbered h.numbered hp hf
    obtain ⟨hn, hB⟩ := placed_bounds hb hp hle h₂
    have harr : arrive 64 b (p, f) = settle (slide 64 b.next p) l := by
      simp only [arrive, if_neg hlate, hp]
    have haside : aside b p f = [] := by simp [aside, if_neg hlate, hp]
    cases l with
    | nil => exact absurd ((mem_place hp (p, f)).mpr (Or.inl rfl)) List.not_mem_nil
    | cons g gs =>
      rw [unit_of_some hcheck (by rw [henq, hp]; rfl), harr, haside, List.nil_append]
      exact settle_tracks (c := { c with reordList := (g::gs).map Prod.snd }) ho hl h.wsize rfl
        hn hB _

/-! ## One expiry -/

/-- A forced walk over a list that is not empty starts at its first frame. -/
theorem Tracks.process_forced {c : ReordCtrl} {b : Buffer RecvMsdu} (h : Tracks c b)
    {g : ℤ × RecvMsdu} {gs : List (ℤ × RecvMsdu)} (hh : b.held = g::gs) :
    reordRxframesProcess c true = ({ c with indSn := (processLoop (snAt g.1) c.reordList).1 },
      (processLoop (snAt g.1) c.reordList).2) := by
  have hlist : c.reordList = (g::gs).map Prod.snd := hh ▸ h.list
  have hnum : g.2.seqNum = snAt g.1 := h.numbered g (by simp [hh])
  simp only [reordRxframesProcess, hlist, List.map_cons, if_true, hnum]

theorem worker_tracks {c : ReordCtrl} {b : Buffer RecvMsdu} (h : Tracks c b)
    (hb : Windowed 64 b) :
    Tracks (reordTimeoutWorker c).1 (expire b).1 ∧
      (reordTimeoutWorker c).2 = ((expire b).2.map Prod.snd).map .listed := by
  cases hh : b.held with
  | nil =>
    have hnil : c.reordList = [] := by rw [h.list, hh]; rfl
    simp only [reordTimeoutWorker, reordRxframesProcess, hnil, reordRxframesInd, expire, hh,
      List.dropWhile_nil, List.takeWhile_nil, List.map_nil]
    exact ⟨⟨h.wsize, h.indSn, by rw [hh]; rfl, h.numbered⟩, trivial⟩
  | cons g gs =>
    have hlist : c.reordList = (g::gs).map Prod.snd := hh ▸ h.list
    have hin : ∀ x ∈ g::gs, b.next < x.1 ∧ x.1 < b.next+64 := fun x hx =>
      ⟨hb.above x (hh ▸ hx), hb.inside x (hh ▸ hx)⟩
    have hg := hin g (by simp)
    have hidle : Tracks { c with reordTimerWork := false } b :=
      ⟨h.wsize, h.indSn, h.list, h.numbered⟩
    simp only [reordTimeoutWorker, hidle.process_forced hh, expire, hh]
    exact settle_tracks (c := { c with reordTimerWork := false }) (B := b.next+64)
      (hh ▸ hb.ordered) (hh ▸ h.numbered) h.wsize hlist (by omega)
      (by intro x hx; have := hin x hx; omega) _

end AIC.ReorderWindow
