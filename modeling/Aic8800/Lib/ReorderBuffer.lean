import Mathlib.Tactic

/-!
# A receive buffer over unbounded positions

Packets carry integer positions. The buffer holds those that arrived before
their turn, in order, inside a window above the next expected position. A
packet far above the window moves the window; a timer gives up on the missing
positions below the first packet held. The positions handed out only rise, and
within the window nothing is lost.
-/

set_option autoImplicit false

namespace Lib.ReorderBuffer

variable {α : Type*}

structure Buffer (α : Type*) where
  next : ℤ
  held : List (ℤ × α)

def Ordered (l : List (ℤ × α)) : Prop := l.Pairwise (fun g h => g.1 < h.1)

/-- Insertion in order of position; `none` when the position is taken. -/
def place (e : ℤ × α) : List (ℤ × α) → Option (List (ℤ × α))
  | [] => some [e]
  | g::gs =>
    if g.1 < e.1 then (place e gs).map (g :: ·)
    else if g.1 = e.1 then none else some (e::g::gs)

/-- The first position from `n` on that the list does not hold. -/
def scan (n : ℤ) : List (ℤ × α) → ℤ
  | [] => n
  | g::gs => if n < g.1 then n else if n = g.1 then scan (n+1) gs else scan n gs

def slide (W : ℕ) (n p : ℤ) : ℤ :=
  if p = n then n+1 else if n+W ≤ p then p-(W-1) else n

def settle (n : ℤ) (l : List (ℤ × α)) : Buffer α × List (ℤ × α) :=
  (⟨scan n l, l.dropWhile (fun g => g.1 ≤ scan n l)⟩, l.takeWhile (fun g => g.1 ≤ scan n l))

def arrive (W : ℕ) (b : Buffer α) (e : ℤ × α) : Buffer α × List (ℤ × α) :=
  if e.1 < b.next then (b, [])
  else match place e b.held with
    | none => ({ b with next := slide W b.next e.1 }, [])
    | some l => settle (slide W b.next e.1) l

def expire (b : Buffer α) : Buffer α × List (ℤ × α) :=
  match b.held with
  | [] => (b, [])
  | g::gs => settle g.1 (g::gs)

theorem settle_subset (n : ℤ) (l : List (ℤ × α)) : (settle n l).2 ⊆ l :=
  (List.takeWhile_sublist _).subset

/-! ## Insertion -/

theorem place_perm {e : ℤ × α} {l l' : List (ℤ × α)} (h : place e l = some l') :
    l'.Perm (e::l) := by
  induction l generalizing l' with
  | nil =>
    obtain rfl := Option.some.inj h
    exact List.Perm.refl _
  | cons g gs ih =>
    simp only [place] at h
    split_ifs at h with h1 h2
    · obtain ⟨k, hk, rfl⟩ := Option.map_eq_some_iff.mp h
      exact ((ih hk).cons g).trans (List.Perm.swap e g gs)
    · obtain rfl := Option.some.inj h
      exact List.Perm.refl _

theorem mem_place {e : ℤ × α} {l l' : List (ℤ × α)} (h : place e l = some l') (g : ℤ × α) :
    g ∈ l' ↔ g = e ∨ g ∈ l := by
  rw [(place_perm h).mem_iff, List.mem_cons]

theorem place_ordered {e : ℤ × α} {l l' : List (ℤ × α)} (hl : Ordered l)
    (h : place e l = some l') : Ordered l' := by
  induction l generalizing l' with
  | nil =>
    obtain rfl := Option.some.inj h
    exact List.pairwise_singleton _ _
  | cons g gs ih =>
    obtain ⟨hg, hgs⟩ := List.pairwise_cons.mp hl
    simp only [place] at h
    split_ifs at h with h1 h2
    · obtain ⟨k, hk, rfl⟩ := Option.map_eq_some_iff.mp h
      apply List.pairwise_cons.mpr
      refine ⟨fun x hx => ?_, ih hgs hk⟩
      rcases (mem_place hk x).mp hx with rfl | hx
      · exact h1
      · exact hg x hx
    · obtain rfl := Option.some.inj h
      have hlt : e.1 < g.1 := lt_of_le_of_ne (not_lt.mp h1) (Ne.symm h2)
      apply List.pairwise_cons.mpr
      refine ⟨fun x hx => ?_, hl⟩
      rcases List.mem_cons.mp hx with rfl | hx
      · exact hlt
      · exact hlt.trans (hg x hx)

theorem place_none_iff {e : ℤ × α} {l : List (ℤ × α)} (hl : Ordered l) :
    place e l = none ↔ ∃ g ∈ l, g.1 = e.1 := by
  induction l with
  | nil => simp [place]
  | cons g gs ih =>
    obtain ⟨hg, hgs⟩ := List.pairwise_cons.mp hl
    simp only [place]
    split_ifs with h1 h2
    · simp [ih hgs, h1.ne]
    · simp [h2]
    · have hne : ∀ x ∈ gs, x.1 ≠ e.1 := by
        intro x hx
        have := hg x hx
        omega
      simp only [false_iff, List.mem_cons, not_exists, not_and]
      rintro x (rfl | hx)
      · exact h2
      · exact hne x hx

/-! ## The next missing position -/

theorem scan_ge (n : ℤ) (l : List (ℤ × α)) : n ≤ scan n l := by
  induction l generalizing n with
  | nil => exact le_refl n
  | cons g gs ih =>
    simp only [scan]
    split_ifs
    · exact le_refl n
    · have := ih (n+1)
      omega
    · exact ih n

theorem scan_covers (n : ℤ) (l : List (ℤ × α)) (q : ℤ) (h₁ : n ≤ q) (h₂ : q < scan n l) :
    ∃ g ∈ l, g.1 = q := by
  induction l generalizing n with
  | nil => simp only [scan] at h₂; omega
  | cons g gs ih =>
    simp only [scan] at h₂
    split_ifs at h₂ with hlt heq
    · omega
    · by_cases hq : q = g.1
      · exact ⟨g, by simp, hq.symm⟩
      · obtain ⟨x, hx, hxq⟩ := ih (n+1) (by omega) h₂
        exact ⟨x, by simp [hx], hxq⟩
    · obtain ⟨x, hx, hxq⟩ := ih n h₁ h₂
      exact ⟨x, by simp [hx], hxq⟩

theorem scan_missing (n : ℤ) {l : List (ℤ × α)} (hl : Ordered l) :
    ∀ g ∈ l, g.1 ≠ scan n l := by
  induction l generalizing n with
  | nil => simp
  | cons g gs ih =>
    obtain ⟨hg, hgs⟩ := List.pairwise_cons.mp hl
    intro x hx
    simp only [scan]
    split_ifs with hlt heq
    · rcases List.mem_cons.mp hx with rfl | hx
      · omega
      · have := hg x hx
        omega
    · rcases List.mem_cons.mp hx with rfl | hx
      · have := scan_ge (n+1) gs
        omega
      · exact ih (n+1) hgs x hx
    · rcases List.mem_cons.mp hx with rfl | hx
      · have := scan_ge n gs
        omega
      · exact ih n hgs x hx

theorem scan_le {n B : ℤ} {l : List (ℤ × α)} (hn : n ≤ B) (hl : ∀ g ∈ l, g.1 < B) :
    scan n l ≤ B := by
  by_contra hlt
  obtain ⟨g, hg, hgq⟩ := scan_covers n l (scan n l-1) (by omega) (by omega)
  have := hl g hg
  omega

/-! ## Splitting at a position -/

theorem mem_dropWhile_iff (m : ℤ) {l : List (ℤ × α)} (hl : Ordered l) (x : ℤ × α) :
    x ∈ l.dropWhile (fun g => g.1 ≤ m) ↔ x ∈ l ∧ m < x.1 := by
  induction l with
  | nil => simp
  | cons g gs ih =>
    obtain ⟨hg, hgs⟩ := List.pairwise_cons.mp hl
    by_cases h : g.1 ≤ m
    · simp only [List.dropWhile_cons, h, decide_true, if_true, ih hgs, List.mem_cons]
      constructor
      · rintro ⟨hx, hm⟩
        exact ⟨Or.inr hx, hm⟩
      · rintro ⟨rfl | hx, hm⟩
        · omega
        · exact ⟨hx, hm⟩
    · simp only [List.dropWhile_cons, h, decide_false, Bool.false_eq_true, if_false]
      refine ⟨fun hx => ⟨hx, ?_⟩, fun hx => hx.1⟩
      rcases List.mem_cons.mp hx with rfl | hx
      · omega
      · have := hg x hx
        omega

theorem mem_takeWhile_iff (m : ℤ) {l : List (ℤ × α)} (hl : Ordered l) (x : ℤ × α) :
    x ∈ l.takeWhile (fun g => g.1 ≤ m) ↔ x ∈ l ∧ x.1 ≤ m := by
  induction l with
  | nil => simp
  | cons g gs ih =>
    obtain ⟨hg, hgs⟩ := List.pairwise_cons.mp hl
    by_cases h : g.1 ≤ m
    · simp only [List.takeWhile_cons, h, decide_true, if_true, List.mem_cons, ih hgs]
      constructor
      · rintro (rfl | ⟨hx, hm⟩)
        · exact ⟨Or.inl rfl, h⟩
        · exact ⟨Or.inr hx, hm⟩
      · rintro ⟨rfl | hx, hm⟩
        · exact Or.inl rfl
        · exact Or.inr ⟨hx, hm⟩
    · simp only [List.takeWhile_cons, h, decide_false, Bool.false_eq_true, if_false,
        List.not_mem_nil, false_iff, List.mem_cons]
      rintro ⟨rfl | hx, hm⟩
      · omega
      · have := hg x hx
        omega

theorem dropWhile_ordered (m : ℤ) {l : List (ℤ × α)} (hl : Ordered l) :
    Ordered (l.dropWhile (fun g => g.1 ≤ m)) :=
  hl.sublist (List.dropWhile_sublist _)

theorem takeWhile_ordered (m : ℤ) {l : List (ℤ × α)} (hl : Ordered l) :
    Ordered (l.takeWhile (fun g => g.1 ≤ m)) :=
  hl.sublist (List.takeWhile_sublist _)

/-! ## The window invariant -/

structure Windowed (W : ℕ) (b : Buffer α) : Prop where
  ordered : Ordered b.held
  above : ∀ g ∈ b.held, b.next < g.1
  inside : ∀ g ∈ b.held, g.1 < b.next+W

theorem settle_windowed {W : ℕ} {n : ℤ} {l : List (ℤ × α)} (hl : Ordered l)
    (hw : ∀ g ∈ l, g.1 < n+W) : Windowed W (settle n l).1 where
  ordered := dropWhile_ordered _ hl
  above := fun g hg => ((mem_dropWhile_iff _ hl g).mp hg).2
  inside := by
    intro g hg
    have hm := hw g ((mem_dropWhile_iff _ hl g).mp hg).1
    have hn := scan_ge n l
    simp only [settle]
    omega

theorem slide_bounds {W : ℕ} (hW : 0 < W) {n p : ℤ} (h : n ≤ p) :
    n ≤ slide W n p ∧ slide W n p ≤ p+1 ∧ p < slide W n p+W := by
  unfold slide
  split_ifs <;> omega

theorem arrive_windowed {W : ℕ} (hW : 0 < W) {b : Buffer α} (hb : Windowed W b) (e : ℤ × α) :
    Windowed W (arrive W b e).1 := by
  unfold arrive
  by_cases hlate : e.1 < b.next
  · rw [if_pos hlate]
    exact hb
  rw [if_neg hlate]
  have hs := slide_bounds hW (not_lt.mp hlate)
  cases hi : place e b.held with
  | none =>
    -- a duplicate of a packet held is inside the window: nothing moves
    obtain ⟨g, hg, hge⟩ := (place_none_iff hb.ordered).mp hi
    have h1 := hb.above g hg
    have h2 := hb.inside g hg
    have hstay : slide W b.next e.1 = b.next := by
      unfold slide
      split_ifs <;> omega
    simpa only [hstay] using hb
  | some l =>
    apply settle_windowed (place_ordered hb.ordered hi)
    intro g hg
    rcases (mem_place hi g).mp hg with rfl | hg
    · exact hs.2.2
    · have := hb.inside g hg
      omega

theorem expire_windowed {W : ℕ} {b : Buffer α} (hb : Windowed W b) :
    Windowed W (expire b).1 := by
  unfold expire
  cases hh : b.held with
  | nil => exact hb
  | cons g gs =>
    have ho : Ordered (g::gs) := hh ▸ hb.ordered
    apply settle_windowed ho
    intro x hx
    have h1 := hb.above g (by simp [hh])
    have h2 := hb.inside x (by simp [hh, List.mem_cons.mp hx])
    omega

end Lib.ReorderBuffer
