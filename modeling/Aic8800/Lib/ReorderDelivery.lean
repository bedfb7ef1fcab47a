import Aic8800.Lib.ReorderBuffer

/-!
# What a receive buffer hands out

Two results about the packets released. Over any arrivals less than `H` ahead
and any expiries, each position released lies above the one before it, by at
most `H`. When every packet arrives once and at most `W-1` ahead of the first
one missing, the packets released are exactly the contiguous run received.
-/

set_option autoImplicit false

namespace Lib.ReorderBuffer

variable {α : Type*}

/-! ## Delivery order -/

/-- From `L` the positions rise to `L'` in strides of at most `H`. -/
inductive Rises (H : ℕ) : ℤ → List ℤ → ℤ → Prop
  | nil (L : ℤ) : Rises H L [] L
  | cons {L q L' : ℤ} {qs : List ℤ} (above : L < q) (near : q ≤ L+H) (rest : Rises H q qs L') :
      Rises H L (q::qs) L'

theorem Rises.append {H : ℕ} {L M N : ℤ} {ps qs : List ℤ} (hp : Rises H L ps M)
    (hq : Rises H M qs N) : Rises H L (ps++qs) N := by
  induction hp with
  | nil => exact hq
  | cons above near rest ih => exact .cons above near (ih hq)

theorem Rises.chain {H : ℕ} {L M : ℤ} {ps : List ℤ} (h : Rises H L ps M) :
    (L::ps).IsChain (fun a b : ℤ => a < b ∧ b ≤ a+H) := by
  induction h with
  | nil => exact List.isChain_singleton _
  | cons above near rest ih => exact List.IsChain.cons_cons ⟨above, near⟩ ih

/-- `L` is the last position released: the next one follows it directly, or
the first packet held is at most `H` above it. -/
def Trails (H : ℕ) (L : ℤ) (b : Buffer α) : Prop :=
  L < b.next ∧ (b.held = [] → b.next = L+1) ∧ ∀ g ∈ b.held.head?, g.1 ≤ L+H

theorem takeWhile_rises {H : ℕ} (m L : ℤ) {l : List (ℤ × α)} (hl : Ordered l)
    (hL : ∀ g ∈ l, L < g.1) (hhead : ∀ g ∈ l.head?, g.1 ≤ L+H)
    (hspan : ∀ g ∈ l, ∀ h ∈ l, h.1 ≤ g.1+H) :
    ∃ L', Rises H L ((l.takeWhile (fun g => g.1 ≤ m)).map Prod.fst) L' ∧
      (L' = L ∨ L' ≤ m) ∧
      (∀ g ∈ (l.dropWhile (fun g => g.1 ≤ m)).head?, g.1 ≤ L'+H) ∧
      (l.dropWhile (fun g => g.1 ≤ m) = [] → ∀ g ∈ l, g.1 ≤ L') ∧
      ((∃ g ∈ l, g.1 = L') ∨ L' = L) := by
  induction l generalizing L with
  | nil => exact ⟨L, .nil L, Or.inl rfl, by simp, by simp, Or.inr rfl⟩
  | cons g gs ih =>
    obtain ⟨hg, hgs⟩ := List.pairwise_cons.mp hl
    have hgL := hhead g (by simp)
    by_cases h : g.1 ≤ m
    · have hnext : ∀ x ∈ gs.head?, x.1 ≤ g.1+H := fun x hx =>
        hspan g (by simp) x (by simp [List.mem_of_mem_head? hx])
      obtain ⟨L', hr, hm, hd, hall, hmem⟩ := ih g.1 hgs hg hnext
        (fun x hx y hy => hspan x (by simp [hx]) y (by simp [hy]))
      simp only [List.takeWhile_cons, List.dropWhile_cons, h, decide_true, if_true]
      refine ⟨L', .cons (hL g (by simp)) hgL hr, Or.inr ?_, hd, ?_, Or.inl ?_⟩
      · rcases hm with rfl | hm
        · exact h
        · exact hm
      · intro hnil x hx
        rcases List.mem_cons.mp hx with rfl | hx
        · rcases hmem with ⟨y, hy, rfl⟩ | rfl
          · exact (hg y hy).le
          · exact le_refl _
        · exact hall hnil x hx
      · rcases hmem with ⟨y, hy, rfl⟩ | rfl
        · exact ⟨y, by simp [hy], rfl⟩
        · exact ⟨g, by simp, rfl⟩
    · simp only [List.takeWhile_cons, List.dropWhile_cons, h, decide_false, Bool.false_eq_true,
        if_false]
      exact ⟨L, .nil L, Or.inl rfl, by simpa using hgL, by simp, Or.inr rfl⟩

theorem settle_rises {H : ℕ} {n L : ℤ} {l : List (ℤ × α)} (hl : Ordered l)
    (hL : ∀ g ∈ l, L < g.1) (hn : L < n) (hhead : ∀ g ∈ l.head?, g.1 ≤ L+H)
    (hspan : ∀ g ∈ l, ∀ h ∈ l, h.1 ≤ g.1+H) (hnear : ∃ g ∈ l, n ≤ g.1+1) :
    ∃ L', Rises H L ((settle n l).2.map Prod.fst) L' ∧ Trails H L' (settle n l).1 := by
  obtain ⟨L', hr, hm, hd, hall, hmem⟩ := takeWhile_rises (scan n l) L hl hL hhead hspan
  refine ⟨L', hr, ?_, ?_, hd⟩
  · have hge := scan_ge n l
    simp only [settle]
    rcases hmem with ⟨g, hg, rfl⟩ | rfl
    · rcases hm with h | h
      · omega
      · have := scan_missing n hl g hg
        omega
    · omega
  · -- everything was released: the scan stopped right above the last packet
    intro hnil
    have hall := hall hnil
    obtain ⟨g, hg, hng⟩ := hnear
    have hle : scan n l ≤ L'+1 := scan_le (by have := hall g hg; omega)
      (fun x hx => by have := hall x hx; omega)
    have hrel : g ∉ l.dropWhile (fun g => g.1 ≤ scan n l) := by
      simp only [settle] at hnil
      simp [hnil]
    have hgs : g.1 ≤ scan n l := by
      by_contra hlt
      exact hrel ((mem_dropWhile_iff _ hl g).mpr ⟨hg, by omega⟩)
    have hgs' := scan_missing n hl g hg
    have hLs : L' < scan n l := by
      rcases hmem with ⟨x, hx, rfl⟩ | rfl
      · rcases hm with h | h
        · have := hL x hx; omega
        · have := scan_missing n hl x hx; omega
      · have := hL g hg
        omega
    simp only [settle]
    omega

theorem arrive_rises {W H : ℕ} (hW : 0 < W) (hWH : W ≤ H) {b : Buffer α} (hb : Windowed W b)
    {L : ℤ} (ht : Trails H L b) {e : ℤ × α} (he : e.1 < b.next+H) :
    ∃ L', Rises H L ((arrive W b e).2.map Prod.fst) L' ∧ Trails H L' (arrive W b e).1 := by
  obtain ⟨hLn, hempty, hhead⟩ := ht
  unfold arrive
  by_cases hlate : e.1 < b.next
  · rw [if_pos hlate]
    exact ⟨L, .nil L, hLn, hempty, hhead⟩
  rw [if_neg hlate]
  have hs := slide_bounds hW (not_lt.mp hlate)
  cases hi : place e b.held with
  | none =>
    obtain ⟨g, hg, hge⟩ := (place_none_iff hb.ordered).mp hi
    exact ⟨L, .nil L, lt_of_lt_of_le hLn hs.1,
      fun h => absurd hg (by rw [show b.held = [] from h]; exact List.not_mem_nil), hhead⟩
  | some l =>
    have hmem := mem_place hi
    apply settle_rises (place_ordered hb.ordered hi)
    · intro g hg
      rcases (hmem g).mp hg with rfl | hg
      · omega
      · have := hb.above g hg
        omega
    · omega
    · -- the first packet of the new list is not above the first one before
      intro g hg
      have hgl := List.mem_of_mem_head? hg
      have hle : ∀ x ∈ l, g.1 ≤ x.1 := by
        intro x hx
        cases l with
        | nil => simp at hx
        | cons y ys =>
          obtain rfl : y = g := by simpa using hg
          rcases List.mem_cons.mp hx with rfl | hx
          · exact le_refl _
          · exact ((List.pairwise_cons.mp (place_ordered hb.ordered hi)).1 x hx).le
      cases hh : b.held with
      | nil =>
        have hn := hempty hh
        have := hle e ((hmem e).mpr (Or.inl rfl))
        omega
      | cons y ys =>
        have hy := hhead y (by simp [hh])
        have := hle y ((hmem y).mpr (Or.inr (by simp [hh])))
        omega
    · intro g hg x hx
      have hlow : ∀ y ∈ l, b.next ≤ y.1 ∧ y.1 < b.next+H := by
        intro y hy
        rcases (hmem y).mp hy with rfl | hy
        · omega
        · have h1 := hb.above y hy
          have h2 := hb.inside y hy
          omega
      have := hlow g hg
      have := hlow x hx
      omega
    · exact ⟨e, (hmem e).mpr (Or.inl rfl), hs.2.1⟩

theorem expire_rises {W H : ℕ} (hWH : W ≤ H) {b : Buffer α} (hb : Windowed W b) {L : ℤ}
    (ht : Trails H L b) :
    ∃ L', Rises H L ((expire b).2.map Prod.fst) L' ∧ Trails H L' (expire b).1 := by
  unfold expire
  cases hh : b.held with
  | nil => exact ⟨L, .nil L, ht⟩
  | cons g gs =>
    have ho : Ordered (g::gs) := hh ▸ hb.ordered
    have hin : ∀ x ∈ g::gs, b.next < x.1 ∧ x.1 < b.next+W := fun x hx =>
      ⟨hb.above x (hh ▸ hx), hb.inside x (hh ▸ hx)⟩
    have hLn := ht.1
    apply settle_rises ho
    · intro x hx
      have := hin x hx
      omega
    · have := hin g (by simp)
      omega
    · intro x hx
      exact ht.2.2 x (by rw [hh]; exact hx)
    · intro x hx y hy
      have := hin x hx
      have := hin y hy
      omega
    · exact ⟨g, by simp, by omega⟩

/-! ## Delivery without loss -/

section
variable (f : ℤ → α)

/-- The entries at positions `a`, `a+1`, ..., `a+k-1`. -/
def stretch (a : ℤ) : ℕ → List (ℤ × α)
  | 0 => []
  | k+1 => (a, f a)::stretch (a+1) k

theorem stretch_append (a : ℤ) (j k : ℕ) :
    stretch f a (j+k) = stretch f a j++stretch f (a+j) k := by
  induction j generalizing a with
  | zero => simp [stretch]
  | succ j ih =>
    rw [Nat.succ_add_eq_add_succ, Nat.add_succ, stretch, ih]
    simp only [stretch, List.cons_append, Nat.cast_succ]
    ring_nf

theorem stretch_length (a : ℤ) (k : ℕ) : (stretch f a k).length = k := by
  induction k generalizing a with
  | zero => rfl
  | succ k ih => simp [stretch, ih]

theorem stretch_values (a : ℤ) (k : ℕ) :
    (stretch f a k).map Prod.snd = (List.range k).map (fun i : ℕ => f (a+i)) := by
  induction k with
  | zero => rfl
  | succ k ih => rw [stretch_append, List.map_append, ih, List.range_succ, List.map_append]; rfl

/-- An ordered list that fills an interval is the stretch over it. -/
theorem eq_stretch {l : List (ℤ × α)} (hl : Ordered l) (a : ℤ) (k : ℕ)
    (hin : ∀ g ∈ l, a ≤ g.1 ∧ g.1 < a+k ∧ g.2 = f g.1)
    (hfull : ∀ q, a ≤ q → q < a+k → ∃ g ∈ l, g.1 = q) : l = stretch f a k := by
  induction k generalizing a l with
  | zero =>
    cases l with
    | nil => rfl
    | cons g gs =>
      have := hin g (by simp)
      omega
  | succ k ih =>
    obtain ⟨x, hx, hxa⟩ := hfull a (le_refl a) (by omega)
    cases l with
    | nil => simp at hx
    | cons g gs =>
      obtain ⟨hg, hgs⟩ := List.pairwise_cons.mp hl
      have hga : g.1 = a := by
        have h1 := (hin g (by simp)).1
        rcases List.mem_cons.mp hx with rfl | hx
        · exact hxa
        · have := hg x hx
          omega
      have hge : g = (a, f a) := Prod.ext hga (by rw [(hin g (by simp)).2.2, hga])
      rw [stretch, hge]
      congr 1
      apply ih hgs
      · intro y hy
        have h1 := hg y hy
        have h2 := hin y (by simp [hy])
        exact ⟨by omega, by push_cast at h2; omega, h2.2.2⟩
      · intro q h1 h2
        obtain ⟨y, hy, hyq⟩ := hfull q (by omega) (by push_cast; omega)
        rcases List.mem_cons.mp hy with rfl | hy
        · omega
        · exact ⟨y, hy, hyq⟩

/-- The positions in `A` arrived, from `base` on: those below `next` were
released in order, the others are held, and `next` is the first one missing. -/
structure Gathered (base : ℤ) (A : List ℤ) (b : Buffer α) (out : List (ℤ × α)) : Prop where
  base_le : base ≤ b.next
  low : ∀ q, base ≤ q → q < b.next → q ∈ A
  missing : b.next ∉ A
  ordered : Ordered b.held
  held_iff : ∀ g, g ∈ b.held ↔ g.1 ∈ A ∧ b.next < g.1 ∧ g.2 = f g.1
  out_eq : out = stretch f base (b.next-base).toNat

theorem gathered_start (base : ℤ) : Gathered f base [] ⟨base, []⟩ [] where
  base_le := le_refl base
  low := fun q h1 h2 => absurd h2 (not_lt.mpr h1)
  missing := by simp
  ordered := List.Pairwise.nil
  held_iff := by simp
  out_eq := by simp [stretch]

/-- A position that has not arrived is still ahead, and free. -/
theorem Gathered.turn {base : ℤ} {A : List ℤ} {b : Buffer α} {out : List (ℤ × α)}
    (h : Gathered f base A b out) {p : ℤ} (hp : p ∉ A) (hbase : base ≤ p) :
    b.next ≤ p ∧ ∃ l, place (p, f p) b.held = some l := by
  constructor
  · by_contra hlt
    exact hp (h.low p hbase (by omega))
  · rw [← Option.ne_none_iff_exists', ne_eq, place_none_iff h.ordered]
    rintro ⟨g, hg, rfl⟩
    exact hp ((h.held_iff g).mp hg).1

/-- At most `W-1` of the positions that arrived have not been released. -/
theorem Gathered.length_le {W : ℕ} {base : ℤ} {A : List ℤ} {b : Buffer α} {out : List (ℤ × α)}
    (h : Gathered f base A b out) (hb : Windowed W b) (hA : A.Nodup) (hbase : ∀ q ∈ A, base ≤ q) :
    A.length ≤ out.length+(W-1) := by
  have hsub : A.toFinset ⊆ Finset.Ico base b.next ∪ Finset.Ioo b.next (b.next+W) := by
    intro q hq
    have hq : q ∈ A := List.mem_toFinset.mp hq
    have hne : q ≠ b.next := fun he => h.missing (he ▸ hq)
    rw [Finset.mem_union, Finset.mem_Ico, Finset.mem_Ioo]
    by_cases hlt : q < b.next
    · exact Or.inl ⟨hbase q hq, hlt⟩
    · have hup : b.next < q := by omega
      exact Or.inr ⟨hup, hb.inside (q, f q) ((h.held_iff _).mpr ⟨hq, hup, rfl⟩)⟩
  have hcard := (Finset.card_le_card hsub).trans (Finset.card_union_le _ _)
  rw [List.toFinset_card_of_nodup hA, Int.card_Ico, Int.card_Ioo] at hcard
  rw [h.out_eq, stretch_length]
  omega

theorem arrive_gathered {W : ℕ} {base : ℤ} {A : List ℤ} {b : Buffer α} {out : List (ℤ × α)}
    (h : Gathered f base A b out) {p : ℤ} (hp : p ∉ A) (hbase : base ≤ p)
    (hnear : ∀ q, base ≤ q → q+W ≤ p → q ∈ A) :
    Gathered f base (A++[p]) (arrive W b (p, f p)).1 (out++(arrive W b (p, f p)).2) := by
  obtain ⟨hle, l, hl⟩ := h.turn f hp hbase
  have hin : p < b.next+W := by
    by_contra hlt
    exact h.missing (hnear b.next h.base_le (by omega))
  have ho := place_ordered h.ordered hl
  have hmem : ∀ g, g ∈ l ↔ g.1 ∈ A++[p] ∧ b.next ≤ g.1 ∧ g.2 = f g.1 := by
    intro g
    rw [mem_place hl, h.held_iff, List.mem_append, List.mem_singleton]
    constructor
    · rintro (rfl | ⟨h1, h2, h3⟩)
      · exact ⟨Or.inr rfl, hle, rfl⟩
      · exact ⟨Or.inl h1, h2.le, h3⟩
    · rintro ⟨h1 | h1, h2, h3⟩
      · right
        refine ⟨h1, lt_of_le_of_ne h2 ?_, h3⟩
        rintro heq
        exact h.missing (heq ▸ h1)
      · exact Or.inl (Prod.ext h1 (by rw [h3, h1]))
  set n := slide W b.next p with hn
  have hslide : n = if p = b.next then b.next+1 else b.next := by
    rw [hn, slide, if_neg (show ¬ b.next+W ≤ p by omega)]
  have hnn : b.next ≤ n ∧ n ≤ b.next+1 := by split_ifs at hslide <;> omega
  have hstep : arrive W b (p, f p) = settle n l := by
    simp only [arrive, if_neg (not_lt.mpr hle), hl, hn]
  have hge := scan_ge n l
  have hcov : ∀ q, b.next ≤ q → q < scan n l → ∃ g ∈ l, g.1 = q := by
    intro q h1 h2
    by_cases hq : n ≤ q
    · exact scan_covers n l q hq h2
    · have hpn : p = b.next := by
        by_contra hne
        rw [if_neg hne] at hslide
        omega
      exact ⟨(p, f p), (mem_place hl _).mpr (Or.inl rfl), by simp only; omega⟩
  rw [hstep]
  refine ⟨?_, ?_, ?_, dropWhile_ordered _ ho, ?_, ?_⟩
  · exact h.base_le.trans (hnn.1.trans hge)
  · intro q h1 h2
    by_cases hq : q < b.next
    · simp [h.low q h1 hq]
    · obtain ⟨g, hg, rfl⟩ := hcov q (by omega) h2
      exact ((hmem g).mp hg).1
  · intro hmiss
    have hs : (scan n l, f (scan n l)) ∈ l :=
      (hmem _).mpr ⟨hmiss, by simp only; omega, rfl⟩
    exact scan_missing n ho _ hs rfl
  · intro g
    simp only [settle, mem_dropWhile_iff _ ho, hmem]
    constructor
    · rintro ⟨⟨h1, h2, h3⟩, h4⟩
      exact ⟨h1, h4, h3⟩
    · rintro ⟨h1, h2, h3⟩
      exact ⟨⟨h1, by omega, h3⟩, h2⟩
  · have hrel : (settle n l).2 = stretch f b.next (scan n l-b.next).toNat := by
      apply eq_stretch f (takeWhile_ordered _ ho)
      · intro g hg
        obtain ⟨hgl, hgs⟩ := (mem_takeWhile_iff _ ho g).mp hg
        have hne := scan_missing n ho g hgl
        obtain ⟨-, h2, h3⟩ := (hmem g).mp hgl
        exact ⟨h2, by omega, h3⟩
      · intro q h1 h2
        obtain ⟨g, hg, rfl⟩ := hcov q h1 (by omega)
        exact ⟨g, (mem_takeWhile_iff _ ho g).mpr ⟨hg, by omega⟩, rfl⟩
    have hbl := h.base_le
    have hsplit : (scan n l-base).toNat = (b.next-base).toNat+(scan n l-b.next).toNat := by
      omega
    have hat : base+((b.next-base).toNat : ℤ) = b.next := by omega
    rw [hrel, h.out_eq]
    show _ = stretch f base (scan n l-base).toNat
    rw [hsplit, stretch_append, hat]

end

end Lib.ReorderBuffer
