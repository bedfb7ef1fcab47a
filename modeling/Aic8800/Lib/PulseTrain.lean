import Mathlib.Algebra.Order.Ring.Nat
import Mathlib.Data.List.Chain
import Mathlib.Data.Nat.Basic

/-!
# Trains of pulses

Times, the newest first, of which successive ones lie a positive multiple of a period
apart, up to a tolerance. Each time of a train has a slot of its own.
-/

set_option autoImplicit false

namespace Lib.PulseTrain

/-- `d` is a positive multiple of `p` up to `tol`. -/
def NearMultiple (p tol d : ℕ) : Prop := ∃ m, 0 < m ∧ d ≤ m*p+tol ∧ m*p ≤ d+tol

def Train (p tol : ℕ) (ts : List ℕ) : Prop :=
  ts.IsChain fun a b => b < a ∧ NearMultiple p tol (a-b)

/-- Times with slots, by which successive ones differ in time. -/
structure Slotted (p tol : ℕ) (marks : List (ℕ × ℕ)) : Prop where
  apart : marks.IsChain fun x y =>
    x.1-y.1 ≤ (x.2-y.2)*p+tol ∧ (x.2-y.2)*p ≤ x.1-y.1+tol
  distinct : (marks.map Prod.snd).Pairwise (· > ·)

variable {p tol : ℕ}

theorem NearMultiple.mono {e d : ℕ} (h : NearMultiple p tol d) (hle : tol ≤ e) :
    NearMultiple p e d := by
  obtain ⟨m, hm, hlow, hhigh⟩ := h
  exact ⟨m, hm, by omega, by omega⟩

theorem NearMultiple.self (p tol : ℕ) : NearMultiple p tol p :=
  ⟨1, Nat.one_pos, by omega, by omega⟩

/-- Two times that are matched back from `t` are matched to each other, if they are not
closer than a period less the tolerance. -/
theorem NearMultiple.difference {t a b : ℕ} (ha : NearMultiple p tol (t-a))
    (hb : NearMultiple p tol (t-b)) (hat : a ≤ t) (hab : b < a) (hspaced : p ≤ a-b+2*tol) :
    NearMultiple p (2*tol) (a-b) := by
  obtain ⟨m, -, hmlow, hmhigh⟩ := ha
  obtain ⟨n, -, hnlow, hnhigh⟩ := hb
  rcases Nat.lt_or_ge m n with hlt | hle
  · have hsub : (n-m)*p = n*p-m*p := Nat.sub_mul n m p
    have hmul : m*p ≤ n*p := Nat.mul_le_mul_right p hlt.le
    exact ⟨n-m, Nat.sub_pos_of_lt hlt, by omega, by omega⟩
  · have hmul : n*p ≤ m*p := Nat.mul_le_mul_right p hle
    exact ⟨1, Nat.one_pos, by omega, by omega⟩

theorem Train.decreasing {ts : List ℕ} (h : Train p tol ts) : ts.Pairwise (· > ·) :=
  List.isChain_iff_pairwise.mp (h.imp fun _ _ hstep => hstep.1)

theorem Train.between {a b t : ℕ} {ts : List ℕ} (h : Train p tol ts) (ha : ts.head? = some a)
    (hb : ts.getLast? = some b) (ht : t ∈ ts) : b ≤ t ∧ t ≤ a := by
  constructor
  · obtain ⟨front, rfl⟩ := List.getLast?_eq_some_iff.mp hb
    rcases List.mem_append.mp ht with hfront | hlast
    · exact ((List.pairwise_append.mp h.decreasing).2.2 t hfront b List.mem_cons_self).le
    · exact (List.mem_singleton.mp hlast).ge
  · obtain ⟨rest, rfl⟩ := List.head?_eq_some_iff.mp ha
    rcases List.mem_cons.mp ht with rfl | hrest
    · exact le_rfl
    · exact (List.rel_of_pairwise_cons h.decreasing hrest).le

/-- A newer time joins a train at its head. -/
theorem Train.extend {t a : ℕ} {ts : List ℕ} (h : Train p tol ts) (ha : ts.head? = some a)
    (hlt : a < t) (hnear : NearMultiple p tol (t-a)) : Train p tol (t::ts) := by
  obtain ⟨rest, rfl⟩ := List.head?_eq_some_iff.mp ha
  exact List.isChain_cons_cons.mpr ⟨⟨hlt, hnear⟩, h⟩

/-- Times that are all matched back from `t` and not too close. -/
theorem Train.of_matched {t : ℕ} {ts : List ℕ} (hsorted : ts.Pairwise (· > ·))
    (hle : ∀ a ∈ ts, a ≤ t) (hnear : ∀ a ∈ ts, NearMultiple p tol (t-a))
    (hspaced : ∀ a ∈ ts, ∀ b ∈ ts, b < a → p ≤ a-b+2*tol) : Train p (2*tol) ts := by
  refine (List.Pairwise.imp_of_mem ?_ hsorted).isChain
  intro a b ha hb hab
  exact ⟨hab, (hnear a ha).difference (hnear b hb) (hle a ha) hab (hspaced a ha b hb hab)⟩

/-- Slots count the periods from the oldest time on. -/
theorem Train.slots {ts : List ℕ} (h : Train p tol ts) :
    ∃ marks : List (ℕ × ℕ), marks.map Prod.fst = ts ∧ Slotted p tol marks := by
  suffices hchain : ∃ marks : List (ℕ × ℕ), marks.map Prod.fst = ts ∧
      marks.IsChain fun x y => y.2 < x.2 ∧
        x.1-y.1 ≤ (x.2-y.2)*p+tol ∧ (x.2-y.2)*p ≤ x.1-y.1+tol by
    obtain ⟨marks, hmap, hmarks⟩ := hchain
    refine ⟨marks, hmap, hmarks.imp fun _ _ hstep => hstep.2, ?_⟩
    exact List.isChain_iff_pairwise.mp
      ((List.isChain_map Prod.snd).mpr (hmarks.imp fun _ _ hstep => hstep.1))
  induction ts with
  | nil => exact ⟨[], rfl, List.isChain_nil⟩
  | cons a ts ih =>
    cases ts with
    | nil => exact ⟨[(a, 0)], rfl, List.isChain_singleton _⟩
    | cons b ts =>
      obtain ⟨⟨-, m, hm, hlow, hhigh⟩, hrest⟩ := List.isChain_cons_cons.mp h
      obtain ⟨marks, hmap, hmarks⟩ := ih hrest
      cases marks with
      | nil => exact nomatch hmap
      | cons mark tail =>
        obtain ⟨rfl, htail⟩ := List.cons.inj hmap
        have hslot : mark.2+m-mark.2 = m := Nat.add_sub_cancel_left mark.2 m
        refine ⟨(a, mark.2+m)::mark::tail, congrArg (a::mark.1::·) htail,
          List.isChain_cons_cons.mpr ⟨⟨Nat.lt_add_of_pos_right hm, ?_, ?_⟩, hmarks⟩⟩
        · rw [hslot]
          exact hlow
        · rw [hslot]
          exact hhigh

end Lib.PulseTrain
