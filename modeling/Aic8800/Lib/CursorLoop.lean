import Mathlib.Data.List.Basic
import Mathlib.Data.List.Nodup
import Mathlib.Tactic.Ring

/-!
# A loop over a list that its body changes

The entry behind the current one is looked up before the body runs, so that the
body may take the current entry out. It may also put the others in another
order, and then an entry is met again: `cost` is what makes the loop end.
-/

set_option autoImplicit false

namespace Lib.CursorLoop

variable {σ κ : Type*} [DecidableEq κ]

/-- The entry behind `k`. -/
def after (k : κ) : List κ → Option κ
  | [] => none
  | x::xs => if x = k then xs.head? else after k xs

def loop (entries : σ → List κ) (body : σ → κ → Option σ) : ℕ → σ → Option κ → Option σ
  | _, s, none => some s
  | 0, _, some _ => none
  | fuel+1, s, some k => (body s k).bind fun t => loop entries body fuel t (after k (entries s))

theorem mem_of_after {k x : κ} {l : List κ} (h : after k l = some x) : x ∈ l := by
  induction l with
  | nil => cases h
  | cons y ys ih =>
    unfold after at h
    split at h
    · exact List.mem_cons_of_mem _ (List.mem_of_mem_head? h)
    · exact List.mem_cons_of_mem _ (ih h)

theorem ne_of_after {k x : κ} {l : List κ} (hl : l.Nodup) (h : after k l = some x) : x ≠ k := by
  induction l with
  | nil => cases h
  | cons y ys ih =>
    unfold after at h
    split at h
    · rename_i hy
      rintro rfl
      exact (List.nodup_cons.mp hl).1 (hy ▸ List.mem_of_mem_head? h)
    · exact ih (List.nodup_cons.mp hl).2 h

theorem idxOf_after {k x : κ} {l : List κ} (hl : l.Nodup) (h : after k l = some x) :
    l.idxOf x = l.idxOf k+1 := by
  induction l with
  | nil => cases h
  | cons y ys ih =>
    have hne := ne_of_after hl h
    unfold after at h
    split at h
    · rename_i hy
      subst hy
      have hx : ys.idxOf x = 0 := by
        cases ys with
        | nil => cases h
        | cons z zs =>
          obtain rfl := Option.some.inj h
          exact List.idxOf_cons_self
      rw [List.idxOf_cons_ne _ hne.symm, List.idxOf_cons_self, hx]
    · rename_i hy
      have hxy : y ≠ x := by
        rintro rfl
        exact (List.nodup_cons.mp hl).1 (mem_of_after h)
      rw [List.idxOf_cons_ne _ hxy, List.idxOf_cons_ne _ hy, ih (List.nodup_cons.mp hl).2 h]

/-- What a turn may do: it works off some of the weight and keeps the other entries in some
order, or it changes nothing. -/
structure Shrinks (entries : σ → List κ) (weight : σ → ℕ) (s : σ) (k : κ) (t : σ) : Prop where
  others : ∀ x ∈ entries s, x ≠ k → x ∈ entries t
  shorter : (entries t).length ≤ (entries s).length
  works : weight t < weight s ∨ weight t = weight s ∧ entries t = entries s

/-- How many turns are left at most from the entry on. -/
def cost (entries : σ → List κ) (weight : σ → ℕ) (s : σ) : Option κ → ℕ
  | none => 0
  | some k => weight s*((entries s).length+1)+((entries s).length-(entries s).idxOf k)

variable {entries : σ → List κ} {weight : σ → ℕ} {body : σ → κ → Option σ}

theorem cost_after {s t : σ} {k : κ} (hl : (entries s).Nodup) (hk : k ∈ entries s)
    (h : Shrinks entries weight s k t) :
    cost entries weight t (after k (entries s)) < cost entries weight s (some k) := by
  have hpos : (entries s).idxOf k < (entries s).length := List.idxOf_lt_length_of_mem hk
  cases hnext : after k (entries s) with
  | none =>
    simp only [cost]
    omega
  | some x =>
    have hidx := idxOf_after hl hnext
    simp only [cost]
    rcases h.works with hw | ⟨hw, he⟩
    · have hmul : (weight t+1)*((entries s).length+1) ≤ weight s*((entries s).length+1) :=
        Nat.mul_le_mul_right _ hw
      have hmono : weight t*((entries t).length+1) ≤ weight t*((entries s).length+1) :=
        Nat.mul_le_mul_left _ (Nat.add_le_add_right h.shorter 1)
      have hshort := h.shorter
      rw [Nat.add_mul] at hmul
      omega
    · rw [hw, he, hidx]
      omega

/-- The cursor stays on an entry. -/
theorem mem_after {s t : σ} {k x : κ} (hl : (entries s).Nodup)
    (h : Shrinks entries weight s k t) (hx : after k (entries s) = some x) : x ∈ entries t :=
  h.others x (mem_of_after hx) (ne_of_after hl hx)

/-- What every turn preserves holds behind the loop. -/
theorem loop_invariant {I : σ → Prop} (nodup : ∀ s, (entries s).Nodup)
    (shrinks : ∀ s k t, k ∈ entries s → body s k = some t → Shrinks entries weight s k t)
    (next : ∀ s k t, k ∈ entries s → body s k = some t → I s → I t) {fuel : ℕ} {s t : σ}
    {pos : Option κ} (hpos : ∀ k, pos = some k → k ∈ entries s) (hs : I s)
    (h : loop entries body fuel s pos = some t) : I t := by
  induction fuel generalizing s pos with
  | zero =>
    cases pos with
    | none => exact Option.some.inj h ▸ hs
    | some k => cases h
  | succ fuel ih =>
    cases pos with
    | none => exact Option.some.inj h ▸ hs
    | some k =>
      obtain ⟨u, hu, hrest⟩ := Option.bind_eq_some_iff.mp h
      have hk := hpos k rfl
      exact ih (fun x hx => mem_after (nodup s) (shrinks s k u hk hu) hx) (next s k u hk hu hs) hrest

/-- A body that never fails brings the loop to its end. -/
theorem loop_progress {I : σ → Prop} (nodup : ∀ s, (entries s).Nodup)
    (shrinks : ∀ s k t, k ∈ entries s → body s k = some t → Shrinks entries weight s k t)
    (next : ∀ s k, k ∈ entries s → I s → ∃ t, body s k = some t ∧ I t) {fuel : ℕ} {s : σ}
    {pos : Option κ} (hpos : ∀ k, pos = some k → k ∈ entries s) (hs : I s)
    (hfuel : cost entries weight s pos ≤ fuel) :
    ∃ t, loop entries body fuel s pos = some t ∧ I t := by
  induction fuel generalizing s pos with
  | zero =>
    cases pos with
    | none => exact ⟨s, rfl, hs⟩
    | some k =>
      have hlt : (entries s).idxOf k < (entries s).length :=
        List.idxOf_lt_length_of_mem (hpos k rfl)
      simp only [cost] at hfuel
      omega
  | succ fuel ih =>
    cases pos with
    | none => exact ⟨s, rfl, hs⟩
    | some k =>
      have hk := hpos k rfl
      obtain ⟨t, ht, hi⟩ := next s k hk hs
      have hsh := shrinks s k t hk ht
      have hless := cost_after (nodup s) hk hsh
      obtain ⟨u, hu, hiu⟩ :=
        ih (fun x hx => mem_after (nodup s) hsh hx) hi (Nat.le_of_lt_succ (hless.trans_le hfuel))
      exact ⟨u, Option.bind_eq_some_iff.mpr ⟨t, ht, hu⟩, hiu⟩

/-- More fuel than the cost changes nothing. -/
theorem loop_fuel (nodup : ∀ s, (entries s).Nodup)
    (shrinks : ∀ s k t, k ∈ entries s → body s k = some t → Shrinks entries weight s k t)
    {fuel more : ℕ} {s : σ} {pos : Option κ} (hpos : ∀ k, pos = some k → k ∈ entries s)
    (hfuel : cost entries weight s pos ≤ fuel) (hmore : fuel ≤ more) :
    loop entries body more s pos = loop entries body fuel s pos := by
  induction fuel generalizing s pos more with
  | zero =>
    cases pos with
    | none => cases more <;> rfl
    | some k =>
      have hlt : (entries s).idxOf k < (entries s).length :=
        List.idxOf_lt_length_of_mem (hpos k rfl)
      simp only [cost] at hfuel
      omega
  | succ fuel ih =>
    obtain ⟨m, rfl⟩ : ∃ m, more = m+1 := ⟨more-1, by omega⟩
    cases pos with
    | none => rfl
    | some k =>
      have hk := hpos k rfl
      cases hb : body s k with
      | none => simp [loop, hb]
      | some t =>
        have hsh := shrinks s k t hk hb
        have hless := cost_after (nodup s) hk hsh
        simp only [loop, hb, Option.bind_some]
        exact ih (fun x hx => mem_after (nodup s) hsh hx)
          (Nat.le_of_lt_succ (hless.trans_le hfuel)) (Nat.le_of_succ_le_succ hmore)

end Lib.CursorLoop
