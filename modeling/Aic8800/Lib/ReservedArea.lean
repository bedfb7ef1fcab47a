import Mathlib.Data.List.Basic
import Mathlib.Data.Nat.Basic
import Mathlib.Order.Basic

/-!
# An area that is reserved and filled

A buffer that grows at its end by cells in which nothing stands yet. They are filled
afterwards, each where it lies. Growing past the room is an error, and so is writing
past what is reserved.
-/

set_option autoImplicit false

namespace Lib.ReservedArea

/-- `none` is a cell that was reserved and never written. -/
structure Area (α : Type*) where
  cells : List (Option α)
  room : ℕ
  fits : cells.length ≤ room

variable {α : Type*}

def Area.len (a : Area α) : ℕ := a.cells.length

def Area.tailroom (a : Area α) : ℕ := a.room-a.len

def empty (room : ℕ) : Area α := ⟨[], room, Nat.zero_le room⟩

def append (cs : List (Option α)) (a : Area α) : Option (Area α) :=
  if h : (a.cells++cs).length ≤ a.room then some ⟨a.cells++cs, a.room, h⟩ else none

def put (n : ℕ) (a : Area α) : Option (Area α) := append (List.replicate n none) a

def overwrite (pos : ℕ) (vs : List α) (cs : List (Option α)) : List (Option α) :=
  cs.take pos++vs.map some++cs.drop (pos+vs.length)

theorem overwrite_length {pos : ℕ} {vs : List α} {cs : List (Option α)}
    (h : pos+vs.length ≤ cs.length) : (overwrite pos vs cs).length = cs.length := by
  simp only [overwrite, List.length_append, List.length_take, List.length_map, List.length_drop]
  omega

def poke (pos : ℕ) (vs : List α) (a : Area α) : Option (Area α) :=
  if h : pos+vs.length ≤ a.cells.length then
    some ⟨overwrite pos vs a.cells, a.room, (overwrite_length h).trans_le a.fits⟩
  else none

/-- Reserves `n` cells and writes from the first of them on. -/
def fill (n : ℕ) (vs : List α) (a : Area α) : Option (Area α) :=
  (put n a).bind (poke a.len vs)

variable {a b : Area α} {as bs cs : List (Option α)} {vs : List α} {n k : ℕ}

theorem append_some (h : append cs a = some b) : b.cells = a.cells++cs := by
  unfold append at h
  split_ifs at h
  rw [← Option.some.inj h]

theorem append_room (h : append cs a = some b) : b.room = a.room := by
  unfold append at h
  split_ifs at h
  rw [← Option.some.inj h]

theorem append_of_room (h : a.len+cs.length ≤ a.room) : (append cs a).isSome := by
  have hfits : (a.cells++cs).length ≤ a.room := by rw [List.length_append]; exact h
  rw [append, dif_pos hfits]
  rfl

@[simp] theorem append_nil (a : Area α) : append [] a = some a := by
  have hfits : (a.cells++[]).length ≤ a.room := by rw [List.append_nil]; exact a.fits
  rw [append, dif_pos hfits]
  simp only [List.append_nil]

theorem append_append (as bs : List (Option α)) (a : Area α) :
    (append as a).bind (append bs) = append (as++bs) a := by
  by_cases has : (a.cells++as).length ≤ a.room
  · rw [append, dif_pos has, Option.bind_some]
    simp only [append, List.append_assoc]
  · have hall : ¬ (a.cells++(as++bs)).length ≤ a.room := by
      simp only [List.length_append] at has ⊢
      omega
    rw [append, dif_neg has, append, dif_neg hall]
    rfl

/-- Writing into what was appended last. -/
theorem append_poke (h : k+vs.length ≤ cs.length) :
    (append cs a).bind (poke (a.len+k) vs) = append (overwrite k vs cs) a := by
  have hlen := overwrite_length h
  by_cases hcs : (a.cells++cs).length ≤ a.room
  · have hover : (a.cells++overwrite k vs cs).length ≤ a.room := by
      rw [List.length_append, hlen, ← List.length_append]
      exact hcs
    have hin : a.len+k+vs.length ≤ (a.cells++cs).length := by
      rw [List.length_append, Area.len]
      omega
    have htake : a.len+k-a.cells.length = k := by rw [Area.len]; omega
    have hdrop : a.len+k+vs.length-a.cells.length = k+vs.length := by rw [Area.len]; omega
    have hcells : overwrite (a.len+k) vs (a.cells++cs) = a.cells++overwrite k vs cs := by
      rw [overwrite, List.take_append, List.drop_append, htake, hdrop,
        List.take_of_length_le (by rw [Area.len]; omega),
        List.drop_of_length_le (by rw [Area.len]; omega)]
      simp only [overwrite, List.nil_append, List.append_assoc]
    rw [append, dif_pos hcs, Option.bind_some, poke, dif_pos hin, append, dif_pos hover]
    simp only [hcells]
  · have hover : ¬ (a.cells++overwrite k vs cs).length ≤ a.room := by
      rw [List.length_append, hlen, ← List.length_append]
      exact hcs
    rw [append, dif_neg hcs, append, dif_neg hover]
    rfl

/-- What is not written of the reserved cells stays without a value. -/
theorem fill_eq (h : vs.length ≤ n) (a : Area α) :
    fill n vs a = append (vs.map some++List.replicate (n-vs.length) none) a := by
  have hin : 0+vs.length ≤ (List.replicate n (none : Option α)).length := by
    rw [List.length_replicate]
    omega
  have hpoke := append_poke (a := a) hin
  rw [Nat.add_zero] at hpoke
  rw [fill, put, hpoke, overwrite, List.take_zero, List.nil_append, List.drop_replicate,
    Nat.zero_add]

theorem fill_all (vs : List α) (a : Area α) : fill vs.length vs a = append (vs.map some) a := by
  rw [fill_eq le_rfl, Nat.sub_self, List.replicate_zero, List.append_nil]

theorem fill_short (h : n < vs.length) (a : Area α) : fill n vs a = none := by
  unfold fill
  cases hput : put n a with
  | none => rfl
  | some b =>
    have hlen := congrArg List.length (append_some hput)
    rw [List.length_append, List.length_replicate] at hlen
    exact dif_neg (by rw [Area.len]; omega)

theorem fill_len (h : fill n vs a = some b) : a.len+vs.length ≤ b.len := by
  have hle : vs.length ≤ n := Nat.le_of_not_lt fun hlt =>
    Option.some_ne_none b (h.symm.trans (fill_short hlt a))
  rw [fill_eq hle] at h
  have hlen := congrArg List.length (append_some h)
  simp only [List.length_append, List.length_map, List.length_replicate] at hlen
  rw [Area.len, Area.len, hlen]
  omega

/-- The cells that an operation adds. -/
def Adds (f : Area α → Option (Area α)) (cs : List (Option α)) : Prop := ∀ a, f a = append cs a

theorem Adds.bind {f g : Area α → Option (Area α)} (hf : Adds f as) (hg : Adds g bs) :
    Adds (fun a => f a >>= g) (as++bs) := by
  intro a
  have hgeq : g = append bs := funext hg
  show (f a).bind g = _
  rw [hf, hgeq, append_append]

theorem Adds.ite {c : Prop} [Decidable c] {f : Area α → Option (Area α)} (hf : Adds f cs) :
    Adds (fun a => if c then f a else pure a) (if c then cs else []) := by
  intro a
  dsimp only
  split_ifs
  · exact hf a
  · exact (append_nil a).symm

theorem fill_adds (h : vs.length = n) : Adds (fill n vs) (vs.map some) := by
  subst h
  exact fill_all vs

/-- If there is a result, it has grown to `n` cells. -/
def Grown (n : ℕ) (o : Option (Area α)) : Prop := ∀ b, o = some b → n ≤ b.len

theorem Grown.bind {o : Option (Area α)} {g : Area α → Option (Area α)}
    (hg : ∀ a, Grown n (g a)) : Grown n (o >>= g) := by
  intro b hb
  obtain ⟨a, -, hlast⟩ := Option.bind_eq_some_iff.mp hb
  exact hg a b hlast

end Lib.ReservedArea
