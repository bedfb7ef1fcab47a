import Aic8800.Lib.RunningFrames
import Mathlib.Data.List.Perm.Basic
import Mathlib.Data.List.Nodup
import Mathlib.Logic.Function.Basic

/-!
# Buffers that carry a token

Every buffer is on one of two lists: it is empty, or loaded with a token. Tokens
are numbered as they are made. Each of them is in one loaded buffer, or once in
the list of tokens that are outside the buffers, and never in two of these places.
The lists matter up to order only: each rule asks for the counts of the new ones.
-/

set_option autoImplicit false

namespace Lib.LoadedBuffers

variable {β : Type*} [DecidableEq β]

structure Ledger (load : β → Option ℕ) (empty loaded : List β) (out : List ℕ) (made : ℕ) :
    Prop where
  placed : ∀ b, empty.count b+loaded.count b = 1
  clear : ∀ b ∈ empty, load b = none
  full : ∀ b ∈ loaded, (load b).isSome = true
  once : ∀ n, (loaded.filterMap load).count n+out.count n = if n < made then 1 else 0

variable {load : β → Option ℕ} {empty empty' loaded loaded' : List β} {out out' : List ℕ}
variable {made n : ℕ} {b : β}

theorem filterMap_update_of_notMem {l : List β} (hb : b ∉ l) (v : Option ℕ) :
    l.filterMap (Function.update load b v) = l.filterMap load := by
  apply List.filterMap_congr
  intro x hx
  rw [Function.update_of_ne]
  rintro rfl
  exact hb hx

theorem Ledger.not_loaded (h : Ledger load empty loaded out made) (hb : b ∈ empty) :
    b ∉ loaded := by
  have hplaced := h.placed b
  have hempty := List.count_pos_iff.mpr hb
  intro hloaded
  have := List.count_pos_iff.mpr hloaded
  omega

theorem perm_of_count {α : Type*} [DecidableEq α] {l l' : List α}
    (h : ∀ x, l'.count x = l.count x) : l'.Perm l := List.perm_iff_count.mpr h

theorem count_head {α : Type*} [DecidableEq α] (a : α) (l : List α) (x : α) :
    (a::l).count x = l.count x+[a].count x := by
  have happend : ([a]++l).count x = [a].count x+l.count x := List.count_append ..
  rw [List.singleton_append] at happend
  omega

theorem Ledger.congr (h : Ledger load empty loaded out made)
    (hempty : ∀ x, empty'.count x = empty.count x)
    (hloaded : ∀ x, loaded'.count x = loaded.count x)
    (hout : ∀ m, out'.count m = out.count m) : Ledger load empty' loaded' out' made where
  placed x := by rw [hempty, hloaded]; exact h.placed x
  clear x hx := h.clear x ((perm_of_count hempty).mem_iff.mp hx)
  full x hx := h.full x ((perm_of_count hloaded).mem_iff.mp hx)
  once m := by
    rw [((perm_of_count hloaded).filterMap load).count_eq, hout]
    exact h.once m

/-- An empty buffer is loaded with a token from outside. -/
theorem Ledger.fill (h : Ledger load empty loaded out made)
    (hempty : ∀ x, empty'.count x+[b].count x = empty.count x)
    (hloaded : ∀ x, loaded'.count x = loaded.count x+[b].count x)
    (hout : ∀ m, out'.count m+[n].count m = out.count m) :
    Ledger (Function.update load b (some n)) empty' loaded' out' made := by
  have hself : [b].count b = 1 := by simp
  have hin : b ∈ empty := List.count_pos_iff.mp (by have := hempty b; omega)
  have hoff : b ∉ loaded := h.not_loaded hin
  have hb0 : loaded.count b = 0 := List.count_eq_zero_of_not_mem hoff
  have hperm : loaded'.Perm (b::loaded) :=
    perm_of_count fun x => (hloaded x).trans (count_head b loaded x).symm
  refine ⟨fun x => ?_, fun x hx => ?_, fun x hx => ?_, fun m => ?_⟩
  · have := h.placed x
    have := hempty x
    have := hloaded x
    omega
  · have hne : x ≠ b := by
      rintro rfl
      have := h.placed x
      have := hempty x
      have := List.count_pos_iff.mpr hx
      omega
    rw [Function.update_of_ne hne]
    apply h.clear
    apply List.count_pos_iff.mp
    have := hempty x
    have := List.count_pos_iff.mpr hx
    omega
  · by_cases hxb : x = b
    · subst hxb
      rw [Function.update_self, Option.isSome_some]
    · rw [Function.update_of_ne hxb]
      exact h.full x (List.mem_of_ne_of_mem hxb (hperm.mem_iff.mp hx))
  · have hsplit : ((b::loaded).filterMap (Function.update load b (some n))).count m =
        (loaded.filterMap load).count m+[n].count m := by
      rw [List.filterMap_cons_some (Function.update_self ..), filterMap_update_of_notMem hoff,
        count_head]
    rw [(hperm.filterMap _).count_eq, hsplit]
    have := h.once m
    have := hout m
    omega

/-- A loaded buffer gives its token away. -/
theorem Ledger.drain (h : Ledger load empty loaded out made) (hn : load b = some n)
    (hempty : ∀ x, empty'.count x = empty.count x+[b].count x)
    (hloaded : ∀ x, loaded'.count x+[b].count x = loaded.count x)
    (hout : ∀ m, out'.count m = out.count m+[n].count m) :
    Ledger (Function.update load b none) empty' loaded' out' made := by
  have hself : [b].count b = 1 := by simp
  have hin : b ∈ loaded := List.count_pos_iff.mp (by have := hloaded b; omega)
  have hperm : loaded.Perm (b::loaded') :=
    perm_of_count fun x => (hloaded x).symm.trans (count_head b loaded' x).symm
  have hoff : b ∉ loaded' := by
    intro hb
    have := h.placed b
    have := hloaded b
    have := List.count_pos_iff.mpr hb
    omega
  refine ⟨fun x => ?_, fun x hx => ?_, fun x hx => ?_, fun m => ?_⟩
  · have := h.placed x
    have := hempty x
    have := hloaded x
    omega
  · by_cases hxb : x = b
    · subst hxb
      exact Function.update_self ..
    · rw [Function.update_of_ne hxb]
      apply h.clear
      apply List.count_pos_iff.mp
      have hcount := hempty x
      have hzero : [b].count x = 0 :=
        List.count_eq_zero_of_not_mem fun hmem => hxb (List.mem_singleton.mp hmem)
      have := List.count_pos_iff.mpr hx
      omega
  · have hxb : x ≠ b := by
      rintro rfl
      exact hoff hx
    rw [Function.update_of_ne hxb]
    exact h.full x (hperm.mem_iff.mpr (List.mem_cons_of_mem b hx))
  · have hsplit : (loaded.filterMap load).count m =
        (loaded'.filterMap load).count m+[n].count m := by
      rw [(hperm.filterMap load).count_eq, List.filterMap_cons_some hn, count_head]
    rw [filterMap_update_of_notMem hoff]
    have := h.once m
    have := hout m
    omega

/-- A token is made outside the buffers. -/
theorem Ledger.mint (h : Ledger load empty loaded out made)
    (hempty : ∀ x, empty'.count x = empty.count x)
    (hloaded : ∀ x, loaded'.count x = loaded.count x)
    (hout : ∀ m, out'.count m = out.count m+[made].count m) :
    Ledger load empty' loaded' out' (made+1) := by
  have hsame : Ledger load empty' loaded' out made := h.congr hempty hloaded fun _ => rfl
  refine ⟨hsame.placed, hsame.clear, hsame.full, fun m => ?_⟩
  have honce := hsame.once m
  rw [hout]
  by_cases hm : m = made
  · subst hm
    simp only [Nat.lt_irrefl, if_false] at honce
    simp only [List.count_singleton_self, Nat.lt_succ_self, if_true]
    omega
  · have hzero : [made].count m = 0 :=
      List.count_eq_zero_of_not_mem fun hmem => hm (List.mem_singleton.mp hmem)
    have hlt : m < made+1 ↔ m < made := by omega
    simp only [hlt]
    omega

theorem Ledger.token (h : Ledger load empty loaded out made) (hb : b ∈ loaded) :
    ∃ n, load b = some n := Option.isSome_iff_exists.mp (h.full b hb)

/-- Over all buffers: each token made is in one of them, or outside once. -/
theorem Ledger.kept (h : Ledger load empty loaded out made) {all : List β} (hall : all.Nodup)
    (hmem : ∀ b, b ∈ all) (n : ℕ) :
    (all.filterMap load).count n+out.count n = if n < made then 1 else 0 := by
  have hperm : all.Perm (empty++loaded) := by
    apply perm_of_count
    intro x
    rw [List.count_append, h.placed x]
    exact List.count_eq_one_of_mem hall (hmem x)
  have hnone : empty.filterMap load = [] := List.filterMap_eq_nil_iff.mpr h.clear
  rw [(hperm.filterMap load).count_eq, List.filterMap_append, hnone, List.nil_append]
  exact h.once n

/-! ## Buffers held by running functions

The lists in two parts: what is on lists of its own, and what the frames hold. -/

section Frames
open Lib.RunningFrames

variable {φ : Type*} [DecidableEq φ] {running fs : List φ} {f : φ}
variable {empties loads : φ → List β} {outs : φ → List ℕ}

theorem count_parts {α : Type*} [DecidableEq α] (hold : φ → List α) (hf : f ∈ running)
    (fs : List φ) (l l' : List α) (x : α) :
    (l'++(goOn running f fs).flatMap hold).count x+(l.count x+(hold f).count x) =
      (l++running.flatMap hold).count x+(l'.count x+(fs.flatMap hold).count x) := by
  have hgo := count_goOn hold hf fs x
  rw [List.count_append, List.count_append]
  omega

theorem Ledger.frame_moves (h : Ledger load (empty++running.flatMap empties)
      (loaded++running.flatMap loads) (out++running.flatMap outs) made) (hf : f ∈ running)
    (hempty : ∀ x, empty'.count x+(fs.flatMap empties).count x =
      empty.count x+(empties f).count x)
    (hloaded : ∀ x, loaded'.count x+(fs.flatMap loads).count x =
      loaded.count x+(loads f).count x)
    (hout : ∀ m, out'.count m+(fs.flatMap outs).count m = out.count m+(outs f).count m) :
    Ledger load (empty'++(goOn running f fs).flatMap empties)
      (loaded'++(goOn running f fs).flatMap loads) (out'++(goOn running f fs).flatMap outs)
      made := by
  refine h.congr (fun x => ?_) (fun x => ?_) fun m => ?_
  · have hgo := count_parts empties hf fs empty empty' x
    have := hempty x
    omega
  · have hgo := count_parts loads hf fs loaded loaded' x
    have := hloaded x
    omega
  · have hgo := count_parts outs hf fs out out' m
    have := hout m
    omega

theorem Ledger.frame_fill (h : Ledger load (empty++running.flatMap empties)
      (loaded++running.flatMap loads) (out++running.flatMap outs) made) (hf : f ∈ running)
    (hempty : ∀ x, empty'.count x+(fs.flatMap empties).count x+[b].count x =
      empty.count x+(empties f).count x)
    (hloaded : ∀ x, loaded'.count x+(fs.flatMap loads).count x =
      loaded.count x+(loads f).count x+[b].count x)
    (hout : ∀ m, out'.count m+(fs.flatMap outs).count m+[n].count m =
      out.count m+(outs f).count m) :
    Ledger (Function.update load b (some n)) (empty'++(goOn running f fs).flatMap empties)
      (loaded'++(goOn running f fs).flatMap loads) (out'++(goOn running f fs).flatMap outs)
      made := by
  apply h.fill
  · intro x
    have hgo := count_parts empties hf fs empty empty' x
    have := hempty x
    omega
  · intro x
    have hgo := count_parts loads hf fs loaded loaded' x
    have := hloaded x
    omega
  · intro m
    have hgo := count_parts outs hf fs out out' m
    have := hout m
    omega

theorem Ledger.frame_drain (h : Ledger load (empty++running.flatMap empties)
      (loaded++running.flatMap loads) (out++running.flatMap outs) made) (hf : f ∈ running)
    (hn : load b = some n)
    (hempty : ∀ x, empty'.count x+(fs.flatMap empties).count x =
      empty.count x+(empties f).count x+[b].count x)
    (hloaded : ∀ x, loaded'.count x+(fs.flatMap loads).count x+[b].count x =
      loaded.count x+(loads f).count x)
    (hout : ∀ m, out'.count m+(fs.flatMap outs).count m =
      out.count m+(outs f).count m+[n].count m) :
    Ledger (Function.update load b none) (empty'++(goOn running f fs).flatMap empties)
      (loaded'++(goOn running f fs).flatMap loads) (out'++(goOn running f fs).flatMap outs)
      made := by
  apply h.drain hn
  · intro x
    have hgo := count_parts empties hf fs empty empty' x
    have := hempty x
    omega
  · intro x
    have hgo := count_parts loads hf fs loaded loaded' x
    have := hloaded x
    omega
  · intro m
    have hgo := count_parts outs hf fs out out' m
    have := hout m
    omega

/-- A buffer that a frame holds loaded is nowhere else. -/
theorem Ledger.sole (h : Ledger load (empty++running.flatMap empties)
      (loaded++running.flatMap loads) (out++running.flatMap outs) made) (hf : f ∈ running)
    (hb : b ∈ loads f) : b ∉ loaded ∧ b ∉ (running.erase f).flatMap loads := by
  have hplaced := h.placed b
  have hrest := count_goOn loads hf [] b
  have hone := List.count_pos_iff.mpr hb
  rw [goOn, List.nil_append, List.flatMap_nil, List.count_nil] at hrest
  rw [List.count_append, List.count_append] at hplaced
  constructor <;> intro hmem <;> have := List.count_pos_iff.mpr hmem <;> omega

end Frames

end Lib.LoadedBuffers
