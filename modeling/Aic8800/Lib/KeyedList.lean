import Mathlib.Data.List.Nodup
import Mathlib.Data.List.Basic

/-!
# A list of records with keys

A list whose records have different keys is a map from keys to records. A record
is found by its key, the one found is changed or taken out, and a record with a
new key goes to the end.
-/

set_option autoImplicit false

namespace Lib.KeyedList

variable {ε κ : Type*} [DecidableEq κ] (key : ε → κ)

def find (k : κ) (l : List ε) : Option ε := l.find? fun e => decide (key e = k)

/-- The first record of the key is changed. -/
def alter (k : κ) (f : ε → ε) : List ε → List ε
  | [] => []
  | e::l => if key e = k then f e::l else e::alter k f l

/-- The first record of the key is taken out. -/
def remove (k : κ) (l : List ε) : List ε := l.eraseP fun e => decide (key e = k)

variable {key} {k j : κ} {l : List ε} {e : ε}

@[simp] theorem find_nil : find key k [] = none := rfl

theorem find_cons (e : ε) (l : List ε) :
    find key k (e::l) = if key e = k then some e else find key k l := by
  by_cases h : key e = k <;> simp [find, h]

theorem find_eq_none : find key k l = none ↔ k ∉ l.map key := by
  simp [find, List.find?_eq_none]

theorem find_append (m : List ε) : find key k (l++m) = (find key k l).or (find key k m) :=
  List.find?_append

/-- A record is added. -/
theorem find_add (hnew : find key (key e) l = none) :
    find key j (l++[e]) = if j = key e then some e else find key j l := by
  rw [find_append, find_cons, find_nil]
  by_cases h : j = key e
  · subst h
    rw [hnew, if_pos rfl, Option.none_or]
  · rw [if_neg (Ne.symm h), if_neg h, Option.or_none]

theorem nodup_add (hl : (l.map key).Nodup) (hnew : find key (key e) l = none) :
    ((l++[e]).map key).Nodup := by
  rw [List.map_append, List.map_singleton, List.nodup_append]
  refine ⟨hl, List.nodup_singleton _, fun a ha b hb => ?_⟩
  rw [List.mem_singleton.mp hb]
  rintro rfl
  exact find_eq_none.mp hnew ha

theorem find_alter {f : ε → ε} (hf : ∀ e, key (f e) = key e) :
    find key j (alter key k f l) = if j = k then (find key k l).map f else find key j l := by
  induction l with
  | nil => simp [alter]
  | cons e l ih =>
    by_cases he : key e = k
    · rw [alter, if_pos he, find_cons, find_cons, find_cons, hf, if_pos he, he]
      by_cases hj : j = k
      · rw [if_pos hj, if_pos hj.symm, Option.map_some]
      · rw [if_neg hj, if_neg (Ne.symm hj), if_neg (Ne.symm hj)]
    · simp only [alter, if_neg he, find_cons, ih]
      by_cases hj : j = k
      · rw [if_pos hj, if_pos hj, hj, if_neg he]
      · rw [if_neg hj, if_neg hj]

theorem map_alter {f : ε → ε} (hf : ∀ e, key (f e) = key e) :
    (alter key k f l).map key = l.map key := by
  induction l with
  | nil => rfl
  | cons e l ih =>
    unfold alter
    split_ifs
    · rw [List.map_cons, List.map_cons, hf]
    · rw [List.map_cons, List.map_cons, ih]

theorem remove_cons (e : ε) (l : List ε) :
    remove key k (e::l) = if key e = k then l else e::remove key k l := by
  by_cases h : key e = k <;> simp [remove, h]

theorem nodup_remove (hl : (l.map key).Nodup) : ((remove key k l).map key).Nodup :=
  hl.sublist (List.eraseP_sublist.map key)

theorem find_remove (hl : (l.map key).Nodup) :
    find key j (remove key k l) = if j = k then none else find key j l := by
  induction l with
  | nil => simp [remove]
  | cons e l ih =>
    obtain ⟨hout, hrest⟩ := List.nodup_cons.mp hl
    rw [remove_cons, find_cons]
    by_cases he : key e = k
    · rw [if_pos he]
      by_cases hj : j = k
      · rw [if_pos hj, find_eq_none, hj, ← he]
        exact hout
      · rw [if_neg hj, he, if_neg (Ne.symm hj)]
    · rw [if_neg he, find_cons, ih hrest]
      by_cases hj : j = k
      · rw [if_pos hj, if_pos hj, hj, if_neg he]
      · rw [if_neg hj, if_neg hj]

end Lib.KeyedList
