import Mathlib.Data.List.Basic
import Aic8800.Lib.IndexedReads

/-!
# Reads that stay inside a list

The table is a list. A computation is safe if it reads only what is there and sends only messages
of a kind. One that is safe comes to its end, so computations one after the other are safe exactly
if each of them is.
-/

set_option autoImplicit false

namespace Lib.SafeReads
open Lib.IndexedReads

variable {ε α β : Type}

structure Safe (n : ℕ) (ok : ε → Prop) (x : Reading ε β) : Prop where
  within : Within n x
  sends : ∀ e ∈ x.sent, ok e

/-- Where it reads only entries below `n`, it comes to a result. -/
def Complete (n : ℕ) (x : Reading ε β) : Prop := Within n x → x.value.isSome = true

def each {γ : Type} (f : γ → Reading ε Unit) : List γ → Reading ε Unit
  | [] => pure ()
  | x::xs => f x >>= fun _ => each f xs

/-- `n` entries from `off` on. -/
def fetchRange (table : ℕ → Option α) (off : ℕ) : ℕ → Reading ε (List α)
  | 0 => pure []
  | n+1 => fetch table off >>= fun v => fetchRange table (off+1) n >>= fun vs => pure (v::vs)

/-! ## Safe computations -/

section Rules
variable {n : ℕ} {ok : ε → Prop} {l : List α}

@[simp] theorem safe_pure (v : β) : Safe n ok (pure v : Reading ε β) :=
  ⟨within_pure n v, fun _ he => absurd he List.not_mem_nil⟩

@[simp] theorem safe_send (e : ε) : Safe n ok (send e) ↔ ok e :=
  ⟨fun h => h.sends e List.mem_cons_self,
    fun h => ⟨within_send n e, fun _ he => List.mem_singleton.mp he ▸ h⟩⟩

theorem sent_bind {γ : Type} (x : Reading ε β) (f : β → Reading ε γ) :
    (x >>= f).sent = x.sent++(match x.value with | none => [] | some v => (f v).sent) := by
  obtain ⟨reads, sent, value⟩ := x
  cases value with
  | none => exact (List.append_nil _).symm
  | some v => rfl

theorem value_bind {γ : Type} (x : Reading ε β) (f : β → Reading ε γ) :
    (x >>= f).value = x.value.bind fun v => (f v).value := by
  obtain ⟨reads, sent, value⟩ := x
  cases value <;> rfl

theorem safe_bind {γ : Type} (x : Reading ε β) (f : β → Reading ε γ) :
    Safe n ok (x >>= f) ↔ Safe n ok x ∧ ∀ v, x.value = some v → Safe n ok (f v) := by
  constructor
  · rintro ⟨hwithin, hsends⟩
    rw [within_bind] at hwithin
    rw [sent_bind] at hsends
    refine ⟨⟨hwithin.1, fun e he => hsends e (List.mem_append_left _ he)⟩, fun v hv => ?_⟩
    rw [hv] at hsends
    exact ⟨hwithin.2 v hv, fun e he => hsends e (List.mem_append_right _ he)⟩
  · rintro ⟨hx, hf⟩
    refine ⟨(within_bind ..).mpr ⟨hx.within, fun v hv => (hf v hv).within⟩, fun e he => ?_⟩
    rw [sent_bind] at he
    cases hv : x.value with
    | none =>
      rw [hv] at he
      exact hx.sends e (by simpa using he)
    | some v =>
      rw [hv] at he
      exact (List.mem_append.mp he).elim (hx.sends e) ((hf v hv).sends e)

/-- A read is safe inside the list, and what follows has the entry. -/
theorem safe_fetch_bind (d : α) (i : ℕ) (f : α → Reading ε β) :
    Safe l.length ok (fetch (l[·]?) i >>= f) ↔
      i < l.length ∧ Safe l.length ok (f (l.getD i d)) := by
  rw [safe_bind]
  constructor
  · rintro ⟨hread, hf⟩
    have hi : i < l.length := (within_fetch ..).mp hread.within
    rw [← List.getElem_eq_getD (h := hi)]
    exact ⟨hi, hf _ (List.getElem?_eq_getElem hi)⟩
  · rintro ⟨hi, hf⟩
    refine ⟨⟨(within_fetch ..).mpr hi, fun e he => absurd he List.not_mem_nil⟩, fun v hv => ?_⟩
    obtain rfl : l[i] = v := Option.some.inj ((List.getElem?_eq_getElem hi).symm.trans hv)
    rwa [List.getElem_eq_getD d]

theorem within_fetch_list (d : α) (i : ℕ) (f : α → Reading ε β) :
    Within l.length (fetch (l[·]?) i >>= f) ↔
      i < l.length ∧ Within l.length (f (l.getD i d)) := by
  have hsafe : ∀ x : Reading ε β, Within l.length x ↔ Safe l.length (fun _ => True) x :=
    fun x => ⟨fun h => ⟨h, fun _ _ => trivial⟩, Safe.within⟩
  rw [hsafe, hsafe]
  exact safe_fetch_bind d i f

theorem value_fetch_list (d : α) {i : ℕ} (hi : i < l.length) (f : α → Reading ε β) :
    (fetch (l[·]?) i >>= f).value = (f (l.getD i d)).value := by
  rw [value_bind, ← List.getElem_eq_getD (h := hi),
    show (fetch (l[·]?) i : Reading ε α).value = some l[i] from List.getElem?_eq_getElem hi]
  rfl

theorem safe_each {γ : Type} {f : γ → Reading ε Unit} {xs : List γ}
    (hc : ∀ x ∈ xs, Complete n (f x)) : Safe n ok (each f xs) ↔ ∀ x ∈ xs, Safe n ok (f x) := by
  induction xs with
  | nil => exact iff_of_true (safe_pure ()) fun x hx => absurd hx List.not_mem_nil
  | cons x xs ih =>
    rw [each, safe_bind, List.forall_mem_cons, ih fun y hy => hc y (List.mem_cons_of_mem x hy)]
    constructor
    · rintro ⟨hx, hxs⟩
      obtain ⟨v, hv⟩ := Option.isSome_iff_exists.mp (hc x List.mem_cons_self hx.within)
      exact ⟨hx, hxs v hv⟩
    · rintro ⟨hx, hxs⟩
      exact ⟨hx, fun v _ => hxs⟩

/-! ## Computations that come to a result -/

theorem complete_send (e : ε) : Complete n (send e) := fun _ => rfl

theorem complete_fetch_bind (i : ℕ) {f : α → Reading ε β} (hf : ∀ v, Complete l.length (f v)) :
    Complete l.length (fetch (l[·]?) i >>= f) := by
  intro h
  obtain ⟨hi, hrest⟩ := (within_fetch_bind ..).mp h
  have hv := List.getElem?_eq_getElem hi
  rw [value_bind, show (fetch (l[·]?) i : Reading ε α).value = some l[i] from hv]
  exact hf _ (hrest _ hv)

/-! ## Blocks -/

theorem fetchRange_inside {off k : ℕ} (h : off+k ≤ l.length) :
    (fetchRange (l[·]?) off k : Reading ε (List α)) =
      ⟨List.range' off k, [], some ((l.drop off).take k)⟩ := by
  induction k generalizing off with
  | zero => rfl
  | succ k ih =>
    have hoff : off < l.length := by omega
    rw [fetchRange, ih (by omega : off+1+k ≤ l.length), List.drop_eq_getElem_cons hoff,
      List.take_succ_cons]
    change Reading.andThen ⟨[off], [], l[off]?⟩ _ = _
    rw [List.getElem?_eq_getElem hoff]
    simp [Reading.andThen, bind, pure, Reading.done, List.range'_succ]

theorem within_fetchRange {off k : ℕ} :
    Within l.length (fetchRange (l[·]?) off k : Reading ε (List α)) ↔
      k = 0 ∨ off+k ≤ l.length := by
  induction k generalizing off with
  | zero => exact iff_of_true (within_pure _ _) (Or.inl rfl)
  | succ k ih =>
    rw [fetchRange, within_fetch_bind]
    constructor
    · rintro ⟨hoff, hrest⟩
      have hblock := hrest _ (List.getElem?_eq_getElem hoff)
      rw [within_bind, ih] at hblock
      omega
    · rintro (hk | hk)
      · cases hk
      · refine ⟨by omega, fun v _ => ?_⟩
        rw [within_bind, ih]
        exact ⟨Or.inr (by omega), fun vs _ => within_pure _ _⟩

end Rules

end Lib.SafeReads
