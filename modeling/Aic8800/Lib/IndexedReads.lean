import Mathlib.Data.Nat.Notation
import Mathlib.Logic.Basic

/-!
# Reads of a table

A computation reads entries of a table one after another and sends messages. It stops where an
entry that it needs is missing.
-/

set_option autoImplicit false

namespace Lib.IndexedReads

/-- What was read and sent, and the result unless the computation stopped. -/
structure Reading (ε α : Type) where
  reads : List ℕ
  sent : List ε
  value : Option α

variable {ε α β : Type}

def Reading.done (v : α) : Reading ε α := ⟨[], [], some v⟩

def Reading.andThen (x : Reading ε α) (f : α → Reading ε β) : Reading ε β :=
  match x.value with
  | none => ⟨x.reads, x.sent, none⟩
  | some v => ⟨x.reads++(f v).reads, x.sent++(f v).sent, (f v).value⟩

instance : Monad (Reading ε) where
  pure := .done
  bind := .andThen

def fetch (table : ℕ → Option α) (i : ℕ) : Reading ε α := ⟨[i], [], table i⟩

def send (e : ε) : Reading ε Unit := ⟨[], [e], some ()⟩

/-- Only entries below `n` are read. -/
def Within (n : ℕ) (x : Reading ε α) : Prop := ∀ i ∈ x.reads, i < n

@[simp] theorem within_pure (n : ℕ) (v : α) : Within n (pure v : Reading ε α) :=
  fun _ hi => absurd hi List.not_mem_nil

@[simp] theorem within_send (n : ℕ) (e : ε) : Within n (send e) :=
  fun _ hi => absurd hi List.not_mem_nil

@[simp] theorem within_fetch (n : ℕ) (table : ℕ → Option α) (i : ℕ) :
    Within n (fetch table i : Reading ε α) ↔ i < n := by
  simp [Within, fetch]

/-- What follows is read only after a result. -/
theorem within_bind (n : ℕ) (x : Reading ε α) (f : α → Reading ε β) :
    Within n (x >>= f) ↔ Within n x ∧ ∀ v, x.value = some v → Within n (f v) := by
  obtain ⟨reads, sent, value⟩ := x
  cases value with
  | none => exact ⟨fun h => ⟨h, fun v hv => by cases hv⟩, And.left⟩
  | some v =>
    have h : (((⟨reads, sent, some v⟩ : Reading ε α) >>= f).reads) = reads++(f v).reads := rfl
    simp only [Within, h, List.mem_append, Option.some.injEq]
    exact ⟨fun hw => ⟨fun i hi => hw i (.inl hi), fun w hv => hv ▸ fun i hi => hw i (.inr hi)⟩,
      fun hw i hi => hi.elim (hw.1 i) (hw.2 v rfl i)⟩

@[simp] theorem within_send_bind (n : ℕ) (e : ε) (f : Unit → Reading ε β) :
    Within n (send e >>= f) ↔ Within n (f ()) := by
  rw [within_bind]
  exact ⟨fun h => h.2 () rfl, fun h => ⟨within_send n e, fun _ _ => h⟩⟩

theorem within_fetch_bind (n : ℕ) (table : ℕ → Option α) (i : ℕ) (f : α → Reading ε β) :
    Within n (fetch table i >>= f) ↔ i < n ∧ ∀ v, table i = some v → Within n (f v) := by
  rw [within_bind, within_fetch]
  rfl

/-- A read of an entry that is there, and may be read, leaves what follows. -/
theorem within_fetch_some (n : ℕ) (table : ℕ → Option α) (i : ℕ) (f : α → Reading ε β) (v : α)
    (hv : table i = some v) : Within n (fetch table i >>= f) ↔ i < n ∧ Within n (f v) := by
  rw [within_fetch_bind]
  exact and_congr_right fun _ => ⟨fun h => h v hv, fun h w hw => Option.some.inj (hv ▸ hw) ▸ h⟩

end Lib.IndexedReads
