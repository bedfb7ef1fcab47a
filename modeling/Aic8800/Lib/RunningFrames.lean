import Mathlib.Data.List.Perm.Basic
import Mathlib.Data.List.Count
import Mathlib.Data.List.Flatten

/-!
# Functions that run at the same time

Each running function is a frame: the place where it stands and what it holds.
One of them goes on at a time. Its frame is replaced by the one it goes on as, or
by none when it returns, so what all frames hold changes by what that one holds.
-/

set_option autoImplicit false

namespace Lib.RunningFrames

variable {φ α : Type*} [DecidableEq φ] {running fs : List φ} {f x : φ}

def goOn (running : List φ) (f : φ) (fs : List φ) : List φ := fs++running.erase f

theorem mem_goOn (h : x ∈ goOn running f fs) : x ∈ fs ∨ x ∈ running := by
  rcases List.mem_append.mp h with hx | hx
  · exact .inl hx
  · exact .inr (List.mem_of_mem_erase hx)

theorem mem_goOn_new (h : x ∈ fs) : x ∈ goOn running f fs := List.mem_append_left _ h

theorem mem_goOn_of_ne (hx : x ∈ running) (hne : x ≠ f) : x ∈ goOn running f fs :=
  List.mem_append_right fs ((List.mem_erase_of_ne hne).mpr hx)

theorem count_goOn [DecidableEq α] (hold : φ → List α) (hf : f ∈ running) (fs : List φ) (a : α) :
    ((goOn running f fs).flatMap hold).count a+(hold f).count a =
      (running.flatMap hold).count a+(fs.flatMap hold).count a := by
  have hsplit : (running.flatMap hold).Perm ((f::running.erase f).flatMap hold) :=
    (List.perm_cons_erase hf).flatMap_right hold
  rw [hsplit.count_eq, goOn, List.flatMap_append, List.flatMap_cons, List.count_append,
    List.count_append]
  omega

end Lib.RunningFrames
