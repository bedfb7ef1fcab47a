import Mathlib.Tactic

/-!
# Socket buffers

A buffer is the memory from `skb->data` on together with `skb->len`. Memory is
readable past the length, with whatever the allocation holds there, so a short
frame does not become a special case of every field access.
-/

set_option autoImplicit false

namespace AIC

structure SkBuff where
  data : ℕ → UInt8
  len : ℕ

namespace SkBuff

def slice (skb : SkBuff) (off n : ℕ) : List UInt8 :=
  (List.range n).map (fun i => skb.data (off+i))

def bytes (skb : SkBuff) : List UInt8 := skb.slice 0 skb.len

def ofList (l : List UInt8) : SkBuff := ⟨fun i => l.getD i 0, l.length⟩

end SkBuff

end AIC
