import Mathlib.Data.List.Nodup
import Mathlib.Data.List.Perm.Subperm
import Mathlib.Logic.Function.Basic
import Mathlib.Tactic.Common

/-!
# Chains with a pointer to the pointer

Nodes hang in chains that begin in a table of heads. Each node points to the next
one and to the place that points to it, so that it is taken out without a walk.
There is no result where memory is used that is not live.
-/

set_option autoImplicit false

namespace Lib.PointerChain

/-- Where a pointer to a node is kept. -/
inductive Place (A B : Type*)
  | head (b : B)
  | next (a : A)

structure Links (A B : Type*) where
  live : List A
  head : B → Option A
  next : A → Option A
  pprev : A → Option (Place A B)

variable {A B : Type*}

/-- The place of the pointer behind the nodes. -/
def after : Place A B → List A → Place A B
  | q, [] => q
  | _, a::l => after (.next a) l

theorem after_append {q : Place A B} {l m : List A} : after q (l++m) = after (after q l) m := by
  induction l generalizing q with
  | nil => rfl
  | cons a l ih => exact ih

theorem after_cases (q : Place A B) (l : List A) : after q l = q ∨ ∃ a ∈ l, after q l = .next a := by
  induction l generalizing q with
  | nil => exact .inl rfl
  | cons a l ih =>
    rcases ih (.next a) with h | ⟨c, hc, h⟩
    · exact .inr ⟨a, List.mem_cons_self, h⟩
    · exact .inr ⟨c, List.mem_cons_of_mem _ hc, h⟩

section Nodes

variable [DecidableEq A]

def Links.read (s : Links A B) : Place A B → Option (Option A)
  | .head b => some (s.head b)
  | .next a => if a ∈ s.live then some (s.next a) else none

/-- The walk along a chain to the first node with the property. -/
def Links.find (s : Links A B) (p : A → Bool) : ℕ → Option A → Option (Option A)
  | _, none => some none
  | 0, some _ => none
  | fuel+1, some a =>
    if a ∈ s.live then if p a then some (some a) else s.find p fuel (s.next a) else none

/-! ## Chains -/

/-- The nodes from the pointer at `q` on, up to the pointer of the last one. -/
def Seg (s : Links A B) : Place A B → List A → Prop
  | _, [] => True
  | q, a::l => s.read q = some (some a) ∧ a ∈ s.live ∧ s.pprev a = some q ∧ Seg s (.next a) l

def Chain (s : Links A B) (q : Place A B) (l : List A) : Prop :=
  Seg s q l ∧ s.read (after q l) = some none

variable {s t : Links A B} {q : Place A B} {l m : List A} {a : A}

theorem seg_append : Seg s q (l++m) ↔ Seg s q l ∧ Seg s (after q l) m := by
  induction l generalizing q with
  | nil => simp [Seg, after]
  | cons a l ih => simp [Seg, after, ih, and_assoc]

theorem chain_cons : Chain s q (a::l) ↔ s.read q = some (some a) ∧ a ∈ s.live ∧
    s.pprev a = some q ∧ Chain s (.next a) l := by
  simp [Chain, Seg, after, and_assoc]

theorem chain_append : Chain s q (l++m) ↔ Seg s q l ∧ Chain s (after q l) m := by
  rw [Chain, Chain, seg_append, after_append, and_assoc]

theorem Seg.live (h : Seg s q l) : ∀ a ∈ l, a ∈ s.live := by
  induction l generalizing q with
  | nil => exact fun a ha => absurd ha List.not_mem_nil
  | cons c l ih =>
    intro a ha
    rcases List.mem_cons.mp ha with rfl | ha
    · exact h.2.1
    · exact ih h.2.2.2 a ha

/-- A segment whose nodes and places are as they were. -/
theorem Seg.congr (h : Seg s q l) (hlive : ∀ a ∈ l, a ∈ t.live)
    (hpprev : ∀ a ∈ l, t.pprev a = s.pprev a)
    (hread : ∀ r, (r = q ∨ ∃ a ∈ l, r = .next a) → r ≠ after q l → t.read r = s.read r)
    (hq : ∀ a ∈ l, q ≠ .next a) (hl : l.Nodup) : Seg t q l := by
  induction l generalizing q with
  | nil => trivial
  | cons a l ih =>
    obtain ⟨hnot, hnodup⟩ := List.nodup_cons.mp hl
    have hfirst : q ≠ after (.next a) l := by
      rcases after_cases (.next a) l with he | ⟨c, hc, he⟩
      · rw [he]
        exact hq a List.mem_cons_self
      · rw [he]
        exact hq c (List.mem_cons_of_mem _ hc)
    refine ⟨?_, hlive a List.mem_cons_self, ?_, ?_⟩
    · rw [hread q (.inl rfl) hfirst]
      exact h.1
    · rw [hpprev a List.mem_cons_self]
      exact h.2.2.1
    · refine ih h.2.2.2 (fun c hc => hlive c (List.mem_cons_of_mem _ hc))
        (fun c hc => hpprev c (List.mem_cons_of_mem _ hc)) (fun r hr hne => ?_) ?_ hnodup
      · refine hread r (.inr ?_) hne
        rcases hr with rfl | ⟨c, hc, rfl⟩
        · exact ⟨a, List.mem_cons_self, rfl⟩
        · exact ⟨c, List.mem_cons_of_mem _ hc, rfl⟩
      · rintro c hc he
        cases he
        exact hnot hc

/-- A chain whose nodes and places are as they were. -/
theorem Chain.congr (h : Chain s q l) (hlive : ∀ a ∈ l, a ∈ t.live)
    (hpprev : ∀ a ∈ l, t.pprev a = s.pprev a)
    (hread : ∀ r, (r = q ∨ ∃ a ∈ l, r = .next a) → t.read r = s.read r)
    (hq : ∀ a ∈ l, q ≠ .next a) (hl : l.Nodup) : Chain t q l := by
  refine ⟨h.1.congr hlive hpprev (fun r hr _ => hread r hr) hq hl, ?_⟩
  rw [hread _ (after_cases q l), h.2]

/-- The node behind a node of a chain. -/
theorem chain_next (h : Chain s q (a::l)) : s.next a = l.head? := by
  obtain ⟨-, ha, -, hrest⟩ := chain_cons.mp h
  cases l with
  | nil =>
    have hr := hrest.2
    simp only [after, Links.read, if_pos ha] at hr
    exact Option.some.inj hr
  | cons c l =>
    have hr := (chain_cons.mp hrest).1
    simp only [Links.read, if_pos ha] at hr
    exact Option.some.inj hr

/-- The walk along a chain looks at its nodes in order. -/
theorem find_chain (p : A → Bool) {fuel : ℕ} {cur : Option A} (h : Chain s q l)
    (hcur : s.read q = some cur) (hfuel : l.length ≤ fuel) :
    s.find p fuel cur = some (l.find? p) := by
  induction l generalizing q fuel cur with
  | nil =>
    have hnone : some cur = some none := hcur.symm.trans h.2
    cases hnone
    unfold Links.find
    rfl
  | cons a l ih =>
    obtain ⟨hread, hlive, -, hrest⟩ := chain_cons.mp h
    have hsome : some cur = some (some a) := hcur.symm.trans hread
    cases hsome
    obtain ⟨n, rfl⟩ : ∃ n, fuel = n+1 := Nat.exists_eq_succ_of_ne_zero (by
      rw [List.length_cons] at hfuel
      omega)
    rw [Links.find, if_pos hlive, List.find?_cons]
    cases hp : p a with
    | true => rfl
    | false =>
      exact ih hrest (if_pos hlive) (Nat.le_of_succ_le_succ hfuel)

/-! ## A table of chains -/

structure Linked (s : Links A B) (chains : B → List A) : Prop where
  chain : ∀ b, Chain s (.head b) (chains b)
  nodup : ∀ b, (chains b).Nodup
  apart : ∀ {a b b'}, a ∈ chains b → a ∈ chains b' → b = b'

variable {chains : B → List A} {b : B}

theorem Linked.live (h : Linked s chains) (ha : a ∈ chains b) : a ∈ s.live :=
  (h.chain b).1.live a ha

theorem Linked.length_le (h : Linked s chains) (b : B) : (chains b).length ≤ s.live.length :=
  (List.subperm_of_subset (h.nodup b) fun _ ha => h.live ha).length_le

theorem Linked.find (h : Linked s chains) (p : A → Bool) (b : B) :
    s.find p s.live.length (s.head b) = some ((chains b).find? p) :=
  find_chain p (h.chain b) rfl (h.length_le b)

theorem Linked.head (h : Linked s chains) (b : B) : s.head b = (chains b).head? := by
  have hb := h.chain b
  cases hl : chains b with
  | nil =>
    rw [hl] at hb
    exact Option.some.inj hb.2
  | cons a l =>
    rw [hl] at hb
    exact Option.some.inj (chain_cons.mp hb).1

def Links.setPprev (s : Links A B) (a : A) (p : Option (Place A B)) : Option (Links A B) :=
  if a ∈ s.live then some { s with pprev := Function.update s.pprev a p } else none

/-- The node behind `a`, where there is one, points back to `p`. -/
def Links.turnBack (s : Links A B) (a : A) (p : Option (Place A B)) : Option (Links A B) :=
  match s.next a with
  | none => some s
  | some c => s.setPprev c p

theorem setPprev_spec (ha : a ∈ s.live) (p : Option (Place A B)) :
    ∃ t, s.setPprev a p = some t ∧ t.live = s.live ∧ t.read = s.read ∧ t.pprev a = p ∧
      ∀ x, x ≠ a → t.pprev x = s.pprev x :=
  ⟨_, if_pos ha, rfl, rfl, Function.update_self .., fun _ hx => Function.update_of_ne hx _ _⟩

theorem turnBack_spec {v : Option A} (hv : s.next a = v) (hlive : ∀ c, v = some c → c ∈ s.live)
    (p : Option (Place A B)) :
    ∃ t, s.turnBack a p = some t ∧ t.live = s.live ∧ t.read = s.read ∧
      (∀ c, v = some c → t.pprev c = p) ∧ ∀ x, v ≠ some x → t.pprev x = s.pprev x := by
  cases v with
  | none =>
    refine ⟨s, ?_, rfl, rfl, fun c hc => ?_, fun _ _ => rfl⟩
    · rw [Links.turnBack, hv]
    · cases hc
  | some c =>
    obtain ⟨t, hrun, ht, hread, hc, hx⟩ := setPprev_spec (hlive c rfl) p
    refine ⟨t, ?_, ht, hread, fun d hd => ?_, fun x hne => hx x fun h => hne (by rw [h])⟩
    · rw [Links.turnBack, hv]
      exact hrun
    · cases hd
      exact hc

/-- The memory behind `unlink`: the place before the node has the pointer of the node, the
node behind it points back to this place, and nothing else in use has changed. -/
structure Unlinked (s t : Links A B) (a : A) (p : Place A B) : Prop where
  live : t.live = s.live
  place : t.read p = some (s.next a)
  read : ∀ r, r ≠ p → r ≠ .next a → t.read r = s.read r
  back : ∀ c, s.next a = some c → t.pprev c = some p
  pprev : ∀ x, x ≠ a → s.next a ≠ some x → t.pprev x = s.pprev x

/-- The chain without the node. -/
theorem Unlinked.chain {p : Place A B} (h : Unlinked s t a p) {q : Place A B} {l m : List A}
    (hc : Chain s q (l++a::m)) (hp : p = after q l) (hq : ∀ x ∈ l++a::m, q ≠ .next x)
    (hnodup : (l++a::m).Nodup) : Chain t q (l++m) := by
  obtain ⟨hseg, hrest⟩ := chain_append.mp hc
  obtain ⟨-, ha, -, hbehind⟩ := chain_cons.mp hrest
  obtain ⟨hl, ham, hlam⟩ := List.nodup_append.mp hnodup
  obtain ⟨hnotm, hm⟩ := List.nodup_cons.mp ham
  have hal : a ∉ l := fun hx => hlam a hx a List.mem_cons_self rfl
  have hlm : ∀ x ∈ l, x ∉ m := fun x hx hy => hlam x hx x (List.mem_cons_of_mem _ hy) rfl
  have hfirst : s.next a = m.head? := chain_next hrest
  have hqa : q ≠ .next a := hq a (List.mem_append_right _ List.mem_cons_self)
  have hpa : p ≠ .next a := by
    rcases after_cases q l with he | ⟨x, hx, he⟩
    · rw [hp, he]
      exact hqa
    · rw [hp, he]
      rintro hxa
      cases hxa
      exact hal hx
  refine chain_append.mpr ⟨hseg.congr (fun x hx => ?_) (fun x hx => ?_) (fun r hr hne => ?_)
    (fun x hx => hq x (List.mem_append_left _ hx)) hl, ?_⟩
  · rw [h.live]
    exact hseg.live x hx
  · refine h.pprev x (fun he => hal (he ▸ hx)) fun he => ?_
    rw [hfirst] at he
    exact hlm x hx (List.mem_of_mem_head? he)
  · refine h.read r (fun he => hne (he.trans hp)) ?_
    rcases hr with rfl | ⟨x, hx, rfl⟩
    · exact hqa
    · rintro he
      cases he
      exact hal hx
  rw [← hp]
  cases m with
  | nil =>
    refine ⟨trivial, ?_⟩
    rw [after, h.place, hfirst]
    rfl
  | cons c m =>
    obtain ⟨hcm, hmnodup⟩ := List.nodup_cons.mp hm
    obtain ⟨-, hclive, -, hlast⟩ := chain_cons.mp hbehind
    have hac : a ∉ c::m := hnotm
    have hpc : ∀ x ∈ c::m, p ≠ .next x := by
      intro x hx
      rcases after_cases q l with he | ⟨y, hy, he⟩
      · rw [hp, he]
        exact hq x (List.mem_append_right _ (List.mem_cons_of_mem _ hx))
      · rw [hp, he]
        rintro hxy
        cases hxy
        exact hlm _ hy hx
    have hsame : ∀ x ∈ c::m, t.read (.next x) = s.read (.next x) := fun x hx =>
      h.read _ (hpc x hx).symm fun he => by
        cases he
        exact hac hx
    refine chain_cons.mpr ⟨?_, ?_, h.back c (by rw [hfirst]; rfl), ?_⟩
    · rw [h.place, hfirst]
      rfl
    · rw [h.live]
      exact hclive
    · refine hlast.congr (fun x hx => ?_) (fun x hx => ?_) (fun r hr => ?_) (fun x hx he => ?_)
        hmnodup
      · rw [h.live]
        exact hlast.1.live x hx
      · refine h.pprev x (fun he => hac (he ▸ List.mem_cons_of_mem _ hx)) fun he => ?_
        rw [hfirst] at he
        cases he
        exact hcm hx
      · rcases hr with rfl | ⟨x, hx, rfl⟩
        · exact hsame c List.mem_cons_self
        · exact hsame x (List.mem_cons_of_mem _ hx)
      · cases he
        exact hcm hx

def Links.free (s : Links A B) (a : A) : Option (Links A B) :=
  if a ∈ s.live then some { s with live := s.live.erase a } else none

theorem Linked.next (h : Linked s chains) {l m : List A} (hl : chains b = l++a::m) :
    s.next a = m.head? := by
  have hb := h.chain b
  rw [hl] at hb
  exact chain_next (chain_append.mp hb).2

/-- A node that is new in memory hangs in no chain. -/
theorem Linked.add (h : Linked s chains) (a : A) :
    Linked { s with live := a::s.live } chains := by
  refine ⟨fun b => ?_, h.nodup, h.apart⟩
  refine (h.chain b).congr (fun x hx => List.mem_cons_of_mem a (h.live hx)) (fun _ _ => rfl)
    (fun r hr => ?_) (fun _ _ => by simp) (h.nodup b)
  rcases hr with rfl | ⟨x, hx, rfl⟩
  · rfl
  · simp only [Links.read, if_pos (h.live hx), if_pos (List.mem_cons_of_mem a (h.live hx))]

/-- A node that hangs in no chain is given back. -/
theorem Linked.free (h : Linked s chains) (ha : a ∈ s.live) (hout : ∀ b, a ∉ chains b) :
    ∃ t, s.free a = some t ∧ t.live = s.live.erase a ∧ Linked t chains := by
  have hlive : ∀ {b x}, x ∈ chains b → x ∈ s.live.erase a := fun {b x} hx =>
    (List.mem_erase_of_ne fun he : x = a => hout b (he ▸ hx)).mpr (h.live hx)
  refine ⟨_, if_pos ha, rfl, fun b => ?_, h.nodup, h.apart⟩
  refine (h.chain b).congr (fun x hx => hlive hx) (fun _ _ => rfl) (fun r hr => ?_)
    (fun _ _ => by simp) (h.nodup b)
  rcases hr with rfl | ⟨x, hx, rfl⟩
  · rfl
  · simp only [Links.read, if_pos (hlive hx), if_pos (h.live hx)]

end Nodes

/-! ## Changes -/

variable [DecidableEq A] [DecidableEq B]

def Links.write (s : Links A B) (v : Option A) : Place A B → Option (Links A B)
  | .head b => some { s with head := Function.update s.head b v }
  | .next a => if a ∈ s.live then some { s with next := Function.update s.next a v } else none

/-- The node becomes the first of the chain. -/
def Links.link (s : Links A B) (b : B) (a : A) : Option (Links A B) := do
  let s ← s.write (s.head b) (.next a)
  let s ← s.turnBack a (some (.next a))
  let s ← s.write (some a) (.head b)
  s.setPprev a (some (.head b))

def Links.unlink (s : Links A B) (a : A) : Option (Links A B) := do
  let p ← if a ∈ s.live then s.pprev a else none
  let s ← s.write (s.next a) p
  let s ← s.turnBack a (some p)
  let s ← s.write none (.next a)
  s.setPprev a none

variable {s t : Links A B} {chains : B → List A} {a : A} {b : B}

/-- The result of `link`. -/
theorem link_eq (ha : a ∈ s.live) (hhead : ∀ c, s.head b = some c → c ∈ s.live) :
    s.link b a = some { s with
      head := Function.update s.head b (some a)
      next := Function.update s.next a (s.head b)
      pprev := Function.update (match s.head b with
        | none => s.pprev
        | some c => Function.update s.pprev c (some (.next a))) a (some (.head b)) } := by
  simp only [Links.link, Links.write, if_pos ha, Option.bind_eq_bind, Option.bind_some,
    Links.turnBack, Function.update_self]
  cases hb : s.head b with
  | none => simp [Links.setPprev, ha]
  | some c => simp [Links.setPprev, ha, hhead c hb]

/-- A node that hangs in no chain becomes the first of one. -/
theorem Linked.link (h : Linked s chains) (ha : a ∈ s.live) (hnew : ∀ b, a ∉ chains b) (b : B) :
    ∃ t, s.link b a = some t ∧ t.live = s.live ∧
      Linked t (Function.update chains b (a::chains b)) := by
  have hhead : ∀ c, s.head b = some c → c ∈ s.live := by
    intro c hc
    rw [h.head] at hc
    exact h.live (List.mem_of_mem_head? hc)
  refine ⟨_, link_eq ha hhead, rfl, ?_, ?_, ?_⟩
  · intro b'
    by_cases hb : b' = b
    · subst hb
      rw [Function.update_self, chain_cons]
      refine ⟨?_, ha, ?_, ?_⟩
      · simp [Links.read]
      · simp
      · have hold := h.chain b'
        cases hl : chains b' with
        | nil =>
          have hnone : s.head b' = none := by rw [h.head, hl]; rfl
          refine ⟨trivial, ?_⟩
          simp [after, Links.read, ha, hnone]
        | cons c l =>
          have hsome : s.head b' = some c := by rw [h.head, hl]; rfl
          have hac : a ≠ c := fun he => hnew b' (by rw [hl, he]; exact List.mem_cons_self)
          have hal : a ∉ l := fun he => hnew b' (by rw [hl]; exact List.mem_cons_of_mem _ he)
          have hnodup := h.nodup b'
          rw [hl] at hold hnodup
          obtain ⟨hcl, hlnodup⟩ := List.nodup_cons.mp hnodup
          obtain ⟨-, hclive, -, hrest⟩ := chain_cons.mp hold
          refine chain_cons.mpr ⟨?_, hclive, ?_, ?_⟩
          · simp [Links.read, ha, hsome]
          · simp [hsome, hac.symm]
          · refine hrest.congr hrest.1.live (fun x hx => ?_) (fun r hr => ?_) ?_ hlnodup
            · have hxa : x ≠ a := fun he => hal (he ▸ hx)
              have hxc : x ≠ c := fun he => hcl (he ▸ hx)
              simp [hsome, hxa, hxc]
            · have hra : ∃ x, r = .next x ∧ x ≠ a := by
                rcases hr with rfl | ⟨x, hx, rfl⟩
                · exact ⟨c, rfl, hac.symm⟩
                · exact ⟨x, rfl, fun he => hal (he ▸ hx)⟩
              obtain ⟨x, rfl, hx⟩ := hra
              simp [Links.read, hx]
            · rintro x hx he
              cases he
              exact hcl hx
    · rw [Function.update_of_ne hb]
      refine (h.chain b').congr (h.chain b').1.live (fun x hx => ?_) (fun r hr => ?_)
        (fun _ _ => by simp) (h.nodup b')
      · have hxa : x ≠ a := fun he => hnew b' (he ▸ hx)
        refine (Function.update_of_ne hxa _ _).trans ?_
        cases hc : s.head b with
        | none => rfl
        | some c =>
          have hxc : x ≠ c := by
            rintro rfl
            rw [h.head] at hc
            exact hb (h.apart hx (List.mem_of_mem_head? hc))
          exact Function.update_of_ne hxc _ _
      · rcases hr with rfl | ⟨x, hx, rfl⟩
        · simp [Links.read, hb]
        · have hxa : x ≠ a := fun he => hnew b' (he ▸ hx)
          simp [Links.read, hxa]
  · intro b'
    by_cases hb : b' = b
    · subst hb
      rw [Function.update_self]
      exact List.nodup_cons.mpr ⟨hnew b', h.nodup b'⟩
    · rw [Function.update_of_ne hb]
      exact h.nodup b'
  · intro x b1 b2 h1 h2
    have hmem : ∀ b', x ∈ Function.update chains b (a::chains b) b' →
        x = a ∧ b' = b ∨ x ≠ a ∧ x ∈ chains b' := by
      intro b' hx
      by_cases hb : b' = b
      · subst hb
        rw [Function.update_self] at hx
        rcases List.mem_cons.mp hx with hx | hx
        · exact .inl ⟨hx, rfl⟩
        · exact .inr ⟨fun he => hnew b' (he ▸ hx), hx⟩
      · rw [Function.update_of_ne hb] at hx
        exact .inr ⟨fun he => hnew b' (he ▸ hx), hx⟩
    rcases hmem b1 h1 with ⟨hx, rfl⟩ | ⟨hx, hx1⟩ <;> rcases hmem b2 h2 with ⟨hy, rfl⟩ | ⟨hy, hy2⟩
    · rfl
    · exact absurd hx hy
    · exact absurd hy hx
    · exact h.apart hx1 hy2

theorem write_spec {p : Place A B} {w : Option A} (hp : s.read p = some w) (v : Option A) :
    ∃ t, s.write v p = some t ∧ t.live = s.live ∧ t.pprev = s.pprev ∧ t.read p = some v ∧
      ∀ r, r ≠ p → t.read r = s.read r := by
  cases p with
  | head b =>
    refine ⟨_, rfl, rfl, rfl, congrArg some (Function.update_self ..), fun r hr => ?_⟩
    cases r with
    | head b' => exact congrArg some (Function.update_of_ne (fun h => hr (by rw [h])) _ _)
    | next x => rfl
  | next a =>
    have ha : a ∈ s.live := by
      by_contra hn
      rw [Links.read, if_neg hn] at hp
      cases hp
    refine ⟨_, if_pos ha, rfl, rfl, ?_, fun r hr => ?_⟩
    · exact (if_pos ha).trans (congrArg some (Function.update_self ..))
    · cases r with
      | head b' => rfl
      | next x =>
        have hx : x ≠ a := fun h => hr (by rw [h])
        simp only [Links.read, Function.update_of_ne hx]

theorem unlink_spec {p : Place A B} (ha : a ∈ s.live) (hback : s.pprev a = some p)
    {w : Option A} (hp : s.read p = some w) (hpa : p ≠ .next a)
    (hnext : ∀ c, s.next a = some c → c ∈ s.live ∧ c ≠ a) :
    ∃ t, s.unlink a = some t ∧ Unlinked s t a p := by
  obtain ⟨s1, hrun1, hlive1, hpprev1, hplace1, hread1⟩ := write_spec hp (s.next a)
  have hnext1 : s1.next a = s.next a := by
    have hr := hread1 (.next a) hpa.symm
    simp only [Links.read, hlive1, if_pos ha] at hr
    exact Option.some.inj hr
  obtain ⟨s2, hrun2, hlive2, hread2, hback2, hpprev2⟩ := turnBack_spec hnext1
    (fun c hc => hlive1 ▸ (hnext c hc).1) (some p)
  have hlink2 : s2.read (.next a) = some (s2.next a) := if_pos (by rw [hlive2, hlive1]; exact ha)
  obtain ⟨s3, hrun3, hlive3, hpprev3, -, hread3⟩ := write_spec hlink2 none
  obtain ⟨t, hrun4, hlive4, hread4, -, hpprev4⟩ := setPprev_spec (s := s3) (a := a)
    (by rw [hlive3, hlive2, hlive1]; exact ha) none
  refine ⟨t, ?_, by rw [hlive4, hlive3, hlive2, hlive1], ?_, fun r hr hra => ?_,
    fun c hc => ?_, fun x hx hne => ?_⟩
  · simp only [Links.unlink, if_pos ha, hback, Option.bind_eq_bind, Option.bind_some, hrun1, hrun2,
      hrun3, hrun4]
  · rw [hread4, hread3 p hpa, hread2, hplace1]
  · rw [hread4, hread3 r hra, hread2, hread1 r hr]
  · rw [hpprev4 c (hnext c hc).2, hpprev3, hback2 c hc]
  · rw [hpprev4 x hx, hpprev3, hpprev2 x hne, hpprev1]

/-- A node is taken out of its chain and hangs in no other. -/
theorem Linked.unlink (h : Linked s chains) (ha : a ∈ chains b) :
    ∃ t, s.unlink a = some t ∧ t.live = s.live ∧
      Linked t (Function.update chains b ((chains b).erase a)) := by
  obtain ⟨l, m, hl⟩ := List.append_of_mem ha
  have hchain := h.chain b
  have hnodup := h.nodup b
  rw [hl] at hchain hnodup
  obtain ⟨hseg, hrest⟩ := chain_append.mp hchain
  obtain ⟨hread, halive, hback, hbehind⟩ := chain_cons.mp hrest
  obtain ⟨hnodupl, ham, hlam⟩ := List.nodup_append.mp hnodup
  have hnotm : a ∉ m := (List.nodup_cons.mp ham).1
  have hal : a ∉ l := fun hx => hlam a hx a List.mem_cons_self rfl
  have hfirst : ∀ c, s.next a = some c → c ∈ m := by
    intro c hc
    rw [chain_next hrest] at hc
    exact List.mem_of_mem_head? hc
  have hpa : after (.head b) l ≠ .next a := by
    rcases after_cases (.head b) l with he | ⟨x, hx, he⟩
    · rw [he]
      simp
    · rw [he]
      rintro hxa
      cases hxa
      exact hal hx
  obtain ⟨t, hrun, ht⟩ := unlink_spec halive hback hread hpa fun c hc =>
    ⟨hbehind.1.live c (hfirst c hc), fun he => hnotm (he ▸ hfirst c hc)⟩
  have herase : (chains b).erase a = l++m := by
    rw [hl, List.erase_append_right _ hal, List.erase_cons_head]
  refine ⟨t, hrun, ht.live, ?_, ?_, ?_⟩
  · intro b'
    by_cases hb : b' = b
    · subst hb
      rw [Function.update_self, herase]
      exact ht.chain hchain rfl (fun _ _ => by simp) hnodup
    · rw [Function.update_of_ne hb]
      have hother : ∀ x ∈ chains b', x ∉ l++a::m := fun x hx hy =>
        hb (h.apart hx (hl ▸ hy))
      refine (h.chain b').congr (fun x hx => ?_) (fun x hx => ?_) (fun r hr => ?_)
        (fun _ _ => by simp) (h.nodup b')
      · rw [ht.live]
        exact h.live hx
      · refine ht.pprev x (fun he => hother x hx ?_) fun he => hother x hx ?_
        · rw [he]
          exact List.mem_append_right _ List.mem_cons_self
        · exact List.mem_append_right _ (List.mem_cons_of_mem _ (hfirst x he))
      · rcases hr with rfl | ⟨x, hx, rfl⟩
        · refine ht.read _ ?_ (by simp)
          rcases after_cases (Place.head b) l with he | ⟨y, hy, he⟩
          · rw [he]
            simpa using hb
          · rw [he]
            simp
        · refine ht.read _ ?_ fun he => ?_
          · rcases after_cases (Place.head b) l with he | ⟨y, hy, he⟩
            · rw [he]
              simp
            · rw [he]
              rintro hxy
              cases hxy
              exact hother x hx (List.mem_append_left _ hy)
          · cases he
            exact hother a hx (List.mem_append_right _ List.mem_cons_self)
  · intro b'
    by_cases hb : b' = b
    · subst hb
      rw [Function.update_self]
      exact (h.nodup b').erase a
    · rw [Function.update_of_ne hb]
      exact h.nodup b'
  · intro x b1 b2 h1 h2
    have hmem : ∀ b', x ∈ Function.update chains b ((chains b).erase a) b' → x ∈ chains b' := by
      intro b' hx
      by_cases hb : b' = b
      · subst hb
        rw [Function.update_self] at hx
        exact List.mem_of_mem_erase hx
      · rwa [Function.update_of_ne hb] at hx
    exact h.apart (hmem b1 h1) (hmem b2 h2)

end Lib.PointerChain
