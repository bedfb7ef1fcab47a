import Aic8800.BspRxFrames

/-!
# When every received buffer is handled

The pointer that is used again allows one record for each buffer and, behind a
buffer with a record, none without. Anything else leaks a copy, frees one twice
or does not come to an end, and an allocation that fails leaves `rx_cnt` behind.
-/

set_option autoImplicit false

namespace AIC.BspRxFrames
open AIC.RxAggregate (aicwfAnotherPtk skbPull)
open Lib.LoopRun

/-- The responses in a buffer, record by record up to its end. -/
inductive Walks : Bytes → List Bytes → Prop
  | blank {skb : Bytes} (last : aicwfAnotherPtk skb = some false) : Walks skb []
  | record {skb : Bytes} {r : Record} {ms : List Bytes} (another : aicwfAnotherPtk skb = some true)
      (kind : recordOf skb = some r) (whole : r.size ≤ skb.length)
      (more : Walks (skbPull skb r.pull) ms) : Walks skb (response skb r++ms)

def messages (out : List Event) : List Bytes :=
  out.filterMap fun e =>
    match e with
    | .rwnxRxHandleMsg msg => some msg
    | _ => none

def dequeues (out : List Event) : ℕ :=
  out.countP fun e =>
    match e with
    | .dequeue _ => true
    | _ => false

/-- What is allocated or taken from the queue is freed once, and `rx_cnt` counts. -/
structure Balanced (out : List Event) : Prop where
  inblocks : ∀ n, out.count (.freeInblock n) = out.count (.alloc n)
  skbs : ∀ i, out.count (.freeSkb i) = out.count (.dequeue i)
  rxCnt : out.count .decRxCnt = dequeues out

/-- The function returns, reads nothing outside the buffers, and passes on all responses unless an
allocation fails. -/
def Handles (alloc : ℕ → Bool) (rxq : List Bytes) : Prop :=
  ∃ r out, Ends (turn alloc) 0 (start rxq) r out ∧ r ≠ .fault ∧ Balanced out ∧
    (r = .done → ∃ mss, List.Forall₂ Walks rxq mss ∧ messages out = mss.flatten)

/-! ## The condition -/

/-- Without a record. -/
def Blank (skb : Bytes) : Prop := aicwfAnotherPtk skb = some false

/-- With one record, all of which is in the buffer. -/
def Single (skb : Bytes) : Prop :=
  aicwfAnotherPtk skb = some true ∧
    ∃ r ∈ recordOf skb, r.size ≤ skb.length ∧ Blank (skbPull skb r.pull)

/-- A record in each buffer, and memory for its copy. -/
def Singles (alloc : ℕ → Bool) : ℕ → List Bytes → Prop
  | _, [] => True
  | n, skb::rxq => Single skb ∧ alloc n = true ∧ Singles alloc (n+1) rxq

/-- Buffers without a record come first. -/
def Plain (alloc : ℕ → Bool) : List Bytes → Prop
  | [] => True
  | skb::rxq => (Blank skb ∧ Plain alloc rxq) ∨ Singles alloc 0 (skb::rxq)

instance (skb : Bytes) : Decidable (Blank skb) := inferInstanceAs (Decidable (_ = _))

instance (skb : Bytes) : Decidable (Single skb) := inferInstanceAs (Decidable (_ ∧ _))

instance decidableSingles (alloc : ℕ → Bool) :
    ∀ (n : ℕ) (rxq : List Bytes), Decidable (Singles alloc n rxq)
  | _, [] => inferInstanceAs (Decidable True)
  | n, skb::rxq =>
    have := decidableSingles alloc (n+1) rxq
    inferInstanceAs (Decidable (Single skb ∧ alloc n = true ∧ Singles alloc (n+1) rxq))

instance decidablePlain (alloc : ℕ → Bool) : ∀ rxq : List Bytes, Decidable (Plain alloc rxq)
  | [] => inferInstanceAs (Decidable True)
  | skb::rxq =>
    have := decidablePlain alloc rxq
    inferInstanceAs (Decidable ((Blank skb ∧ Plain alloc rxq) ∨ Singles alloc 0 (skb::rxq)))

/-! ## Turns -/

section Turns
variable {alloc : ℕ → Bool} {k : ℕ} {s : State} {skb : Bytes}

theorem turn_take {rxq : List Bytes} (hf : s.failed = false) (hskb : s.skb = none)
    (hq : s.rxq = skb::rxq) : turn alloc k s =
      .next { s with rxq := rxq, skb := some skb, taken := s.taken+1 } [.dequeue s.taken] := by
  simp [turn, hf, hskb, hq]

theorem turn_blank (hf : s.failed = false) (hskb : s.skb = some skb) (hb : Blank skb) :
    turn alloc k s = .next { s with skb := none }
      (s.skbInblock.toList.map .freeInblock++[.freeSkb (s.taken-1), .decRxCnt]) := by
  rw [Blank] at hb
  simp [turn, hf, hskb, hb]

theorem turn_record {r : Record} (hf : s.failed = false) (hskb : s.skb = some skb)
    (hanother : aicwfAnotherPtk skb = some true) (hr : recordOf skb = some r) :
    turn alloc k s =
      if alloc s.allocs = false then .next { s with failed := true } [.freeSkb (s.taken-1)]
      else if skb.length < r.size then .stop .fault
      else
        .next { s with
            skb := some (skbPull skb r.pull)
            skbInblock := some s.allocs
            allocs := s.allocs+1 }
          (.alloc s.allocs::(response skb r).map .rwnxRxHandleMsg) := by
  simp [turn, hf, hskb, hanother, hr]

/-- What a turn leaves of the copies: only the one that is pointed to is freed, and a new one has
the next number. -/
theorem turn_next {s' : State} {o : List Event} (h : turn alloc k s = .next s' o) :
    s.allocs ≤ s'.allocs ∧
      (s'.skbInblock = s.skbInblock ∨ s'.skbInblock = some s.allocs ∧ s.allocs < s'.allocs) ∧
      (∀ m, .freeInblock m ∈ o → s.skbInblock = some m) ∧ ∀ m, .alloc m ∈ o → s.allocs ≤ m := by
  unfold turn at h
  split at h
  · cases h
  · split at h
    · split at h
      · cases h
      · cases h
        exact ⟨le_refl _, Or.inl rfl, by simp, by simp⟩
    · split at h
      · cases h
      · cases h
        refine ⟨le_refl _, Or.inl rfl, ?_, by simp⟩
        intro m hm
        cases hin : s.skbInblock <;> rw [hin] at hm <;> simp_all
      · split at h
        · cases h
        · split_ifs at h
          · cases h
            exact ⟨le_refl _, Or.inl rfl, by simp, by simp⟩
          · cases h
            exact ⟨Nat.le_succ _, Or.inr ⟨rfl, Nat.lt_succ_self _⟩, by simp, by simp⟩

/-- A copy that is no longer pointed to is never freed, and none with its number is allocated. -/
theorem later_events {r : Ending} {out : List Event} (h : Ends (turn alloc) k s r out) {m : ℕ}
    (hm : m < s.allocs) : .alloc m ∉ out ∧ (s.skbInblock ≠ some m → .freeInblock m ∉ out) := by
  induction h with
  | stop here => exact ⟨List.not_mem_nil, fun _ => List.not_mem_nil⟩
  | next here more ih =>
    obtain ⟨hle, hin, hfree, halloc⟩ := turn_next here
    obtain ⟨hna, hnf⟩ := ih (Nat.lt_of_lt_of_le hm hle)
    constructor
    · intro hmem
      rcases List.mem_append.mp hmem with hmem | hmem
      · exact absurd (halloc m hmem) (Nat.not_le_of_lt hm)
      · exact hna hmem
    · intro hne hmem
      rcases List.mem_append.mp hmem with hmem | hmem
      · exact hne (hfree m hmem)
      · refine hnf ?_ hmem
        rcases hin with hin | ⟨hin, -⟩
        · rwa [hin]
        · rw [hin]
          intro heq
          exact Nat.ne_of_gt hm (Option.some.inj heq)

end Turns

/-! ## One record each is handled -/

section Buffers
variable {alloc : ℕ → Bool} {k i n : ℕ} {p : Option ℕ} {skb : Bytes} {rxq : List Bytes}
  {r : Ending} {out : List Event}

/-- Between two buffers. -/
def ready (rxq : List Bytes) (p : Option ℕ) (i n : ℕ) : State where
  rxq := rxq
  skb := none
  skbInblock := p
  taken := i
  allocs := n
  failed := false

/-- What is done with a buffer that has no record, while the copy `p` is pointed to. -/
def blankEvents (p : Option ℕ) (i : ℕ) : List Event :=
  Event.dequeue i::(p.toList.map Event.freeInblock++[Event.freeSkb i, Event.decRxCnt])

/-- With one record, from which these messages come. -/
def singleEvents (i n : ℕ) (ms : List Bytes) : List Event :=
  Event.dequeue i::Event.alloc n::(ms.map Event.rwnxRxHandleMsg++
    [Event.freeInblock n, Event.freeSkb i, Event.decRxCnt])

theorem blank_ends (hb : Blank skb) (h : Ends (turn alloc) (k+2) (ready rxq p (i+1) n) r out) :
    Ends (turn alloc) k (ready (skb::rxq) p i n) r (blankEvents p i++out) := by
  have hblank := Ends.next (turn_blank (s := ⟨rxq, some skb, p, i+1, n, false⟩) rfl rfl hb) h
  have htake : turn alloc k (ready (skb::rxq) p i n) = _ := turn_take rfl rfl rfl
  have hends := Ends.next htake hblank
  exact hends

theorem single_ends {x : Record} (hanother : aicwfAnotherPtk skb = some true)
    (hx : recordOf skb = some x) (hsize : x.size ≤ skb.length) (hb : Blank (skbPull skb x.pull))
    (ha : alloc n = true)
    (h : Ends (turn alloc) (k+3) (ready rxq (some n) (i+1) (n+1)) r out) :
    Ends (turn alloc) k (ready (skb::rxq) p i n) r
      (singleEvents i n (response skb x)++out) := by
  have hturn : turn alloc (k+1) { ready (skb::rxq) p i n with
        rxq := rxq
        skb := some skb
        taken := i+1 } =
      .next ⟨rxq, some (skbPull skb x.pull), some n, i+1, n+1, false⟩
        (.alloc n::(response skb x).map .rwnxRxHandleMsg) := by
    rw [turn_record rfl rfl hanother hx, if_neg (by simp [ready, ha]), if_neg (by omega)]
    rfl
  have hparts : singleEvents i n (response skb x)++out =
      [Event.dequeue i]++((Event.alloc n::(response skb x).map Event.rwnxRxHandleMsg)++
        ([Event.freeInblock n, Event.freeSkb i, Event.decRxCnt]++out)) := by
    simp [singleEvents]
  rw [hparts]
  exact .next (turn_take rfl rfl rfl) (.next hturn (.next (turn_blank rfl rfl hb) h))

theorem count_msgs (ms : List Bytes) {e : Event} (he : ∀ m, e ≠ .rwnxRxHandleMsg m) :
    (ms.map Event.rwnxRxHandleMsg).count e = 0 := by
  refine List.count_eq_zero.mpr ?_
  intro hmem
  obtain ⟨m, -, rfl⟩ := List.mem_map.mp hmem
  exact he m rfl

theorem Balanced.nil : Balanced [] := ⟨fun _ => rfl, fun _ => rfl, rfl⟩

theorem Balanced.blank (h : Balanced out) (i : ℕ) : Balanced (blankEvents none i++out) where
  inblocks m := by simp [blankEvents, h.inblocks m]
  skbs j := by simp [blankEvents, List.count_cons, h.skbs j]
  rxCnt := by
    have hcnt := h.rxCnt
    rw [dequeues] at hcnt ⊢
    simp [blankEvents, hcnt]

theorem Balanced.single (h : Balanced out) (i n : ℕ) (ms : List Bytes) :
    Balanced (singleEvents i n ms++out) where
  inblocks m := by simp [singleEvents, List.count_cons, count_msgs, h.inblocks m]
  skbs j := by simp [singleEvents, List.count_cons, count_msgs, h.skbs j]
  rxCnt := by
    have hcnt := h.rxCnt
    have hmsgs : dequeues (ms.map .rwnxRxHandleMsg) = 0 := by
      rw [dequeues, List.countP_map, List.countP_eq_zero]
      simp
    rw [dequeues] at hcnt hmsgs ⊢
    simp [singleEvents, List.countP_append, count_msgs, hcnt, hmsgs]

/-- What a run that comes to its end without a failed allocation hands over. -/
def Passes (alloc : ℕ → Bool) (k : ℕ) (s : State) (rxq : List Bytes) : Prop :=
  ∃ out mss, Ends (turn alloc) k s .done out ∧ Balanced out ∧ List.Forall₂ Walks rxq mss ∧
    messages out = mss.flatten

theorem passes_nil : Passes alloc k (ready [] p i n) [] :=
  ⟨[], [], .stop rfl, Balanced.nil, List.Forall₂.nil, rfl⟩

theorem singles_pass (rxq : List Bytes) {p : Option ℕ} {k i n : ℕ} (h : Singles alloc n rxq) :
    Passes alloc k (ready rxq p i n) rxq := by
  induction rxq generalizing p k i n with
  | nil => exact passes_nil
  | cons skb rxq ih =>
    obtain ⟨⟨hanother, x, hx, hsize, hblank⟩, ha, hrest⟩ := h
    obtain ⟨out, mss, hends, hbal, hwalks, hmsgs⟩ := ih (p := some n) (k := k+3) (i := i+1) hrest
    have hwalk : Walks skb (response skb x++[]) := .record hanother hx hsize (.blank hblank)
    refine ⟨_, (response skb x++[])::mss, single_ends hanother hx hsize hblank ha hends,
      hbal.single i n _, .cons hwalk hwalks, ?_⟩
    have hmap : messages ((response skb x).map .rwnxRxHandleMsg) = response skb x := by
      rw [messages, List.filterMap_map]
      exact List.filterMap_some
    rw [messages] at hmsgs hmap ⊢
    simp [singleEvents, List.filterMap_append, hmsgs, hmap]

theorem plain_passes (rxq : List Bytes) {k i : ℕ} (h : Plain alloc rxq) :
    Passes alloc k (ready rxq none i 0) rxq := by
  induction rxq generalizing k i with
  | nil => exact passes_nil
  | cons skb rxq ih =>
    rcases h with ⟨hblank, hrest⟩ | hsingles
    · obtain ⟨out, mss, hends, hbal, hwalks, hmsgs⟩ := ih (k := k+2) (i := i+1) hrest
      refine ⟨_, []::mss, blank_ends hblank hends, hbal.blank i, .cons (.blank hblank) hwalks, ?_⟩
      rw [messages] at hmsgs ⊢
      simp [blankEvents, hmsgs]
    · exact singles_pass (skb::rxq) hsingles

end Buffers

/-! ## Nothing else is -/

section Needed
variable {alloc : ℕ → Bool} {k i n : ℕ} {p : Option ℕ} {skb : Bytes} {rxq : List Bytes}
  {r : Ending} {out : List Event}

/-- What remains to be freed and counted from a state between two buffers on: the copies allocated
before have been freed. -/
structure Owed (n : ℕ) (out : List Event) : Prop where
  freed : ∀ m < n, .freeInblock m ∉ out
  inblocks : ∀ m, n ≤ m → out.count (.freeInblock m) = out.count (.alloc m)
  rxCnt : out.count .decRxCnt = dequeues out

/-- A record is copied, or the function gives up. -/
theorem record_handled {s : State} (hf : s.failed = false) (hskb : s.skb = some skb)
    (hptk : aicwfAnotherPtk skb = some true) (h : Ends (turn alloc) k s r out) (hr : r ≠ .fault) :
    (∃ i, out = [.freeSkb i]) ∨ ∃ x ∈ recordOf skb, alloc s.allocs = true ∧ x.size ≤ skb.length ∧
      ∃ rest, out = (.alloc s.allocs::(response skb x).map .rwnxRxHandleMsg)++rest ∧
        Ends (turn alloc) (k+1) { s with
          skb := some (skbPull skb x.pull)
          skbInblock := some s.allocs
          allocs := s.allocs+1 } r rest := by
  cases hx : recordOf skb with
  | none => exact absurd (ends_of_stop h (by simp [turn, hf, hskb, hptk, hx])).1 hr
  | some x =>
    have hturn : turn alloc k s = _ := turn_record hf hskb hptk hx
    cases ha : alloc s.allocs with
    | false =>
      left
      rw [if_pos ha] at hturn
      obtain ⟨rest, rfl, hrest⟩ := ends_of_next h hturn
      have hnil := (ends_of_stop hrest (if_pos rfl)).2
      exact ⟨_, by rw [hnil, List.append_nil]⟩
    | true =>
      right
      rw [if_neg (by simp [ha])] at hturn
      by_cases hsize : skb.length < x.size
      · rw [if_pos hsize] at hturn
        exact absurd (ends_of_stop h hturn).1 hr
      · rw [if_neg hsize] at hturn
        obtain ⟨rest, rfl, hrest⟩ := ends_of_next h hturn
        exact ⟨x, rfl, rfl, by omega, rest, rfl, hrest⟩

/-- A buffer that is handled has no record or one. -/
theorem buffer_handled (h : Ends (turn alloc) k (ready (skb::rxq) p i n) r out) (hr : r ≠ .fault)
    (ho : Owed n out) (hp : ∀ m ∈ p, m < n) :
    (Blank skb ∧ p = none ∧ ∃ rest, Ends (turn alloc) (k+2) (ready rxq none (i+1) n) r rest ∧
      Owed n rest) ∨
    (Single skb ∧ alloc n = true ∧ ∃ rest,
      Ends (turn alloc) (k+3) (ready rxq (some n) (i+1) (n+1)) r rest ∧ Owed (n+1) rest) := by
  obtain ⟨o1, rfl, h1⟩ := ends_of_next h (turn_take rfl rfl rfl)
  cases hptk : aicwfAnotherPtk skb with
  | none => exact absurd (ends_of_stop h1 (by simp [turn, ready, hptk])).1 hr
  | some another =>
    cases another with
    | false =>
      left
      obtain ⟨rest, rfl, h2⟩ := ends_of_next h1 (turn_blank rfl rfl hptk)
      cases p with
      | some m =>
        refine absurd ?_ (ho.freed m (hp m rfl))
        simp [ready]
      | none =>
        refine ⟨hptk, rfl, rest, h2, ?_, ?_, ?_⟩
        · intro m hm hmem
          exact ho.freed m hm (by simp [hmem])
        · intro m hm
          simpa [ready] using ho.inblocks m hm
        · have hcnt := ho.rxCnt
          rw [dequeues] at hcnt ⊢
          simpa [ready] using hcnt
    | true =>
      right
      rcases record_handled rfl rfl hptk h1 hr with ⟨j, rfl⟩ | ⟨x, hx, ha, hsize, o2, rfl, h2⟩
      · have hcnt := ho.rxCnt
        simp [dequeues] at hcnt
      · cases hptk2 : aicwfAnotherPtk (skbPull skb x.pull) with
        | none => exact absurd (ends_of_stop h2 (by simp [turn, ready, hptk2])).1 hr
        | some another =>
          cases another with
          | false =>
            obtain ⟨rest, rfl, h3⟩ := ends_of_next h2 (turn_blank rfl rfl hptk2)
            refine ⟨⟨hptk, x, hx, hsize, hptk2⟩, ha, rest, h3, ?_, ?_, ?_⟩
            · intro m hm hmem
              by_cases hlt : m < n
              · exact ho.freed m hlt (by simp [hmem])
              · obtain rfl : m = n := by omega
                -- the copy has been freed behind this buffer
                have hcnt := ho.inblocks m (le_refl m)
                have hlate := (later_events h3 (m := m) (Nat.lt_succ_self m)).1
                have hpos := List.count_pos_iff.mpr hmem
                simp [ready, count_msgs, List.count_eq_zero.mpr hlate] at hcnt
                omega
            · intro m hm
              have hcnt := ho.inblocks m (by omega)
              have hne : n ≠ m := by omega
              simpa [ready, count_msgs, List.count_cons, hne] using hcnt
            · have hcnt := ho.rxCnt
              have hmsgs : dequeues ((response skb x).map .rwnxRxHandleMsg) = 0 := by
                rw [dequeues, List.countP_map, List.countP_eq_zero]
                simp
              rw [dequeues] at hcnt hmsgs ⊢
              simpa [ready, List.countP_append, count_msgs, hmsgs] using hcnt
          | true =>
            exfalso
            have hleak : .freeInblock n ∉ o2 := by
              rcases record_handled rfl rfl hptk2 h2 hr with ⟨j, rfl⟩ | ⟨y, -, -, -, o3, rfl, h3⟩
              · simp
              · have hlate := (later_events h3 (m := n) (by simp [ready])).2 (by simp [ready])
                simpa [ready] using hlate
            have hcnt := ho.inblocks n (le_refl n)
            simp [ready, count_msgs, List.count_eq_zero.mpr hleak] at hcnt

theorem singles_needed (rxq : List Bytes) {k i n m : ℕ} {out : List Event}
    (h : Ends (turn alloc) k (ready rxq (some m) i n) r out) (hr : r ≠ .fault) (ho : Owed n out)
    (hm : m < n) : Singles alloc n rxq := by
  induction rxq generalizing k i n m out with
  | nil => trivial
  | cons skb rxq ih =>
    rcases buffer_handled h hr ho (fun j hj => Option.some.inj hj ▸ hm) with
      ⟨-, hno, -⟩ | ⟨hsingle, ha, rest, hrest, howed⟩
    · cases hno
    · exact ⟨hsingle, ha, ih hrest howed (Nat.lt_succ_self n)⟩

theorem plain_needed (rxq : List Bytes) {k i : ℕ} {out : List Event}
    (h : Ends (turn alloc) k (ready rxq none i 0) r out) (hr : r ≠ .fault) (ho : Owed 0 out) :
    Plain alloc rxq := by
  induction rxq generalizing k i out with
  | nil => trivial
  | cons skb rxq ih =>
    rcases buffer_handled h hr ho (fun j hj => nomatch hj) with
      ⟨hblank, -, rest, hrest, howed⟩ | ⟨hsingle, ha, rest, hrest, howed⟩
    · exact Or.inl ⟨hblank, ih hrest howed⟩
    · exact Or.inr ⟨hsingle, ha, singles_needed rxq hrest hr howed (Nat.lt_succ_self 0)⟩

end Needed

/-- The received buffers are handled as they should be exactly if those without a record come first
and each of the others has one, for whose copy there is memory. -/
theorem handles_iff (alloc : ℕ → Bool) (rxq : List Bytes) :
    Handles alloc rxq ↔ Plain alloc rxq := by
  constructor
  · rintro ⟨r, out, hends, hr, hbal, -⟩
    exact plain_needed rxq hends hr ⟨fun m hm => absurd hm (Nat.not_lt_zero m),
      fun m _ => hbal.inblocks m, hbal.rxCnt⟩
  · intro h
    obtain ⟨out, mss, hends, hbal, hwalks, hmsgs⟩ := plain_passes (k := 0) (i := 0) rxq h
    exact ⟨.done, out, hends, nofun, hbal, fun _ => ⟨mss, hwalks, hmsgs⟩⟩

/-- Two command responses in one buffer: the copy of the first is never freed. -/
theorem two_responses_leak : ¬ Handles (fun _ => true)
    [[4, 0, 0x11, 0, 1, 2, 3, 4, 4, 0, 0x11, 0, 5, 6, 7, 8]] := by
  rintro ⟨r, out, hends, -, hbal, -⟩
  have hrun : ∃ out', loop (turn fun _ => true) 6 0
      (start [[4, 0, 0x11, 0, 1, 2, 3, 4, 4, 0, 0x11, 0, 5, 6, 7, 8]]) = (some .done, out') ∧
        out'.count (.alloc 0) = 1 ∧ out'.count (.freeInblock 0) = 0 :=
    ⟨_, rfl, by decide, by decide⟩
  obtain ⟨out', hloop, halloc, hfree⟩ := hrun
  obtain ⟨-, rfl⟩ := ends_unique hends (ends_of_loop hloop)
  have hcnt := hbal.inblocks 0
  omega

end AIC.BspRxFrames
