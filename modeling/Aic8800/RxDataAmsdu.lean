import Aic8800.RxDataOwnership

/-!
# The sub-frames of an A-MSDU

The loop of `rwnx_rxdataind_aicwf` comes to its end exactly if every sub-frame
it reaches gets a buffer, has an LLC header, and is followed by the padding that
`roundup` counts with: otherwise `skb_pull` leaves the buffer as it is and the
loop meets the same sub-frame again.
-/

set_option autoImplicit false

namespace AIC.RxDataAmsdu
open AIC.RxDataInd Lib.LoopRun

/-- The list of sub-frames is empty where its first frame is looked at. -/
def SplitFails (hdr : HwRxhdr) (vif : Vif) (split : Split) : Prop :=
  hdr.flagsIsAmsdu = true ∧ split.count = 0 ∧ vif.peeks = true

theorem rxDataOrFree_none {hw : Hw} {hdr : HwRxhdr} {vif : Vif} {skb : SkBuff} {split : Split} :
    rxDataOrFree hw hdr vif skb split = none ↔ SplitFails hdr vif split := by
  unfold rxDataOrFree rxDataSkb SplitFails
  by_cases h : hdr.flagsIsAmsdu && split.count == 0 && vif.peeks
  · rw [if_pos h]
    simp only [Bool.and_eq_true, beq_iff_eq] at h
    simp [h]
  · rw [if_neg h]
    simp only [Bool.and_eq_true, beq_iff_eq, and_assoc] at h
    simp only [h, iff_false]
    cases hdr.flagsIsAmsdu with
    | false => exact Option.some_ne_none _
    | true => cases split <;> exact Option.some_ne_none _

/-- The loop goes on with a sub-frame: its length field does not point past the end. -/
def present (skb : SkBuff) : Bool := 16 < skb.len && subLen skb+14 ≤ skb.len

/-- What the loop comes to, sub-frame after sub-frame, each with all that follows it. -/
def subframes : ℕ → SkBuff → List SkBuff
  | 0, _ => []
  | n+1, skb => if present skb then skb::subframes n (skbPull (lenAligned skb) skb) else []

theorem subframes_head {n : ℕ} {skb : SkBuff} (hn : 0 < n) (hp : present skb = true) :
    (subframes n skb)[0]? = some skb := by
  obtain ⟨m, rfl⟩ := Nat.exists_eq_add_of_le' hn
  simp only [subframes, hp, if_true, List.getElem?_cons_zero]

/-- The allocation succeeds, and the LLC header is there. -/
def Readable (env : Env) (i : ℕ) (skb : SkBuff) : Prop :=
  env.subAlloc i = true ∧ 6 ≤ subLen skb

/-- The next sub-frame begins behind this one and inside the buffer. -/
def Advances (skb : SkBuff) : Prop := 0 < lenAligned skb ∧ lenAligned skb ≤ skb.len

/-- Without an interface the first sub-frame ends the loop. -/
def AmsduFits (hw : Hw) (env : Env) (hdr : HwRxhdr) (k : ℕ) (fs : List SkBuff) : Prop :=
  match getVif hw hdr.flagsVifIdx with
  | none => ∀ f ∈ fs.head?, Readable env k f
  | some vif => ∀ i f, fs[i]? = some f → Readable env (k+i) f ∧ Advances f ∧
    ¬ SplitFails hdr vif (env.amsduTo8023s (k+i))

theorem skbPull_stuck {skb : SkBuff} (h : ¬ Advances skb) :
    skbPull (lenAligned skb) skb = skb := by
  unfold skbPull
  by_cases hle : lenAligned skb ≤ skb.len
  · have hzero : lenAligned skb = 0 := by
      by_contra hne
      exact h ⟨Nat.pos_of_ne_zero hne, hle⟩
    rw [if_pos hle, hzero]
    simp only [Nat.zero_add, Nat.sub_zero]
  · rw [if_neg hle]

section Amsdu
variable {hw : Hw} {env : Env} {hdr : HwRxhdr}

theorem amsduTurn_absent (k : ℕ) {skb : SkBuff} (h : present skb = false) :
    amsduTurn hw env hdr k skb = .stop true := by
  unfold amsduTurn
  simp only [present, Bool.and_eq_false_imp, decide_eq_true_eq, decide_eq_false_iff_not] at h
  by_cases hlen : skb.len ≤ 16
  · rw [if_pos hlen]
  · have hpast : skb.len < subLen skb+14 := by
      have := h (by omega)
      omega
    rw [if_neg hlen, if_pos hpast]

/-- The four ways a sub-frame can go. -/
theorem amsduTurn_unreadable (k : ℕ) {skb : SkBuff} (h : present skb = true)
    (hread : ¬ Readable env k skb) : amsduTurn hw env hdr k skb = .stop false := by
  simp only [present, Bool.and_eq_true, decide_eq_true_eq] at h
  have hlong : ¬ skb.len ≤ 16 := by omega
  have hin : ¬ skb.len < subLen skb+14 := by omega
  have hbad : (!env.subAlloc k || decide (subLen skb < 6)) = true := by
    simp only [Readable, not_and_or, not_le] at hread
    simpa using hread
  rw [amsduTurn, if_neg hlong, if_neg hin, if_pos hbad]

theorem amsduTurn_readable (k : ℕ) {skb : SkBuff} (h : present skb = true)
    (hread : Readable env k skb) :
    amsduTurn hw env hdr k skb = match getVif hw hdr.flagsVifIdx with
      | none => .stop true
      | some vif =>
        match rxDataOrFree hw hdr vif (subSkb skb) (env.amsduTo8023s k) with
        | none => .stop false
        | some _ => .next (skbPull (lenAligned skb) skb) [] := by
  simp only [present, Bool.and_eq_true, decide_eq_true_eq] at h
  have hlong : ¬ skb.len ≤ 16 := by omega
  have hin : ¬ skb.len < subLen skb+14 := by omega
  have hgood : ¬ (!env.subAlloc k || decide (subLen skb < 6)) = true := by
    simpa [Readable] using hread
  rw [amsduTurn, if_neg hlong, if_neg hin]
  exact if_neg hgood

theorem amsduTurn_noVif (k : ℕ) {skb : SkBuff} (h : present skb = true)
    (hread : Readable env k skb) (hvif : getVif hw hdr.flagsVifIdx = none) :
    amsduTurn hw env hdr k skb = .stop true := by
  rw [amsduTurn_readable k h hread, hvif]

theorem amsduTurn_fails (k : ℕ) {skb : SkBuff} {vif : Vif} (h : present skb = true)
    (hread : Readable env k skb) (hvif : getVif hw hdr.flagsVifIdx = some vif)
    (hsplit : SplitFails hdr vif (env.amsduTo8023s k)) :
    amsduTurn hw env hdr k skb = .stop false := by
  have hnone : rxDataOrFree hw hdr vif (subSkb skb) (env.amsduTo8023s k) = none :=
    rxDataOrFree_none.mpr hsplit
  rw [amsduTurn_readable k h hread, hvif]
  dsimp only
  rw [hnone]

theorem amsduTurn_next (k : ℕ) {skb : SkBuff} {vif : Vif} (h : present skb = true)
    (hread : Readable env k skb) (hvif : getVif hw hdr.flagsVifIdx = some vif)
    (hsplit : ¬ SplitFails hdr vif (env.amsduTo8023s k)) :
    amsduTurn hw env hdr k skb = .next (skbPull (lenAligned skb) skb) [] := by
  have hsome : rxDataOrFree hw hdr vif (subSkb skb) (env.amsduTo8023s k) ≠ none :=
    rxDataOrFree_none.not.mpr hsplit
  obtain ⟨us, hus⟩ := Option.ne_none_iff_exists'.mp hsome
  rw [amsduTurn_readable k h hread, hvif]
  dsimp only
  rw [hus]

/-- A turn goes on exactly behind a sub-frame that was handed on. -/
theorem amsduTurn_goes_on {k : ℕ} {skb skb' : SkBuff} {out : List Unit}
    (h : amsduTurn hw env hdr k skb = .next skb' out) : present skb = true ∧ Readable env k skb ∧
      skb' = skbPull (lenAligned skb) skb ∧ ∃ vif, getVif hw hdr.flagsVifIdx = some vif ∧
        ¬ SplitFails hdr vif (env.amsduTo8023s k) := by
  have hp : present skb = true := by
    by_contra habsent
    rw [amsduTurn_absent k (Bool.eq_false_iff.mpr habsent)] at h
    cases h
  have hread : Readable env k skb := by
    by_contra hbad
    rw [amsduTurn_unreadable k hp hbad] at h
    cases h
  cases hvif : getVif hw hdr.flagsVifIdx with
  | none =>
    rw [amsduTurn_noVif k hp hread hvif] at h
    cases h
  | some vif =>
    have hsplit : ¬ SplitFails hdr vif (env.amsduTo8023s k) := by
      intro hfail
      rw [amsduTurn_fails k hp hread hvif hfail] at h
      cases h
    rw [amsduTurn_next k hp hread hvif hsplit] at h
    injection h with hskb _
    exact ⟨hp, hread, hskb.symm, vif, rfl, hsplit⟩

theorem amsduFits_nil (k : ℕ) : AmsduFits hw env hdr k [] := by
  unfold AmsduFits
  cases getVif hw hdr.flagsVifIdx <;> simp

/-- The loop that ends well found every sub-frame in order. -/
theorem amsduFits_of_ends {k : ℕ} {skb : SkBuff} {res : Bool} {out : List Unit}
    (h : Ends (amsduTurn hw env hdr) k skb res out) (hres : res = true) (n : ℕ) :
    AmsduFits hw env hdr k (subframes n skb) := by
  induction h generalizing n with
  | @stop k skb res here =>
    subst hres
    cases n with
    | zero => exact amsduFits_nil k
    | succ n =>
      cases hp : present skb with
      | false =>
        simp only [subframes, hp, Bool.false_eq_true, if_false]
        exact amsduFits_nil k
      | true =>
        have hread : Readable env k skb := by
          by_contra hbad
          rw [amsduTurn_unreadable k hp hbad] at here
          cases here
        unfold AmsduFits
        cases hvif : getVif hw hdr.flagsVifIdx with
        | none => simpa [subframes, hp] using hread
        | some vif =>
          by_cases hsplit : SplitFails hdr vif (env.amsduTo8023s k)
          · rw [amsduTurn_fails k hp hread hvif hsplit] at here
            cases here
          · rw [amsduTurn_next k hp hread hvif hsplit] at here
            cases here
  | @next k skb skb' res o rest here more ih =>
    obtain ⟨hp, hread, hnext, vif, hvif, hsplit⟩ := amsduTurn_goes_on here
    have hih := ih hres
    unfold AmsduFits at hih ⊢
    rw [hvif] at hih ⊢
    dsimp only at hih ⊢
    -- a buffer that is not advanced would be its own rest, whose first sub-frame advances
    have hadvances : Advances skb := by
      by_contra hstuck
      rw [hnext, skbPull_stuck hstuck] at hih
      exact hstuck (hih 1 0 skb (by simp [subframes, hp])).2.1
    intro i f hf
    cases n with
    | zero => simp [subframes] at hf
    | succ n =>
      simp only [subframes, hp, if_true] at hf
      cases i with
      | zero =>
        obtain rfl : skb = f := by simpa using hf
        exact ⟨hread, hadvances, hsplit⟩
      | succ i =>
        rw [List.getElem?_cons_succ, ← hnext] at hf
        have hi : k+(i+1) = k+1+i := by omega
        rw [hi]
        exact hih n i f hf

theorem amsdu_ends {n : ℕ} {k : ℕ} {skb : SkBuff} (hn : skb.len ≤ n)
    (h : AmsduFits hw env hdr k (subframes n skb)) :
    ∃ out, Ends (amsduTurn hw env hdr) k skb true out := by
  induction n generalizing k skb with
  | zero =>
    have hp : present skb = false := by
      rw [present, Nat.le_zero.mp hn]
      rfl
    exact ⟨[], .stop (amsduTurn_absent k hp)⟩
  | succ n ih =>
    cases hp : present skb with
    | false => exact ⟨[], .stop (amsduTurn_absent k hp)⟩
    | true =>
      simp only [subframes, hp, if_true] at h
      unfold AmsduFits at h
      cases hvif : getVif hw hdr.flagsVifIdx with
      | none =>
        rw [hvif] at h
        exact ⟨[], .stop (amsduTurn_noVif k hp (h skb rfl) hvif)⟩
      | some vif =>
        rw [hvif] at h
        obtain ⟨hread, hadvances, hsplit⟩ := h 0 skb rfl
        rw [Nat.add_zero] at hread hsplit
        have hlen : (skbPull (lenAligned skb) skb).len ≤ n := by
          unfold skbPull
          rw [if_pos hadvances.2]
          have hpos := hadvances.1
          show skb.len-lenAligned skb ≤ n
          omega
        have hrest : AmsduFits hw env hdr (k+1) (subframes n (skbPull (lenAligned skb) skb)) := by
          unfold AmsduFits
          rw [hvif]
          intro i f hf
          have hi : k+1+i = k+(i+1) := by omega
          rw [hi]
          exact h (i+1) f (by rwa [List.getElem?_cons_succ])
        obtain ⟨out, hout⟩ := ih hlen hrest
        exact ⟨_, .next (amsduTurn_next k hp hread hvif hsplit) hout⟩

end Amsdu

end AIC.RxDataAmsdu
