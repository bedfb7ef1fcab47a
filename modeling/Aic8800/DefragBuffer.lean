import Aic8800.DefragIntegrity

/-!
# The buffer of a reassembly

How many bytes the fragments of one context come to, against the 2000 bytes
that are allocated for it, and what a fragment that is dropped leaves behind.
Neither the lengths nor their sum are checked. Every drop leaves the contexts as
they are but the one behind the last fragment, where no interface is found.
-/

set_option autoImplicit false

namespace AIC.DefragBuffer
open AIC.DefragMachine AIC.DefragMachine.RxFrame AIC.DefragIntegrity Lib.Trace

/-! ## Lengths -/

/-- The bytes of the first fragment, and what a later one adds. -/
def firstLen (f : RxFrame) : ℕ :=
  14+(if f.skb.len < f.pullLen then f.skb.len else f.skb.len-f.pullLen)

def laterLen (f : RxFrame) : ℕ := f.skb.len-(f.pullLen-8)

def reassembledLen : List RxFrame → ℕ
  | [] => 0
  | f::fs => firstLen f+(fs.map laterLen).sum

theorem body_length (f : RxFrame) : f.body.length = laterLen f := by
  simp [body, SkBuff.slice, laterLen]

theorem ethernet_length (f : RxFrame) : f.ethernet.length = firstLen f := by
  have hra : f.ra.length = 6 := by
    unfold ra
    split_ifs <;> simp [SkBuff.slice]
  have hta : f.ta.length = 6 := by
    unfold ta
    split_ifs <;> simp [SkBuff.slice]
  have hrest : (if f.skb.len < f.pullLen then f.skb.bytes
      else f.skb.slice f.pullLen (f.skb.len-f.pullLen)).length =
      if f.skb.len < f.pullLen then f.skb.len else f.skb.len-f.pullLen := by
    split_ifs <;> simp [SkBuff.bytes, SkBuff.slice]
  simp only [ethernet, List.length_append, hra, hta, hrest, firstLen]
  simp [etherType, SkBuff.slice]

theorem reassembledLen_append {fs : List RxFrame} (h : fs ≠ []) (f : RxFrame) :
    reassembledLen (fs++[f]) = reassembledLen fs+laterLen f := by
  cases fs with
  | nil => exact absurd rfl h
  | cons g gs =>
    simp [reassembledLen]
    omega

/-- No later fragment is shorter than its header, and the buffer holds all of them. -/
structure LengthsFit (fs : List RxFrame) : Prop where
  headers : ∀ g ∈ fs.tail, g.pullLen-8 ≤ g.skb.len
  total : reassembledLen fs ≤ 2000

/-- The fragments of the context that a frame is taken into, that frame the last of them. -/
def accepted (hw : RwnxHw) : Event → Option (List RxFrame)
  | .timeout _ => none
  | .rx f alloc _ =>
    if hw.oops || !fragPath f || (!f.moreFrag && f.fragNum == 0) then none
    else
      match findDefrag f hw.defragList with
      | some c => if c.nextFn = f.fragNum then some (c.frags++[f]) else none
      | none => if f.moreFrag && alloc then some [f] else none

def Fits (hw : RwnxHw) (e : Event) : Prop := ∀ fs ∈ accepted hw e, LengthsFit fs

/-- What `frm_len` says of a context is what its fragments come to. -/
structure Sized (c : DefragCtrlInfo) : Prop where
  nonempty : c.frags ≠ []
  len : c.frmLen = c.skb.length
  count : c.frmLen = reassembledLen c.frags
  fits : LengthsFit c.frags

/-- No length was negative, no `skb_put` ran over, and every context is inside its buffer. -/
structure Inside (hw : RwnxHw) : Prop where
  sound : hw.oops = false
  contexts : ∀ c ∈ hw.defragList, Sized c

theorem tail_append {fs : List RxFrame} (h : fs ≠ []) (f : RxFrame) :
    (fs++[f]).tail = fs.tail++[f] := by
  cases fs with
  | nil => exact absurd rfl h
  | cons g gs => rfl

/-- The three calls that fill the buffer. -/
theorem append_iff {c : DefragCtrlInfo} (h : Sized c) (f : RxFrame) :
    (∃ d, c.append 2000 f = some d) ↔ LengthsFit (c.frags++[f]) := by
  have hcount := reassembledLen_append h.nonempty f
  have hbody := body_length f
  have hlen := h.len
  have hsum := h.count
  unfold DefragCtrlInfo.append
  constructor
  · rintro ⟨d, hd⟩
    split_ifs at hd with hneg hover
    refine ⟨?_, by omega⟩
    intro g hg
    rw [tail_append h.nonempty] at hg
    rcases List.mem_append.mp hg with hg | hg
    · exact h.fits.headers g hg
    · rw [List.mem_singleton.mp hg]
      omega
  · intro hfit
    have hneg : ¬ f.skb.len < f.pullLen-8 := by
      have := hfit.headers f (by rw [tail_append h.nonempty]; simp)
      omega
    have htotal := hfit.total
    rw [if_neg hneg, if_neg (by omega)]
    exact ⟨_, rfl⟩

theorem append_sized {c d : DefragCtrlInfo} (h : Sized c) {f : RxFrame}
    (hd : c.append 2000 f = some d) (n : ℕ) : Sized { d with nextFn := n } := by
  have hfit := (append_iff h f).mp ⟨d, hd⟩
  unfold DefragCtrlInfo.append at hd
  split_ifs at hd
  obtain rfl := Option.some.inj hd
  refine ⟨by simp, ?_, ?_, hfit⟩
  · show c.frmLen+f.body.length = _
    rw [h.len, copyAt_end, List.length_append]
  · show c.frmLen+f.body.length = reassembledLen (c.frags++[f])
    rw [reassembledLen_append h.nonempty, body_length, h.count]

theorem start_iff (f : RxFrame) :
    (∃ d, DefragCtrlInfo.start 2000 f = some d) ↔ LengthsFit [f] := by
  have hlen := ethernet_length f
  have hcount : reassembledLen [f] = firstLen f := by simp [reassembledLen]
  unfold DefragCtrlInfo.start
  constructor
  · rintro ⟨d, hd⟩
    split_ifs at hd with hover
    exact ⟨by simp, by omega⟩
  · intro hfit
    have htotal := hfit.total
    rw [if_neg (by omega)]
    exact ⟨_, rfl⟩

theorem start_sized {f : RxFrame} {d : DefragCtrlInfo}
    (hd : DefragCtrlInfo.start 2000 f = some d) : Sized d := by
  have hfit := (start_iff f).mp ⟨d, hd⟩
  unfold DefragCtrlInfo.start at hd
  split_ifs at hd
  obtain rfl := Option.some.inj hd
  exact ⟨by simp, rfl, by simp [reassembledLen, ethernet_length], hfit⟩

/-! ## Runs -/

section Frame
variable {hw : RwnxHw} {f : RxFrame} {alloc vif : Bool}

theorem sized_put {d : Option DefragCtrlInfo} (h : ∀ c ∈ hw.defragList, Sized c)
    (hd : ∀ c ∈ d, Sized c) : ∀ c ∈ putDefrag f d hw.defragList, Sized c := by
  intro c hc
  rcases mem_put hc with hc | hc
  · exact hd c hc.symm
  · exact h c hc

theorem moreFragment_sized (h : ∀ c ∈ hw.defragList, Sized c) :
    ∀ c ∈ (moreFragment 2000 hw f alloc).1.defragList, Sized c := by
  unfold moreFragment
  cases hf : findDefrag f hw.defragList with
  | some c =>
    dsimp only
    split_ifs
    · exact h
    cases hd : c.append 2000 f with
    | none => exact h
    | some d =>
      refine sized_put h ?_
      intro x hx
      obtain rfl := Option.some.inj hx
      exact append_sized (h c (find_spec hf).1) hd _
  | none =>
    dsimp only
    split_ifs
    · exact h
    cases hd : DefragCtrlInfo.start 2000 f with
    | none => exact h
    | some d =>
      intro c hc
      rcases List.mem_append.mp hc with hc | hc
      · exact h c hc
      · rw [List.mem_singleton.mp hc]
        exact start_sized hd

theorem lastFragment_sized (h : ∀ c ∈ hw.defragList, Sized c) :
    ∀ c ∈ (lastFragment 2000 hw f vif).1.defragList, Sized c := by
  unfold lastFragment
  cases hf : findDefrag f hw.defragList with
  | some c =>
    by_cases hn : c.nextFn = f.fragNum
    swap
    · simpa [hn] using h
    simp only [hn, ne_eq, not_true_eq_false, if_false]
    cases hd : c.append 2000 f with
    | none => exact h
    | some d =>
      cases vif with
      | true => exact sized_put h (by simp)
      | false =>
        refine sized_put h ?_
        intro x hx
        obtain rfl := Option.some.inj hx
        exact append_sized (h c (find_spec hf).1) hd _
  | none => exact h

theorem step_sized (h : ∀ c ∈ hw.defragList, Sized c) (e : Event) :
    ∀ c ∈ (step 2000 hw e).1.defragList, Sized c := by
  unfold step
  cases e with
  | rx f alloc vif =>
    dsimp only
    unfold rwnxRxdataind
    split_ifs
    all_goals first
      | exact h
      | exact moreFragment_sized h
      | exact lastFragment_sized h
  | timeout i =>
    dsimp only
    split_ifs
    · exact h
    · exact fun c hc => h c (List.mem_of_mem_eraseIdx hc)

/-- Behind a look-up the machine stops exactly at a context that the fragment does not fit. -/
theorem moreFragment_sound (hs : hw.oops = false) (h : ∀ c ∈ hw.defragList, Sized c) :
    (moreFragment 2000 hw f alloc).1.oops = false ↔
      match findDefrag f hw.defragList with
      | some c => c.nextFn = f.fragNum → LengthsFit (c.frags++[f])
      | none => alloc = true → LengthsFit [f] := by
  unfold moreFragment
  cases hf : findDefrag f hw.defragList with
  | some c =>
    dsimp only
    by_cases hn : c.nextFn = f.fragNum
    · rw [← append_iff (h c (find_spec hf).1)]
      cases c.append 2000 f <;> simp [hn, hs]
    · simp [hn, hs]
  | none =>
    dsimp only
    rw [← start_iff]
    cases alloc
    · simp [hs]
    · cases DefragCtrlInfo.start 2000 f <;> simp [hs]

theorem lastFragment_sound (hs : hw.oops = false) (h : ∀ c ∈ hw.defragList, Sized c) :
    (lastFragment 2000 hw f vif).1.oops = false ↔
      ∀ c, findDefrag f hw.defragList = some c → c.nextFn = f.fragNum →
        LengthsFit (c.frags++[f]) := by
  unfold lastFragment
  cases hf : findDefrag f hw.defragList with
  | some c =>
    simp only [Option.some.injEq, forall_eq']
    by_cases hn : c.nextFn = f.fragNum
    · rw [← append_iff (h c (find_spec hf).1)]
      cases c.append 2000 f with
      | none => simp [hn]
      | some d => cases vif <;> simp [hn, hs]
    · simp [hn, hs]
  | none => simpa using hs

theorem rx_sound (hs : hw.oops = false) (h : ∀ c ∈ hw.defragList, Sized c) :
    (rwnxRxdataind 2000 hw f alloc vif).1.oops = false ↔ Fits hw (.rx f alloc vif) := by
  unfold rwnxRxdataind Fits accepted fragPath
  dsimp only
  rw [hs]
  cases hd : f.isData with
  | false => simpa using hs
  | true =>
    cases ha : f.isAmsdu with
    | true => simpa using hs
    | false =>
      cases hr : f.flagsNeedReord with
      | true => simpa using hs
      | false =>
        cases hm : f.moreFrag with
        | true =>
          simp only [Bool.not_false, Bool.not_true, Bool.true_or, Bool.and_self, Bool.or_self,
            Bool.false_and, Bool.true_and, Bool.false_eq_true, if_true, if_false]
          rw [moreFragment_sound hs h]
          cases findDefrag f hw.defragList with
          | some c => by_cases hn : c.nextFn = f.fragNum <;> simp [hn]
          | none => cases alloc <;> simp
        | false =>
          by_cases hzero : f.fragNum = 0
          · simpa [hzero] using hs
          · have hne : (f.fragNum == 0) = false := by simpa using hzero
            simp only [bne, hne, Bool.not_false, Bool.not_true, Bool.false_or, Bool.and_self,
              Bool.and_false, Bool.or_self, Bool.false_and, Bool.false_eq_true, if_true, if_false]
            rw [lastFragment_sound hs h]
            cases findDefrag f hw.defragList with
            | some c => by_cases hn : c.nextFn = f.fragNum <;> simp [hn]
            | none => simp

end Frame

/-- The machine does not go on from an overrun. -/
theorem step_oops {hw : RwnxHw} (h : hw.oops = true) (e : Event) :
    (step 2000 hw e).1.oops = true := by
  cases e <;> simp [step, h]

theorem step_inside {hw : RwnxHw} (h : Inside hw) (e : Event) :
    (step 2000 hw e).1.oops = false ↔ Fits hw e := by
  cases e with
  | rx f alloc vif =>
    have hstep : step 2000 hw (.rx f alloc vif) = rwnxRxdataind 2000 hw f alloc vif := by
      rw [step, h.sound]
      rfl
    rw [hstep]
    exact rx_sound h.sound h.contexts
  | timeout i =>
    have hstep : step 2000 hw (.timeout i) =
        ({ hw with defragList := hw.defragList.eraseIdx i }, []) := by
      rw [step, h.sound]
      rfl
    rw [hstep]
    refine ⟨?_, fun _ => h.sound⟩
    intro _ fs hfs
    cases hfs

theorem run_sized (es : List Event) : ∀ c ∈ (run (step 2000) init es).1.defragList, Sized c :=
  run_history (P := fun _ (hw : RwnxHw) _ => ∀ c ∈ hw.defragList, Sized c) (by simp [init]) es
    fun _ e _ _ _ h => step_sized h e

theorem run_sound (es : List Event) :
    (run (step 2000) init es).1.oops = false ↔ Along (step 2000) Fits init es := by
  induction es using List.reverseRecOn with
  | nil => simp [run, init, Along]
  | append_singleton es e ih =>
    rw [run_concat, along_concat, ← ih]
    cases hs : (run (step 2000) init es).1.oops with
    | true => simp [step_oops hs]
    | false =>
      rw [step_inside ⟨hs, run_sized es⟩]
      simp

/-- A run stays inside its buffers exactly if the fragments it accepts fit them. -/
theorem run_inside_iff (es : List Event) :
    Inside (run (step 2000) init es).1 ↔ Along (step 2000) Fits init es := by
  rw [← run_sound]
  exact ⟨Inside.sound, fun h => ⟨h, run_sized es⟩⟩

/-- `n` bytes behind a header without QoS, HTC and cipher. -/
def longFragment (n : ℕ) (fn : UInt8) (more : Bool) : RxFrame where
  skb := SkBuff.ofList ([0x08, if more then 0x05 else 0x01, 0, 0]++List.replicate 18 1++
    [fn, 0]++List.replicate n 0xAA)
  decrStatus := 0
  flagsDstIdx := 0xFF
  flagsNeedReord := false
  flagsIs80211Mpdu := false

/-- A fragment that ends inside its cipher header, and two that are too long together. -/
theorem overruns :
    ¬ Inside (run (step 2000) init [.rx (longFragment 40 0 true) true true,
      .rx { longFragment 4 1 false with decrStatus := RWNX_RX_HD_DECR_CCMP128 } true true]).1 ∧
    ¬ Inside (run (step 2000) init [.rx (longFragment 1400 0 true) true true,
      .rx (longFragment 1400 1 false) true true]).1 := by
  constructor
  · intro h
    exact absurd h.sound (by decide +kernel)
  · intro h
    exact absurd h.sound (by decide +kernel)

/-! ## Without the record of fragments -/

def forgetCtx (c : DefragCtrlInfo) : DefragCtrlInfo := { c with frags := [] }

def forget (hw : RwnxHw) : RwnxHw := { hw with defragList := hw.defragList.map forgetCtx }

def forgetOut : Outcome → Outcome
  | .reassembled skb _ => .reassembled skb []
  | o => o

def forgetBoth (r : RwnxHw × List Outcome) : RwnxHw × List Outcome :=
  (forget r.1, r.2.map forgetOut)

/-- Nothing is read from the record, call after call. -/
theorem find_forget (f : RxFrame) (cs : List DefragCtrlInfo) :
    findDefrag f (cs.map forgetCtx) = (findDefrag f cs).map forgetCtx := by
  unfold findDefrag
  rw [List.find?_map]
  rfl

theorem put_forget (d d' : Option DefragCtrlInfo) (h : d'.map forgetCtx = d.map forgetCtx)
    (f : RxFrame) (cs : List DefragCtrlInfo) :
    (putDefrag f d' (cs.map forgetCtx)).map forgetCtx = (putDefrag f d cs).map forgetCtx := by
  have hidem : (cs.map forgetCtx).map forgetCtx = cs.map forgetCtx := by
    rw [List.map_map]
    rfl
  have hlist : d'.toList.map forgetCtx = d.toList.map forgetCtx := by
    cases d <;> cases d' <;> simp_all
  induction cs with
  | nil => rfl
  | cons c cs ih =>
    have hm : (forgetCtx c).matches f = c.matches f := rfl
    rw [List.map_cons, List.map_cons, List.cons.injEq] at hidem
    rw [List.map_cons, putDefrag, putDefrag, hm]
    split_ifs
    · rw [List.map_append, List.map_append, hlist, hidem.2]
    · rw [List.map_cons, List.map_cons, ih hidem.2]
      rfl

theorem append_forget (tailroom : ℕ) (c : DefragCtrlInfo) (f : RxFrame) :
    (forgetCtx c).append tailroom f =
      (c.append tailroom f).map fun d => { d with frags := [f] } := by
  unfold DefragCtrlInfo.append forgetCtx
  dsimp only
  split_ifs <;> rfl

section Frame
variable {tailroom : ℕ} {hw hw' : RwnxHw} {f : RxFrame} {alloc vif : Bool}

theorem moreFragment_forget : forgetBoth (moreFragment tailroom (forget hw) f alloc) =
    forgetBoth (moreFragment tailroom hw f alloc) := by
  unfold moreFragment
  have hfind : findDefrag f (forget hw).defragList =
      (findDefrag f hw.defragList).map forgetCtx := find_forget f hw.defragList
  rw [hfind]
  cases findDefrag f hw.defragList with
  | some c =>
    have hnext : (forgetCtx c).nextFn = c.nextFn := rfl
    dsimp only [Option.map_some]
    rw [hnext, append_forget]
    split_ifs
    · simp [forgetBoth, forget, forgetOut, forgetCtx]
    cases c.append tailroom f with
    | none => simp [forgetBoth, forget, forgetCtx]
    | some d =>
      have hput := put_forget (some { d with nextFn := d.nextFn+1 })
        (some { d with frags := [f], nextFn := d.nextFn+1 }) rfl f hw.defragList
      simp only [forgetBoth, forget, Option.map_some, hput]
  | none =>
    dsimp only [Option.map_none]
    split_ifs
    · simp [forgetBoth, forget, forgetOut, forgetCtx]
    cases DefragCtrlInfo.start tailroom f with
    | none => simp [forgetBoth, forget, forgetCtx]
    | some d => simp [forgetBoth, forget, forgetCtx]

theorem lastFragment_forget : forgetBoth (lastFragment tailroom (forget hw) f vif) =
    forgetBoth (lastFragment tailroom hw f vif) := by
  unfold lastFragment
  have hfind : findDefrag f (forget hw).defragList =
      (findDefrag f hw.defragList).map forgetCtx := find_forget f hw.defragList
  rw [hfind]
  cases findDefrag f hw.defragList with
  | some c =>
    have hnext : (forgetCtx c).nextFn = c.nextFn := rfl
    dsimp only [Option.map_some]
    rw [hnext, append_forget]
    by_cases hn : c.nextFn = f.fragNum
    swap
    · simp [hn, forgetBoth, forget, forgetCtx]
    simp only [hn, ne_eq, not_true_eq_false, if_false]
    cases c.append tailroom f with
    | none => simp [forgetBoth, forget, forgetCtx]
    | some d =>
      cases vif with
      | true =>
        have hput := put_forget none none rfl f hw.defragList
        simp only [forgetBoth, forget, Option.map_some, hput, if_true]
        rfl
      | false =>
        have hput := put_forget (some d) (some { d with frags := [f] }) rfl f hw.defragList
        simp only [forgetBoth, forget, Option.map_some, hput, Bool.false_eq_true, if_false]
  | none => simp [forgetBoth, forget, forgetCtx]

theorem step_forget_self (e : Event) :
    forgetBoth (step tailroom (forget hw) e) = forgetBoth (step tailroom hw e) := by
  have hsame : forget (forget hw) = forget hw := by simp [forget, forgetCtx]
  have hoops : (forget hw).oops = hw.oops := rfl
  cases e with
  | rx f alloc vif =>
    unfold step rwnxRxdataind
    dsimp only
    rw [hoops]
    split_ifs
    all_goals first
      | exact moreFragment_forget
      | exact lastFragment_forget
      | simp only [forgetBoth, hsame]
  | timeout i =>
    unfold step
    dsimp only
    rw [hoops]
    split_ifs
    · simp only [forgetBoth, hsame]
    · simp [forgetBoth, forget, forgetCtx, List.eraseIdx_map]

/-- States that differ in the record only go on in the same way. -/
theorem run_forget (h : forget hw = forget hw') (es : List Event) :
    (run (step tailroom) hw es).2.map forgetOut = (run (step tailroom) hw' es).2.map forgetOut := by
  induction es generalizing hw hw' with
  | nil => rfl
  | cons e es ih =>
    have hstep : forgetBoth (step tailroom hw e) = forgetBoth (step tailroom hw' e) := by
      rw [← step_forget_self, h, step_forget_self]
    have hstate := ih (congrArg Prod.fst hstep)
    have hout := congrArg Prod.snd hstep
    simp only [run, List.map_append, hstate]
    rw [show (step tailroom hw e).2.map forgetOut = _ from hout]
    rfl

end Frame

/-! ## Fragments that are dropped -/

/-- The contexts are the same, and whatever comes next is handled as if nothing had come. -/
structure Kept (tailroom : ℕ) (hw hw' : RwnxHw) : Prop where
  contexts : forget hw' = forget hw
  later : ∀ es, (run (step tailroom) hw' es).2.map forgetOut =
    (run (step tailroom) hw es).2.map forgetOut

/-- The last fragment is next in its context and adds bytes to it before the interface is looked
up, which is not there. -/
def Spoils (tailroom : ℕ) (hw : RwnxHw) (f : RxFrame) (vif : Bool) : Prop :=
  fragPath f = true ∧ f.moreFrag = false ∧ f.fragNum ≠ 0 ∧ vif = false ∧
    ∃ c, findDefrag f hw.defragList = some c ∧ c.nextFn = f.fragNum ∧
      f.pullLen-8 < f.skb.len ∧ c.skb.length+laterLen f ≤ tailroom

section Frame
variable {tailroom : ℕ} {hw : RwnxHw} {f : RxFrame} {alloc vif : Bool}

theorem kept_iff {hw' : RwnxHw} : Kept tailroom hw hw' ↔ forget hw' = forget hw :=
  ⟨Kept.contexts, fun h => ⟨h, run_forget h⟩⟩

theorem moreFragment_kept (h : .discard ∈ (moreFragment tailroom hw f alloc).2) :
    (moreFragment tailroom hw f alloc).1 = hw := by
  unfold moreFragment at h ⊢
  cases hf : findDefrag f hw.defragList with
  | some c =>
    simp only [hf] at h
    dsimp only
    split_ifs at h ⊢
    · rfl
    · cases hd : c.append tailroom f <;> simp [hd] at h
  | none =>
    simp only [hf] at h
    dsimp only
    split_ifs at h ⊢
    · rfl
    · cases hd : DefragCtrlInfo.start tailroom f <;> simp [hd] at h

theorem append_none {c : DefragCtrlInfo} : c.append tailroom f = none ↔
    f.skb.len < f.pullLen-8 ∨ tailroom < c.skb.length+laterLen f := by
  unfold DefragCtrlInfo.append
  rw [body_length]
  split_ifs with hneg hover
  · simp [hneg]
  · simp [hover]
  · simp [hneg, hover]

/-- What is left in the context behind a last fragment without an interface. -/
theorem append_same {c d : DefragCtrlInfo} (hd : c.append tailroom f = some d) :
    forgetCtx d = forgetCtx c ↔ laterLen f = 0 := by
  unfold DefragCtrlInfo.append at hd
  split_ifs at hd
  obtain rfl := Option.some.inj hd
  rw [← body_length]
  constructor
  · intro h
    have hlen : c.frmLen+f.body.length = c.frmLen := congrArg DefragCtrlInfo.frmLen h
    omega
  · intro h
    have hnil : f.body = [] := List.length_eq_zero_iff.mp h
    simp [forgetCtx, hnil, copyAt]

theorem put_same {d c : DefragCtrlInfo} {cs : List DefragCtrlInfo}
    (h : findDefrag f cs = some c) :
    (putDefrag f (some d) cs).map forgetCtx = cs.map forgetCtx ↔ forgetCtx d = forgetCtx c := by
  induction cs with
  | nil => cases h
  | cons x xs ih =>
    unfold findDefrag at h
    rw [List.find?_cons] at h
    rw [putDefrag]
    cases hx : x.matches f with
    | true =>
      simp only [hx, Option.some.injEq] at h
      simp [h]
    | false =>
      simp only [hx] at h
      simp [ih h]

theorem lastFragment_kept :
    (.discard ∈ (lastFragment tailroom hw f vif).2 →
      forget (lastFragment tailroom hw f vif).1 = forget hw) ↔
    ¬ (vif = false ∧ ∃ c, findDefrag f hw.defragList = some c ∧ c.nextFn = f.fragNum ∧
      f.pullLen-8 < f.skb.len ∧ c.skb.length+laterLen f ≤ tailroom) := by
  unfold lastFragment
  cases hf : findDefrag f hw.defragList with
  | none => simp
  | some c =>
    simp only [Option.some.injEq, exists_eq_left']
    by_cases hn : c.nextFn = f.fragNum
    swap
    · simp [hn]
    simp only [hn, ne_eq, not_true_eq_false, if_false, true_and]
    cases hd : c.append tailroom f with
    | none =>
      have hbad := append_none.mp hd
      simp only [List.not_mem_nil, false_implies, true_iff, not_and]
      intro _ hlong
      omega
    | some d =>
      have hgood := append_none.not.mp (by rw [hd]; exact Option.some_ne_none d)
      rw [not_or] at hgood
      cases vif with
      | true => simp
      | false =>
        simp only [Bool.false_eq_true, if_false, List.mem_singleton, forall_true_left, true_and]
        have hlist : forget { hw with defragList := putDefrag f (some d) hw.defragList } =
            forget hw ↔ laterLen f = 0 := by
          rw [← append_same hd, ← put_same hf]
          simp [forget]
        rw [hlist, laterLen] 
        rw [laterLen] at hgood
        omega

/-- A frame that is dropped changes nothing, but for a last fragment that is dropped behind the
copy. -/
theorem discard_keeps_iff (tailroom : ℕ) (hw : RwnxHw) (f : RxFrame) (alloc vif : Bool) :
    (.discard ∈ (rwnxRxdataind tailroom hw f alloc vif).2 →
      Kept tailroom hw (rwnxRxdataind tailroom hw f alloc vif).1) ↔
    ¬ Spoils tailroom hw f vif := by
  rw [kept_iff]
  unfold rwnxRxdataind Spoils fragPath
  cases hd : f.isData with
  | false => simp
  | true =>
    cases ha : f.isAmsdu with
    | true => simp
    | false =>
      cases hr : f.flagsNeedReord with
      | true => simp
      | false =>
        cases hm : f.moreFrag with
        | true =>
          simp only [Bool.not_false, Bool.true_or, Bool.and_self, if_true,
            Bool.false_eq_true, if_false, Bool.true_eq_false, false_and, and_false,
            not_false_eq_true, iff_true]
          intro h
          rw [moreFragment_kept h]
        | false =>
          by_cases hzero : f.fragNum = 0
          · simp [hzero]
          · have hne : (f.fragNum != 0) = true := by simpa using hzero
            simp only [hne, Bool.not_false, Bool.or_true, Bool.and_self, if_true,
              Bool.false_eq_true, if_false, true_and, ne_eq, hzero, not_false_eq_true]
            exact lastFragment_kept

end Frame

/-- The context of fragment 0 of an MSDU. -/
def halfway : RwnxHw := (step 2000 init (.rx (longFragment 10 0 true) true true)).1

/-- The last fragment comes while no interface is up: it is dropped, and its bytes stay. When it
comes again they are handed up twice. -/
theorem spoiled_reassembly :
    ¬ (.discard ∈ (rwnxRxdataind 2000 halfway (longFragment 2 1 false) true false).2 →
      Kept 2000 halfway (rwnxRxdataind 2000 halfway (longFragment 2 1 false) true false).1) ∧
    ∃ fs, (run (step 2000) halfway [.rx (longFragment 2 1 false) true false,
        .rx (longFragment 2 1 false) true true]).2 =
      [.discard, .reassembled ((longFragment 10 0 true).ethernet++
        (longFragment 2 1 false).body++(longFragment 2 1 false).body) fs] := by
  constructor
  · intro h
    have hout : (rwnxRxdataind 2000 halfway (longFragment 2 1 false) true false).2 =
        [.discard] := rfl
    have hkept := (h (by rw [hout]; simp)).contexts
    have hlen := congrArg (fun hw => hw.defragList.map DefragCtrlInfo.frmLen) hkept
    exact absurd hlen (by decide +kernel)
  · exact ⟨_, rfl⟩

end AIC.DefragBuffer
