import Aic8800.DefragMachine

/-!
# What reassembly hands up

A context holds fragments 0, 1, ... of one MSDU as long as every fragment with
another number that is not dropped continues a context of its own transmitter.
The machine does not see to that: it compares the sequence number, the TID and
the destination index, starts a context from any number, and lets a last
fragment without a context pass as a frame.
-/

set_option autoImplicit false

namespace AIC.DefragIntegrity
open AIC.DefragMachine AIC.DefragMachine.RxFrame Lib.Trace

/-- Fragment 0 with its Ethernet header, then the bodies of the others. -/
def assemble : List RxFrame → List UInt8
  | [] => []
  | f::fs => f.ethernet++fs.flatMap body

/-- All fragments of one MSDU, in order. -/
structure IsMsdu (fs : List RxFrame) : Prop where
  numbers : fs.map fragNum = List.range fs.length
  moreFrag : fs.map moreFrag = List.replicate (fs.length-1) true++[false]
  sender : ∀ g ∈ fs, ∀ h ∈ fs, g.addr2 = h.addr2
  tid : ∀ g ∈ fs, ∀ h ∈ fs, g.tid = h.tid
  seqNum : ∀ g ∈ fs, ∀ h ∈ fs, g.seqNum = h.seqNum

/-- A reassembled frame is one MSDU of frames received, and no fragment with
another number than 0 passes as a frame. -/
def Sound (received : List RxFrame) : Outcome → Prop
  | .reassembled skb fs => IsMsdu fs ∧ skb = assemble fs ∧ fs.Sublist received
  | .whole f _ => f.fragNum = 0
  | .amsdu f => f.fragNum = 0
  | _ => True

def fragPath (f : RxFrame) : Bool := f.isData && !f.isAmsdu && !f.flagsNeedReord

/-- A frame that goes to the interface look-up is not handed up. -/
def Unclaimed (f : RxFrame) (vif : Bool) : Prop := f.flagsIs80211Mpdu = true ∨ vif = false

/-- A fragment with another number than 0 continues a context only of its own
transmitter and before its last fragment, and without a context it is dropped. -/
def Honest (hw : RwnxHw) : Event → Prop
  | .timeout _ => True
  | .rx f alloc vif => hw.oops = false → f.fragNum ≠ 0 →
    if f.isData && f.isAmsdu then vif = false
    else if fragPath f then
      match findDefrag f hw.defragList with
      | some c => c.nextFn = f.fragNum → ∀ g ∈ c.frags, g.moreFrag = true ∧ g.addr2 = f.addr2
      | none => if f.moreFrag then alloc = false else Unclaimed f vif
    else Unclaimed f vif

/-! ## The contexts -/

structure Holds (received : List RxFrame) (c : DefragCtrlInfo) : Prop where
  nonempty : c.frags ≠ []
  bytes : c.skb = assemble c.frags
  len : c.frmLen = c.skb.length
  numbers : c.frags.map fragNum = List.range c.frags.length
  key : ∀ g ∈ c.frags, g.seqNum = c.sn ∧ g.tid = c.tid
  sender : ∀ g ∈ c.frags, ∀ h ∈ c.frags, g.addr2 = h.addr2
  pos : 0 < c.nextFn
  next : (∀ g ∈ c.frags, g.moreFrag = true) → c.nextFn = c.frags.length
  received : c.frags.Sublist received

theorem Holds.more {received : List RxFrame} {c : DefragCtrlInfo} (h : Holds received c)
    (f : RxFrame) : Holds (received++[f]) c :=
  ⟨h.nonempty, h.bytes, h.len, h.numbers, h.key, h.sender, h.pos, h.next,
    h.received.trans (List.sublist_append_left _ _)⟩

theorem find_spec {f : RxFrame} {cs : List DefragCtrlInfo} {c : DefragCtrlInfo}
    (h : findDefrag f cs = some c) : c ∈ cs ∧ c.matches f = true :=
  ⟨List.mem_of_find?_eq_some h, by simpa using List.find?_some h⟩

theorem mem_put {f : RxFrame} {d : Option DefragCtrlInfo} {cs : List DefragCtrlInfo}
    {x : DefragCtrlInfo} (h : x ∈ putDefrag f d cs) : some x = d ∨ x ∈ cs := by
  induction cs with
  | nil => exact Or.inr h
  | cons c cs ih =>
    simp only [putDefrag] at h
    split_ifs at h
    · rcases List.mem_append.mp h with h | h
      · exact Or.inl (Option.mem_toList.mp h).symm
      · exact Or.inr (by simp [h])
    · rcases List.mem_cons.mp h with rfl | h
      · exact Or.inr (by simp)
      · rcases ih h with h | h
        · exact Or.inl h
        · exact Or.inr (by simp [h])

theorem copyAt_end (skb bytes : List UInt8) :
    copyAt (skb++List.replicate bytes.length 0) skb.length bytes = skb++bytes := by
  rw [copyAt, List.take_left, List.drop_eq_nil_of_le (by simp), List.append_nil]

theorem assemble_append {fs : List RxFrame} (h : fs ≠ []) (f : RxFrame) :
    assemble (fs++[f]) = assemble fs++f.body := by
  cases fs with
  | nil => exact absurd rfl h
  | cons g gs => simp [assemble]

theorem append_spec {received : List RxFrame} {tailroom : ℕ} {c d : DefragCtrlInfo} {f : RxFrame}
    (h : Holds received c) (hd : c.append tailroom f = some d) :
    d = { c with
      skb := assemble (c.frags++[f])
      frmLen := (assemble (c.frags++[f])).length
      frags := c.frags++[f] } := by
  unfold DefragCtrlInfo.append at hd
  split_ifs at hd
  rw [h.len, copyAt_end, h.bytes] at hd
  rw [assemble_append h.nonempty, List.length_append]
  exact (Option.some.inj hd).symm

theorem matches_key {c : DefragCtrlInfo} {f : RxFrame} (h : c.matches f = true) :
    f.seqNum = c.sn ∧ f.tid = c.tid := by
  simp only [DefragCtrlInfo.matches, Bool.and_eq_true, beq_iff_eq] at h
  exact ⟨h.1.1.symm, h.1.2.symm⟩

/-- A fragment that goes into a context extends the MSDU there. -/
theorem append_holds {received : List RxFrame} {tailroom n : ℕ} {c d : DefragCtrlInfo}
    {f : RxFrame} (h : Holds received c) (hd : c.append tailroom f = some d)
    (hm : c.matches f = true) (hnext : c.nextFn = f.fragNum)
    (hown : ∀ g ∈ c.frags, g.moreFrag = true ∧ g.addr2 = f.addr2)
    (hn : 0 < n) (hcount : f.moreFrag = true → n = c.frags.length+1) :
    Holds (received++[f]) { d with nextFn := n } := by
  obtain rfl := append_spec h hd
  have hlen := h.next fun g hg => (hown g hg).1
  have hkey := matches_key hm
  refine ⟨by simp, rfl, rfl, ?_, ?_, ?_, hn, ?_, h.received.append (List.Sublist.refl [f])⟩
  · simp only [List.map_append, h.numbers, List.map_cons, List.map_nil, List.length_append,
      List.length_singleton, List.range_succ, ← hnext, hlen]
  · intro g hg
    rcases List.mem_append.mp hg with hg | hg
    · exact h.key g hg
    · rw [List.mem_singleton.mp hg]
      exact hkey
  · have hall : ∀ g ∈ c.frags++[f], g.addr2 = f.addr2 := by
      intro g hg
      rcases List.mem_append.mp hg with hg | hg
      · exact (hown g hg).2
      · rw [List.mem_singleton.mp hg]
    intro g hg k hk
    rw [hall g hg, hall k hk]
  · intro hmore
    rw [List.length_append, List.length_singleton]
    exact hcount (hmore f (by simp))

theorem append_msdu {received : List RxFrame} {tailroom : ℕ} {c d : DefragCtrlInfo}
    {f : RxFrame} (h : Holds received c) (hd : c.append tailroom f = some d)
    (hm : c.matches f = true) (hnext : c.nextFn = f.fragNum)
    (hown : ∀ g ∈ c.frags, g.moreFrag = true ∧ g.addr2 = f.addr2) (hlast : f.moreFrag = false) :
    Sound (received++[f]) (.reassembled d.skb d.frags) := by
  have hd' := append_holds (n := 1) h hd hm hnext hown (by decide) (by simp [hlast])
  have hfrags : d.frags = c.frags++[f] := by rw [append_spec h hd]
  have hmore : c.frags.map moreFrag = List.replicate c.frags.length true :=
    List.eq_replicate_iff.mpr ⟨by simp, by
      intro b hb
      obtain ⟨g, hg, rfl⟩ := List.mem_map.mp hb
      exact (hown g hg).1⟩
  refine ⟨⟨hd'.numbers, ?_, hd'.sender, ?_, ?_⟩, hd'.bytes, hd'.received⟩
  · rw [hfrags, List.map_append, hmore, List.length_append]
    simp [hlast]
  · intro g hg k hk
    rw [(hd'.key g hg).2, (hd'.key k hk).2]
  · intro g hg k hk
    rw [(hd'.key g hg).1, (hd'.key k hk).1]

theorem start_holds {tailroom : ℕ} {f : RxFrame} {d : DefragCtrlInfo} (received : List RxFrame)
    (hd : DefragCtrlInfo.start tailroom f = some d) (hzero : f.fragNum = 0) :
    Holds (received++[f]) d := by
  unfold DefragCtrlInfo.start at hd
  split_ifs at hd
  obtain rfl := Option.some.inj hd
  refine ⟨by simp, by simp [assemble], rfl, ?_, by simp, by simp, by simp, by simp, by simp⟩
  simp [hzero, List.range_succ]

/-! ## One frame -/

/-- All contexts hold fragments of one MSDU each, and what was handed up is sound. -/
structure Intact (received : List RxFrame) (hw : RwnxHw) (out : List Outcome) : Prop where
  contexts : ∀ c ∈ hw.defragList, Holds received c
  sound : ∀ o ∈ out, Sound received o

theorem Sound.more {received : List RxFrame} {o : Outcome} (h : Sound received o) (f : RxFrame) :
    Sound (received++[f]) o := by
  cases o with
  | reassembled skb fs => exact ⟨h.1, h.2.1, h.2.2.trans (List.sublist_append_left _ _)⟩
  | _ => exact h

theorem deliver_sound {received : List RxFrame} {f : RxFrame} {vif : Bool} {skb : List UInt8}
    (h : f.fragNum ≠ 0 → Unclaimed f vif) : ∀ o ∈ deliver vif f skb, Sound received o := by
  intro o ho
  unfold deliver at ho
  split_ifs at ho with hmpdu hvif
  · rw [List.mem_singleton.mp ho]
    trivial
  · rw [List.mem_singleton.mp ho]
    by_contra hne
    rcases h hne with h | h
    · exact hmpdu h
    · simp [hvif] at h
  · rw [List.mem_singleton.mp ho]
    trivial

section
variable {received : List RxFrame} {tailroom : ℕ} {hw : RwnxHw} {f : RxFrame}

theorem replace_contexts (h : ∀ c ∈ hw.defragList, Holds received c) {d : DefragCtrlInfo}
    (hd : Holds (received++[f]) d) :
    ∀ c ∈ putDefrag f (some d) hw.defragList, Holds (received++[f]) c := by
  intro c hc
  rcases mem_put hc with hc | hc
  · rw [Option.some.inj hc]
    exact hd
  · exact (h c hc).more f

theorem moreFragment_intact (h : ∀ c ∈ hw.defragList, Holds received c) {alloc : Bool}
    (hfound : ∀ c, findDefrag f hw.defragList = some c → c.nextFn = f.fragNum →
      ∀ g ∈ c.frags, g.moreFrag = true ∧ g.addr2 = f.addr2)
    (hnew : findDefrag f hw.defragList = none → f.fragNum ≠ 0 → alloc = false) :
    Intact (received++[f]) (moreFragment tailroom hw f alloc).1
      (moreFragment tailroom hw f alloc).2 := by
  have hkeep : ∀ c ∈ hw.defragList, Holds (received++[f]) c := fun c hc => (h c hc).more f
  unfold moreFragment
  cases hf : findDefrag f hw.defragList with
  | some c =>
    obtain ⟨hc, hm⟩ := find_spec hf
    by_cases hn : c.nextFn = f.fragNum
    · have hown := hfound c hf hn
      simp only [hn, ne_eq, not_true, if_false]
      cases hd : c.append tailroom f with
      | none => exact ⟨hkeep, by simp⟩
      | some d =>
        have hlen := (h c hc).next fun g hg => (hown g hg).1
        have hdn : d.nextFn = c.nextFn := by rw [append_spec (h c hc) hd]
        refine ⟨replace_contexts h ?_, by simp [Sound]⟩
        exact append_holds (h c hc) hd hm hn hown (by omega) (fun _ => by omega)
    · simp only [ne_eq, hn, not_false_iff, if_true]
      exact ⟨hkeep, by simp [Sound]⟩
  | none =>
    cases alloc with
    | false => exact ⟨hkeep, by simp [Sound]⟩
    | true =>
      have hzero : f.fragNum = 0 := by
        by_contra hne
        exact absurd (hnew hf hne) (by decide)
      simp only [Bool.not_true, Bool.false_eq_true, if_false]
      cases hd : DefragCtrlInfo.start tailroom f with
      | none => exact ⟨hkeep, by simp⟩
      | some d =>
        refine ⟨?_, by simp [Sound]⟩
        intro c hc
        rcases List.mem_append.mp hc with hc | hc
        · exact hkeep c hc
        · rw [List.mem_singleton.mp hc]
          exact start_holds received hd hzero

theorem lastFragment_intact (h : ∀ c ∈ hw.defragList, Holds received c) {vif : Bool}
    (hlast : f.moreFrag = false)
    (hfound : ∀ c, findDefrag f hw.defragList = some c → c.nextFn = f.fragNum →
      ∀ g ∈ c.frags, g.moreFrag = true ∧ g.addr2 = f.addr2)
    (hnew : findDefrag f hw.defragList = none → f.fragNum ≠ 0 → Unclaimed f vif) :
    Intact (received++[f]) (lastFragment tailroom hw f vif).1
      (lastFragment tailroom hw f vif).2 := by
  have hkeep : ∀ c ∈ hw.defragList, Holds (received++[f]) c := fun c hc => (h c hc).more f
  unfold lastFragment
  cases hf : findDefrag f hw.defragList with
  | some c =>
    obtain ⟨hc, hm⟩ := find_spec hf
    by_cases hn : c.nextFn = f.fragNum
    · have hown := hfound c hf hn
      simp only [hn, ne_eq, not_true, if_false]
      cases hd : c.append tailroom f with
      | none => exact ⟨hkeep, by simp⟩
      | some d =>
        cases vif with
        | true =>
          refine ⟨?_, ?_⟩
          · intro x hx
            rcases mem_put hx with hx | hx
            · cases hx
            · exact hkeep x hx
          · intro o ho
            rw [List.mem_singleton.mp ho]
            exact append_msdu (h c hc) hd hm hn hown hlast
        | false =>
          have hdn : d = { d with nextFn := c.nextFn } := by rw [append_spec (h c hc) hd]
          refine ⟨replace_contexts h ?_, by simp [Sound]⟩
          rw [hdn]
          exact append_holds (h c hc) hd hm hn hown (h c hc).pos (by simp [hlast])
    · simp only [ne_eq, hn, not_false_iff, if_true]
      exact ⟨hkeep, by simp [Sound]⟩
  | none => exact ⟨hkeep, deliver_sound (hnew hf)⟩

end

/-- What the condition on a step says once the frame is on the fragment path. -/
theorem honest_path {hw : RwnxHw} {f : RxFrame} {alloc vif : Bool}
    (h : Honest hw (.rx f alloc vif)) (hoops : hw.oops = false) (hd : f.isData = true)
    (ha : f.isAmsdu = false) (hr : f.flagsNeedReord = false)
    (hpos : ∀ c ∈ hw.defragList, 0 < c.nextFn) :
    (∀ c, findDefrag f hw.defragList = some c → c.nextFn = f.fragNum →
      ∀ g ∈ c.frags, g.moreFrag = true ∧ g.addr2 = f.addr2) ∧
    (findDefrag f hw.defragList = none → f.fragNum ≠ 0 →
      if f.moreFrag = true then alloc = false else Unclaimed f vif) := by
  have hpath : fragPath f = true := by simp [fragPath, hd, ha, hr]
  simp only [Honest, ha, Bool.and_false, Bool.false_eq_true, if_false, hpath, if_true] at h
  constructor
  · intro c hc hn
    have hne : f.fragNum ≠ 0 := by
      have := hpos c (find_spec hc).1
      omega
    have hown := h hoops hne
    rw [hc] at hown
    exact hown hn
  · intro hnone hne
    have hdrop := h hoops hne
    rw [hnone] at hdrop
    exact hdrop

/-- The frames among the events. -/
def frames (es : List Event) : List RxFrame :=
  es.filterMap fun e => match e with
    | .rx f _ _ => some f
    | .timeout _ => none

theorem rx_intact {received : List RxFrame} {tailroom : ℕ} {hw : RwnxHw} {f : RxFrame}
    {alloc vif : Bool} (h : ∀ c ∈ hw.defragList, Holds received c) (hoops : hw.oops = false)
    (hh : Honest hw (.rx f alloc vif)) :
    Intact (received++[f]) (rwnxRxdataind tailroom hw f alloc vif).1
      (rwnxRxdataind tailroom hw f alloc vif).2 := by
  have hkeep : ∀ c ∈ hw.defragList, Holds (received++[f]) c := fun c hc => (h c hc).more f
  unfold rwnxRxdataind
  cases hd : f.isData with
  | false =>
    refine ⟨hkeep, deliver_sound fun hne => ?_⟩
    have hdrop := hh hoops hne
    simpa [hd, fragPath] using hdrop
  | true =>
    cases ha : f.isAmsdu with
    | true =>
      refine ⟨hkeep, ?_⟩
      intro o ho
      by_cases hzero : f.fragNum = 0
      · cases vif <;> rw [List.mem_singleton.mp ho]
        · trivial
        · exact hzero
      · have hdrop := hh hoops hzero
        simp only [hd, ha, Bool.and_self, if_true] at hdrop
        rw [hdrop] at ho
        rw [List.mem_singleton.mp ho]
        trivial
    | false =>
      cases hr : f.flagsNeedReord with
      | true =>
        refine ⟨hkeep, deliver_sound fun hne => ?_⟩
        have hdrop := hh hoops hne
        simpa [hd, ha, hr, fragPath] using hdrop
      | false =>
        have hpath := honest_path hh hoops hd ha hr fun c hc => (h c hc).pos
        cases hm : f.moreFrag with
        | true =>
          rw [hm] at hpath
          exact moreFragment_intact h hpath.1 hpath.2
        | false =>
          rw [hm] at hpath
          by_cases hzero : f.fragNum = 0
          · simp only [hzero, Bool.false_eq_true, if_false, if_true, Bool.not_false, Bool.or_self,
              bne_self_eq_false, Bool.and_false]
            exact ⟨hkeep, deliver_sound fun hne => absurd hzero hne⟩
          · have hne : (f.fragNum != 0) = true := by simpa using hzero
            simp only [hne, Bool.false_eq_true, if_false, if_true, Bool.not_false, Bool.or_true,
              Bool.and_self]
            exact lastFragment_intact h hm hpath.1 hpath.2

theorem step_intact {es : List Event} {tailroom : ℕ} {hw : RwnxHw} {out : List Outcome}
    {e : Event} (he : Honest hw e) (h : Intact (frames es) hw out) :
    Intact (frames (es++[e])) (step tailroom hw e).1 (out++(step tailroom hw e).2) := by
  cases e with
  | timeout i =>
    have hframes : frames (es++[.timeout i]) = frames es := by simp [frames]
    rw [hframes]
    unfold step
    split_ifs
    · simpa using h
    · refine ⟨fun c hc => h.contexts c (List.mem_of_mem_eraseIdx hc), ?_⟩
      simpa using h.sound
  | rx f alloc vif =>
    have hframes : frames (es++[.rx f alloc vif]) = frames es++[f] := by simp [frames]
    have hsound : ∀ o ∈ out, Sound (frames es++[f]) o := fun o ho => (h.sound o ho).more f
    rw [hframes]
    unfold step
    cases hoops : hw.oops with
    | true =>
      refine ⟨fun c hc => (h.contexts c hc).more f, ?_⟩
      simpa using hsound
    | false =>
      have hrx : Intact _ (rwnxRxdataind tailroom hw f alloc vif).1 _ :=
        rx_intact h.contexts hoops he
      refine ⟨hrx.contexts, ?_⟩
      intro o ho
      rcases List.mem_append.mp ho with ho | ho
      · exact hsound o ho
      · exact hrx.sound o ho

def sampleFragment (sender fn : UInt8) (more : Bool) : RxFrame where
  skb := SkBuff.ofList ([0x08, if more then 0x05 else 0x01, 0, 0]++List.replicate 6 1++
    List.replicate 6 sender++List.replicate 6 3++[fn, 0]++List.replicate 16 0xAA)
  decrStatus := 0
  flagsDstIdx := 0xFF
  flagsNeedReord := false
  flagsIs80211Mpdu := false

/-- The first fragment of one station and the last of another make a frame. -/
theorem mixed_senders_reassembled :
    ¬ ∀ o ∈ (run (step 2000) init [.rx (sampleFragment 2 0 true) true true,
        .rx (sampleFragment 4 1 false) true true]).2,
      Sound [sampleFragment 2 0 true, sampleFragment 4 1 false] o := by
  intro h
  have hout : Outcome.reassembled
      (assemble [sampleFragment 2 0 true, sampleFragment 4 1 false])
      [sampleFragment 2 0 true, sampleFragment 4 1 false] ∈
      (run (step 2000) init [.rx (sampleFragment 2 0 true) true true,
        .rx (sampleFragment 4 1 false) true true]).2 :=
    List.mem_cons_of_mem _ (List.mem_singleton.mpr rfl)
  have hsender := (h _ hout).1.sender (sampleFragment 2 0 true) (by simp)
    (sampleFragment 4 1 false) (by simp)
  exact absurd hsender (by decide)

/-- As long as fragments continue contexts of their own transmitter, reassembly
hands up whole MSDUs only. -/
theorem run_intact (tailroom : ℕ) (es : List Event) (h : Along (step tailroom) Honest init es) :
    Intact (frames es) (run (step tailroom) init es).1 (run (step tailroom) init es).2 :=
  along_history (Q := fun pre hw out => Intact (frames pre) hw out)
    ⟨by simp [init], by simp⟩ es (fun _ _ _ _ he hi => step_intact he hi) h

theorem run_intact_pair :
    Intact [sampleFragment 2 0 true, sampleFragment 2 1 false]
      (run (step 2000) init [.rx (sampleFragment 2 0 true) true true,
        .rx (sampleFragment 2 1 false) true true]).1
      (run (step 2000) init [.rx (sampleFragment 2 0 true) true true,
        .rx (sampleFragment 2 1 false) true true]).2 := by
  have hfirst : Honest init (.rx (sampleFragment 2 0 true) true true) :=
    fun _ hne => absurd rfl hne
  have hlast : Honest (step 2000 init (.rx (sampleFragment 2 0 true) true true)).1
      (.rx (sampleFragment 2 1 false) true true) := by
    intro _ _
    show ∀ _, ∀ g ∈ [sampleFragment 2 0 true], _
    intro _ g hg
    rw [List.mem_singleton.mp hg]
    decide
  have halong : Along (step 2000) Honest init [.rx (sampleFragment 2 0 true) true true,
      .rx (sampleFragment 2 1 false) true true] := ⟨hfirst, hlast, trivial⟩
  exact run_intact 2000 _ halong

end AIC.DefragIntegrity
