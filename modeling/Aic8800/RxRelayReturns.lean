import Aic8800.RxRelayQueue

/-!
# When a call returns

A call does not return where the loop over the sub-frames does not end, a
fragment does not fit, a frame is split into nothing, or a control is looked up
for a TID that there is none for. Where it returns it is one of three: the loop,
a fragment, or a whole frame.
-/

set_option autoImplicit false

namespace AIC.RxRelayReturns
open AIC.ReorderMachine AIC.MsduPool AIC.RxRelay AIC.RxRelayQueue
open AIC.RxDataInd hiding amsduTurn rxDataSkb deliver finish branch apBranch staBranch reorder
  flushThen Result rwnxRxdataindAicwf
open AIC.RxDataAmsdu hiding amsduTurn_next
open AIC.RxDataOwnership AIC.RxDataConsumed
open AIC.DefragMachine (RxFrame DefragCtrlInfo findDefrag putDefrag Outcome)
open Lib.LoopRun

/-- The environment in the words of `RxDataInd`. -/
def outer (env : RelayEnv) : Env where
  headroom := true
  tailroom := 0
  copyExpand := true
  subAlloc := env.subAlloc
  amsduTo8023s i := .freed (env.amsduTo8023s i).length (firstMcast (env.amsduTo8023s i))
  defragAlloc := env.defragAlloc
  defragRoom := env.defragRoom
  kmalloc := env.kmalloc

section Conditions
variable (hw : Hw) (env : RelayEnv) (hdr : HwRxhdr) (f : RxFrame)

/-- A control is looked up for a TID below 8 only. -/
def WholeReturns : Prop :=
  f.flagsIs80211Mpdu = true ∨ ∀ vif ∈ frameVif hw hdr, vif.iftype.reord ≠ .other →
    TidFits hw (outer env) hdr vif (readyOf f)

/-- A fragment fits into its buffer, and what it completes is not split into nothing. -/
def FragmentReturns : Prop :=
  match findDefrag f hw.defragList with
  | some c => c.nextFn = f.fragNum → Appends env.defragRoom c f ∧ (f.moreFrag = false →
    ∀ base ∈ getVif hw hdr.flagsVifIdx, ¬ SplitFails hdr base ((outer env).amsduTo8023s 0))
  | none =>
    if f.moreFrag then env.defragAlloc = true → f.ethernet.length ≤ env.defragRoom
    else WholeReturns hw env hdr f

def amsduSkb : SkBuff := skbPull (f.pullLen-8) f.skb

def Returns : Prop :=
  if f.isData && f.isAmsdu then
    AmsduFits hw (outer env) hdr 0 (subframes (amsduSkb f).len (amsduSkb f))
  else if f.isData && isFragment f then FragmentReturns hw env hdr f
  else WholeReturns hw env hdr f

end Conditions

section Parts
variable {hw : Hw} {env : RelayEnv} {hdr : HwRxhdr}

/-! ## The A-MSDU loop -/

theorem rxDataSkb_none (skb : SkBuff) {i : ℕ} {vif : Vif} :
    rxDataSkb hw env hdr i vif skb = none ↔ SplitFails hdr vif ((outer env).amsduTo8023s i) := by
  unfold rxDataSkb SplitFails splitList outer Split.count
  cases hdr.flagsIsAmsdu with
  | false => simp
  | true => cases hlist : env.amsduTo8023s i <;> simp [hlist]

theorem amsduTurn_outer (hw : Hw) (env : RelayEnv) (hdr : HwRxhdr) (i : ℕ) (skb : SkBuff) :
    RxDataInd.amsduTurn hw (outer env) hdr i skb = match amsduTurn hw env hdr i skb with
      | .stop r => .stop r
      | .next skb' _ => .next skb' [] := by
  unfold RxDataInd.amsduTurn amsduTurn
  have halloc : (outer env).subAlloc i = env.subAlloc i := rfl
  rw [halloc]
  split_ifs
  · rfl
  · rfl
  · rfl
  · cases getVif hw hdr.flagsVifIdx with
    | none => rfl
    | some vif =>
      dsimp only
      by_cases hfails : SplitFails hdr vif ((outer env).amsduTo8023s i)
      · rw [(rxDataSkb_none _).mpr hfails, rxDataOrFree_none.mpr hfails]
      · have hold : rxDataOrFree hw hdr vif (subSkb skb) ((outer env).amsduTo8023s i) ≠ none :=
          rxDataOrFree_none.not.mpr hfails
        have hnew : rxDataSkb hw env hdr i vif (subSkb skb) ≠ none :=
          (rxDataSkb_none _).not.mpr hfails
        obtain ⟨us, hus⟩ := Option.ne_none_iff_exists'.mp hold
        obtain ⟨hs, hhs⟩ := Option.ne_none_iff_exists'.mp hnew
        rw [hus, hhs]

theorem amsduTurn_stop (hw : Hw) (env : RelayEnv) (hdr : HwRxhdr) (k : ℕ) (skb : SkBuff)
    (r : Bool) (h : amsduTurn hw env hdr k skb = .stop r) :
    RxDataInd.amsduTurn hw (outer env) hdr k skb = .stop r := by
  rw [amsduTurn_outer, h]

theorem amsduTurn_next (hw : Hw) (env : RelayEnv) (hdr : HwRxhdr) (k : ℕ) (skb skb' : SkBuff)
    (out : List Handled) (h : amsduTurn hw env hdr k skb = .next skb' out) :
    ∃ o, RxDataInd.amsduTurn hw (outer env) hdr k skb = .next skb' o :=
  ⟨[], by rw [amsduTurn_outer, h]⟩

/-- The loop that ends well found every sub-frame in order. -/
theorem fits_of_loop {fuel k : ℕ} {skb : SkBuff} {out : List Handled}
    (h : loop (amsduTurn hw env hdr) fuel k skb = (some true, out)) (n : ℕ) :
    AmsduFits hw (outer env) hdr k (subframes n skb) := by
  obtain ⟨o, ho⟩ := ends_map (f := id) (amsduTurn_stop hw env hdr) (amsduTurn_next hw env hdr)
    (ends_of_loop h)
  exact amsduFits_of_ends ho rfl n

/-- What the loop hands on of the sub-frames that it comes to. -/
def handOn (hw : Hw) (env : RelayEnv) (hdr : HwRxhdr) (base : Vif) :
    ℕ → List SkBuff → List Handled
  | _, [] => []
  | i, g::gs => (rxDataSkb hw env hdr i base (subSkb g)).getD []++handOn hw env hdr base (i+1) gs

theorem amsduTurn_handed {base : Vif} (hvif : getVif hw hdr.flagsVifIdx = some base) {k : ℕ}
    {skb : SkBuff} (hp : present skb = true) (hread : Readable (outer env) k skb)
    (hsplit : ¬ SplitFails hdr base ((outer env).amsduTo8023s k)) :
    amsduTurn hw env hdr k skb = .next (skbPull (lenAligned skb) skb)
      ((rxDataSkb hw env hdr k base (subSkb skb)).getD []) := by
  have hsome : rxDataSkb hw env hdr k base (subSkb skb) ≠ none :=
    (rxDataSkb_none _).not.mpr hsplit
  obtain ⟨hs, hhs⟩ := Option.ne_none_iff_exists'.mp hsome
  simp only [present, Bool.and_eq_true, decide_eq_true_eq] at hp
  have hlong : ¬ skb.len ≤ 16 := by omega
  have hin : ¬ skb.len < subLen skb+14 := by omega
  have hgood : ¬ (!env.subAlloc k || decide (subLen skb < 6)) = true := by
    simpa [Readable, outer] using hread
  rw [amsduTurn, if_neg hlong, if_neg hin, if_neg hgood, hvif]
  dsimp only
  rw [hhs]
  rfl

theorem amsdu_loop {base : Vif} (hvif : getVif hw hdr.flagsVifIdx = some base) {n k : ℕ}
    {skb : SkBuff} (hn : skb.len ≤ n)
    (h : AmsduFits hw (outer env) hdr k (subframes n skb)) :
    loop (amsduTurn hw env hdr) (n+1) k skb =
      (some true, handOn hw env hdr base k (subframes n skb)) := by
  have habsent : ∀ {m k : ℕ} {skb : SkBuff}, present skb = false →
      loop (amsduTurn hw env hdr) (m+1) k skb = (some true, []) := by
    intro m k skb hp
    have houter := amsduTurn_outer hw env hdr k skb
    rw [amsduTurn_absent k hp] at houter
    cases hturn : amsduTurn hw env hdr k skb with
    | stop r =>
      rw [hturn] at houter
      obtain rfl := Turn.stop.inj houter
      simp [loop, hturn]
    | next skb' o =>
      rw [hturn] at houter
      cases houter
  induction n generalizing k skb with
  | zero =>
    have hp : present skb = false := by
      rw [present, Nat.le_zero.mp hn]
      rfl
    exact habsent hp
  | succ n ih =>
    cases hp : present skb with
    | false =>
      rw [habsent hp]
      simp [subframes, hp, handOn]
    | true =>
      simp only [subframes, hp, if_true] at h ⊢
      unfold AmsduFits at h
      rw [hvif] at h
      obtain ⟨hread, hadvances, hsplit⟩ := h 0 skb rfl
      rw [Nat.add_zero] at hread hsplit
      have hlen : (skbPull (lenAligned skb) skb).len ≤ n := by
        have hpos := hadvances.1
        rw [skbPull, if_pos hadvances.2]
        show skb.len-lenAligned skb ≤ n
        omega
      have hrest : AmsduFits hw (outer env) hdr (k+1)
          (subframes n (skbPull (lenAligned skb) skb)) := by
        unfold AmsduFits
        rw [hvif]
        intro i g hg
        have hi : k+1+i = k+(i+1) := by omega
        rw [hi]
        exact h (i+1) g (by rwa [List.getElem?_cons_succ])
      rw [loop, amsduTurn_handed hvif hp hread hsplit]
      dsimp only
      rw [ih hlen hrest]
      rfl

theorem amsdu_loop_noVif (hvif : getVif hw hdr.flagsVifIdx = none) {n k : ℕ} {skb : SkBuff}
    (hn : skb.len ≤ n) (h : AmsduFits hw (outer env) hdr k (subframes n skb)) :
    loop (amsduTurn hw env hdr) (n+1) k skb = (some true, []) := by
  have houter := amsduTurn_outer hw env hdr k skb
  have hstop : RxDataInd.amsduTurn hw (outer env) hdr k skb = .stop true := by
    cases hp : present skb with
    | false => exact amsduTurn_absent k hp
    | true =>
      unfold AmsduFits at h
      rw [hvif] at h
      have hpos : 0 < n := by
        simp only [present, Bool.and_eq_true, decide_eq_true_eq] at hp
        omega
      have hhead := subframes_head hpos hp
      rw [← List.head?_eq_getElem?] at hhead
      exact amsduTurn_noVif k hp (h skb hhead) hvif
  rw [hstop] at houter
  cases hturn : amsduTurn hw env hdr k skb with
  | stop r =>
    rw [hturn] at houter
    obtain rfl := Turn.stop.inj houter
    simp [loop, hturn]
  | next skb' o =>
    rw [hturn] at houter
    cases houter

/-! ## Fragments and whole frames -/

section Frame
variable (hw : Hw) (env : RelayEnv) (hdr : HwRxhdr) (k : ℕ) (f : RxFrame)

def wholeCall : Option Result :=
  if f.flagsIs80211Mpdu then some (hw, [], []) else deliver hw env hdr k f

/-- Only the list of contexts changes. -/
def keep (cs : List DefragCtrlInfo) : Result := ({ hw with defragList := cs }, [], [])

/-- A fragment that continues a context, which becomes `d`. -/
def nextCall (d : DefragCtrlInfo) : Option Result :=
  if f.moreFrag then
    some (keep hw (putDefrag f (some { d with nextFn := d.nextFn+1 }) hw.defragList))
  else
    match getVif hw hdr.flagsVifIdx with
    | none => some (keep hw (putDefrag f (some d) hw.defragList))
    | some base => (rxDataSkb hw env hdr 0 base (SkBuff.ofList d.skb)).map fun hs =>
      ({ hw with defragList := putDefrag f none hw.defragList }, hs, [])

def fragmentCall : Option Result :=
  match findDefrag f hw.defragList with
  | some c =>
    if c.nextFn ≠ f.fragNum then some (hw, [], [])
    else (c.append env.defragRoom f).bind (nextCall hw env hdr f)
  | none =>
    if f.moreFrag then
      if env.defragAlloc then
        (DefragCtrlInfo.start env.defragRoom f).map fun d => keep hw (hw.defragList++[d])
      else some (hw, [], [])
    else wholeCall hw env hdr k f

end Frame

section Call
variable {k : ℕ} {f : RxFrame}

theorem finish_whole (bytes : List UInt8) :
    RxRelay.finish hw env hdr k f (⟨hw.defragList, false⟩,
      DefragMachine.deliver (getVif hw hdr.flagsVifIdx).isSome f bytes) =
      wholeCall hw env hdr k f := by
  unfold RxRelay.finish DefragMachine.deliver wholeCall
  cases hmgmt : f.flagsIs80211Mpdu with
  | true => rfl
  | false =>
    cases hvif : getVif hw hdr.flagsVifIdx with
    | none => simp [RxRelay.deliver, frameVif, hvif]
    | some vif => rfl

theorem call_whole (hno : (f.isData && f.isAmsdu) = false)
    (hwhole : (f.isData && isFragment f) = false) :
    rwnxRxdataindAicwf hw env hdr k f = wholeCall hw env hdr k f := by
  rw [rwnxRxdataindAicwf, hno, if_neg Bool.false_ne_true]
  unfold DefragMachine.rwnxRxdataind
  cases hdata : f.isData with
  | false => exact finish_whole f.skb.bytes
  | true =>
    rw [hdata, Bool.true_and] at hno hwhole
    have hpath : ¬ (!f.flagsNeedReord && (f.moreFrag || f.fragNum != 0)) = true := by
      rw [Bool.not_eq_true]
      exact hwhole
    rw [hno, if_pos rfl, if_neg Bool.false_ne_true, if_neg hpath]
    exact finish_whole f.ethernet

theorem call_fragment (hno : (f.isData && f.isAmsdu) = false)
    (hfrag : (f.isData && isFragment f) = true) :
    rwnxRxdataindAicwf hw env hdr k f = fragmentCall hw env hdr k f := by
  rw [rwnxRxdataindAicwf, hno, if_neg Bool.false_ne_true]
  rw [Bool.and_eq_true] at hfrag
  rw [hfrag.1, Bool.true_and] at hno
  have hpath : (!f.flagsNeedReord && (f.moreFrag || f.fragNum != 0)) = true := hfrag.2
  unfold DefragMachine.rwnxRxdataind fragmentCall
  rw [if_pos hfrag.1, hno, if_neg Bool.false_ne_true, if_pos hpath]
  unfold DefragMachine.moreFragment DefragMachine.lastFragment
  dsimp only
  cases hfind : findDefrag f hw.defragList with
  | none =>
    dsimp only
    cases hmore : f.moreFrag with
    | false => exact finish_whole f.ethernet
    | true =>
      cases env.defragAlloc with
      | false => rfl
      | true => cases DefragCtrlInfo.start env.defragRoom f <;> rfl
  | some c =>
    dsimp only
    by_cases hnum : c.nextFn = f.fragNum
    · have hskip : ¬ c.nextFn ≠ f.fragNum := not_not.mpr hnum
      cases happ : c.append env.defragRoom f with
      | none => cases f.moreFrag <;> simp [hskip, RxRelay.finish]
      | some d =>
        simp only [if_neg hskip, Option.bind_some, nextCall]
        cases hmore : f.moreFrag with
        | true => rfl
        | false =>
          cases hvif : getVif hw hdr.flagsVifIdx with
          | none => rfl
          | some base =>
            simp only [Bool.false_eq_true, if_false, Option.isSome_some, if_true]
            simp only [RxRelay.finish, hvif]
            rfl
    · cases f.moreFrag <;> simp [hnum, RxRelay.finish]

/-! ## Each part -/

section Branch
variable {vif : Vif} {r : Ready}

theorem reorder_isSome (forward : Bool) (places : List Place) :
    (reorder hw env k vif r forward places).isSome = true ↔
      ¬ (usesCtrl env.kmalloc (poolFor hw vif) vif.iftype.reord r.skb = true ∧ 8 ≤ r.tid) := by
  have hnone : (poolFor hw vif).processUnit env.kmalloc k ⟨r.skb, r.seqNum, r.tid, forward⟩ =
      none ↔ usesCtrl env.kmalloc (poolFor hw vif) vif.iftype.reord r.skb = true ∧ 8 ≤ r.tid :=
    processUnit_none rfl k _
  rw [reorder, Option.isSome_map, ← hnone, Option.isSome_iff_ne_none]

theorem flushThen_isSome (hs : List Handled) :
    (flushThen hw k vif r (some hs)).isSome = true ↔
      (r.isQos = true →
        ¬ (flushFinds (poolFor hw vif) vif.iftype.reord r.skb = true ∧ 8 ≤ r.tid)) := by
  have hnone := flushTid_none (p := poolFor hw vif) rfl k r.skb r.tid
  unfold flushThen
  cases hqos : r.isQos with
  | false => simp
  | true =>
    rw [if_pos rfl, ← hnone]
    cases (poolFor hw vif).flushTid k r.skb r.tid <;> simp

theorem tid_guard {b : Bool} {n : ℕ} : ¬ (b = true ∧ 8 ≤ n) ↔ (8 ≤ n → b = false) := by
  cases b <;> simp

theorem tid_isSome (forward : Bool) (places : List Place) (hs : List Handled) :
    (if r.isQos && hdr.flagsNeedReord then reorder hw env k vif r forward places
      else flushThen hw k vif r (some hs)).isSome = true ↔ TidFits hw (outer env) hdr vif r := by
  unfold TidFits
  cases hqos : r.isQos with
  | false =>
    rw [Bool.false_and, if_neg Bool.false_ne_true, flushThen_isSome]
    simp [hqos]
  | true =>
    cases hneed : hdr.flagsNeedReord with
    | true =>
      rw [Bool.and_self, if_pos rfl, reorder_isSome, tid_guard]
      simp [outer]
    | false =>
      rw [Bool.and_false, if_neg Bool.false_ne_true, flushThen_isSome, tid_guard]
      simp [hqos]

theorem rxDataSkb_sta (hw : Hw) (env : RelayEnv) (hdr : HwRxhdr) (hsta : vif.iftype = .station ∨ vif.iftype = .p2pClient) (i : ℕ)
    (skb : SkBuff) : ∃ hs, rxDataSkb hw env hdr i vif skb = some hs := by
  have hpeeks : vif.peeks = false := by
    rcases hsta with h | h <;> simp [Vif.peeks, Vif.isAp, h]
  exact ⟨_, by rw [rxDataSkb, hpeeks, Bool.and_false, if_neg Bool.false_ne_true]⟩

theorem branch_isSome : (branch hw env hdr k vif r).isSome = true ↔
    (vif.iftype.reord ≠ .other → TidFits hw (outer env) hdr vif r) := by
  have hsta : vif.iftype = .station ∨ vif.iftype = .p2pClient →
      ((staBranch hw env hdr k vif r).isSome = true ↔ TidFits hw (outer env) hdr vif r) := by
    intro h
    obtain ⟨hs, hhs⟩ := rxDataSkb_sta hw env hdr h 0 r.skb
    rw [staBranch, hhs]
    exact tid_isSome true [] hs
  have hap : (apBranch hw env hdr k vif r).isSome = true ↔ TidFits hw (outer env) hdr vif r :=
    tid_isSome _ _ _
  unfold branch
  cases htype : vif.iftype with
  | station => simpa [NlIftype.reord] using hsta (.inl htype)
  | p2pClient => simpa [NlIftype.reord] using hsta (.inr htype)
  | ap | p2pGo => simpa [NlIftype.reord] using hap
  | apVlan | meshPoint | monitor | other => simp [NlIftype.reord]

end Branch

theorem whole_isSome : (wholeCall hw env hdr k f).isSome = true ↔ WholeReturns hw env hdr f := by
  unfold wholeCall WholeReturns RxRelay.deliver
  cases f.flagsIs80211Mpdu with
  | true => simp
  | false =>
    cases frameVif hw hdr with
    | none => simp
    | some vif => simpa using branch_isSome

theorem append_isSome (room : ℕ) (c : DefragCtrlInfo) :
    (c.append room f).isSome = true ↔ Appends room c f := by
  unfold DefragCtrlInfo.append Appends
  split_ifs with hshort hfull
  · exact ⟨fun h => (by cases h), fun h => absurd hshort (not_lt.mpr h.1)⟩
  · exact ⟨fun h => (by cases h), fun h => absurd hfull (not_lt.mpr h.2)⟩
  · exact ⟨fun _ => ⟨not_lt.mp hshort, not_lt.mp hfull⟩, fun _ => rfl⟩

theorem nextCall_isSome (d : DefragCtrlInfo) : (nextCall hw env hdr f d).isSome = true ↔
    (f.moreFrag = false → ∀ base ∈ getVif hw hdr.flagsVifIdx,
      ¬ SplitFails hdr base ((outer env).amsduTo8023s 0)) := by
  unfold nextCall
  cases f.moreFrag with
  | true => simp
  | false =>
    cases getVif hw hdr.flagsVifIdx with
    | none => simp
    | some base =>
      have hsplit : rxDataSkb hw env hdr 0 base (SkBuff.ofList d.skb) = none ↔
          SplitFails hdr base ((outer env).amsduTo8023s 0) := rxDataSkb_none _
      simp [← hsplit, Option.isSome_iff_ne_none]

theorem fragment_isSome :
    (fragmentCall hw env hdr k f).isSome = true ↔ FragmentReturns hw env hdr f := by
  unfold fragmentCall FragmentReturns
  cases hfind : findDefrag f hw.defragList with
  | none =>
    dsimp only
    cases f.moreFrag with
    | false => simpa using whole_isSome
    | true =>
      cases env.defragAlloc with
      | false => simp
      | true =>
        simp only [if_true, Option.isSome_map, DefragCtrlInfo.start]
        split_ifs with hroom
        · simpa using hroom
        · simpa using hroom
  | some c =>
    dsimp only
    by_cases hnum : c.nextFn = f.fragNum
    · rw [if_neg (not_not.mpr hnum), ← append_isSome]
      cases happ : c.append env.defragRoom f with
      | none => simp [hnum]
      | some d => simpa [hnum] using nextCall_isSome d
    · rw [if_pos hnum]
      simp [hnum]

/-- A call returns exactly in these cases. -/
theorem call_isSome :
    (rwnxRxdataindAicwf hw env hdr k f).isSome = true ↔ Returns hw env hdr f := by
  unfold Returns
  cases hamsdu : f.isData && f.isAmsdu with
  | true =>
    have hloop : (rwnxRxdataindAicwf hw env hdr k f).isSome = true ↔
        ∃ hs, amsduLoop hw env hdr (amsduSkb f) = (some true, hs) := by
      rw [rwnxRxdataindAicwf, hamsdu, if_pos rfl]
      dsimp only
      rw [amsduSkb]
      rcases amsduLoop hw env hdr (skbPull (f.pullLen-8) f.skb) with ⟨_ | _ | _, hs⟩ <;> simp
    rw [hloop, if_pos rfl]
    constructor
    · rintro ⟨hs, h⟩
      exact fits_of_loop h _
    · intro h
      cases hvif : getVif hw hdr.flagsVifIdx with
      | none => exact ⟨_, amsdu_loop_noVif hvif le_rfl h⟩
      | some base => exact ⟨_, amsdu_loop hvif le_rfl h⟩
  | false =>
    rw [if_neg Bool.false_ne_true]
    cases hfrag : f.isData && isFragment f with
    | true =>
      rw [call_fragment hamsdu hfrag, if_pos rfl]
      exact fragment_isSome
    | false =>
      rw [call_whole hamsdu hfrag, if_neg Bool.false_ne_true]
      exact whole_isSome

/-! ## What is queued -/

/-- The frames that wait come from those that waited and frame `k`, and any other number is handed
up or waits as often as before. -/
structure Moves (p q : Pool) (k : ℕ) (out : List (ℕ × Ind)) : Prop where
  counts : ∀ j, j ≠ k → handedUp out j+waiting q j = waiting p j
  skbs : ∀ e ∈ listed q.stasReordList,
    e.skb = k ∨ e.skb ∈ (listed p.stasReordList).map Element.skb

theorem moves_same {p q : Pool} (h : q.stasReordList = p.stasReordList) : Moves p q k [] where
  counts j _ := by rw [handedUp_nil, Nat.zero_add, waiting_eq, waiting_eq, h]
  skbs e he := .inr (List.mem_map_of_mem (h ▸ he))

theorem moves_of_placed {p q : Pool} {out : List (ℕ × Ind)} {l : List ℕ}
    (hl : ∀ j ∈ l, j = k) (hplaced : ((listed q.stasReordList).map Element.skb++
      out.map Prod.fst).Perm (l++(listed p.stasReordList).map Element.skb)) :
    ∀ e ∈ listed q.stasReordList,
      e.skb = k ∨ e.skb ∈ (listed p.stasReordList).map Element.skb := by
  intro e he
  have hmem := hplaced.mem_iff.mp (List.mem_append_left _ (List.mem_map_of_mem he))
  exact (List.mem_append.mp hmem).imp_left (hl e.skb)

section Branch
variable {vif : Vif} {r : Ready} {res : Result}

theorem reorder_moves (hmac : (reordMac vif.iftype.reord r.skb).isSome = true) {forward : Bool}
    {places : List Place} (h : reorder hw env k vif r forward places = some res) :
    Moves hw.pool res.1.pool k res.2.2 := by
  obtain ⟨x, hx, rfl⟩ := Option.map_eq_some_iff.mp h
  obtain ⟨up, hcounts, -⟩ := processUnit_counts rfl hmac hx
  constructor
  · intro j hj
    have hother := hcounts j
    rw [if_neg (fun hk => hj hk.1)] at hother
    exact hother
  · exact moves_of_placed (p := poolFor hw vif) (l := [k]) (by simp) (processUnit_placed hx)

theorem flushThen_moves (hmac : (reordMac vif.iftype.reord r.skb).isSome = true)
    {hs : Option (List Handled)} (h : flushThen hw k vif r hs = some res) :
    Moves hw.pool res.1.pool k res.2.2 := by
  unfold flushThen at h
  split_ifs at h
  · obtain ⟨x, hx, hrest⟩ := Option.bind_eq_some_iff.mp h
    obtain ⟨us, -, hres⟩ := Option.bind_eq_some_iff.mp hrest
    obtain rfl := Option.some.inj hres
    constructor
    · exact fun j _ => flushTid_counts rfl hx j
    · exact moves_of_placed (p := poolFor hw vif) (l := []) (by simp)
        (flushTid_placed rfl hmac hx)
  · obtain ⟨us, -, rfl⟩ := Option.map_eq_some_iff.mp h
    exact moves_same rfl

theorem branch_moves (h : branch hw env hdr k vif r = some res) :
    Moves hw.pool res.1.pool k res.2.2 := by
  unfold branch at h
  cases htype : vif.iftype with
  | station | p2pClient =>
    have hmac : (reordMac vif.iftype.reord r.skb).isSome = true :=
      reord_isSome (by simp [htype, NlIftype.reord]) _
    simp only [htype, staBranch] at h
    split_ifs at h
    · exact reorder_moves hmac h
    · exact flushThen_moves hmac h
  | ap | p2pGo =>
    have hmac : (reordMac vif.iftype.reord r.skb).isSome = true :=
      reord_isSome (by simp [htype, NlIftype.reord]) _
    simp only [htype] at h
    unfold apBranch at h
    by_cases hqos : (r.isQos && hdr.flagsNeedReord) = true
    · rw [if_pos hqos] at h
      exact reorder_moves hmac h
    · rw [if_neg hqos] at h
      exact flushThen_moves hmac h
  | apVlan | meshPoint | monitor | other =>
    simp only [htype, Option.some.injEq] at h
    rw [← h]
    exact moves_same rfl

end Branch

theorem whole_moves {res : Result} (h : wholeCall hw env hdr k f = some res) :
    Moves hw.pool res.1.pool k res.2.2 := by
  unfold wholeCall RxRelay.deliver at h
  split_ifs at h
  · rw [← Option.some.inj h]
    exact moves_same rfl
  · cases hvif : frameVif hw hdr with
    | none =>
      rw [hvif] at h
      rw [← Option.some.inj h]
      exact moves_same rfl
    | some vif =>
      rw [hvif] at h
      exact branch_moves h

theorem call_moves {res : Result} (h : rwnxRxdataindAicwf hw env hdr k f = some res) :
    Moves hw.pool res.1.pool k res.2.2 := by
  cases hamsdu : f.isData && f.isAmsdu with
  | true =>
    rw [rwnxRxdataindAicwf, hamsdu, if_pos rfl] at h
    dsimp only at h
    split_ifs at h
    rw [← Option.some.inj h]
    exact moves_same rfl
  | false =>
    cases hfrag : f.isData && isFragment f with
    | false =>
      rw [call_whole hamsdu hfrag] at h
      exact whole_moves h
    | true =>
      rw [call_fragment hamsdu hfrag] at h
      unfold fragmentCall at h
      cases hfind : findDefrag f hw.defragList with
      | none =>
        simp only [hfind] at h
        split_ifs at h
        · obtain ⟨d, -, rfl⟩ := Option.map_eq_some_iff.mp h
          exact moves_same rfl
        · rw [← Option.some.inj h]
          exact moves_same rfl
        · exact whole_moves h
      | some c =>
        simp only [hfind] at h
        split_ifs at h
        · rw [← Option.some.inj h]
          exact moves_same rfl
        · obtain ⟨d, -, hnext⟩ := Option.bind_eq_some_iff.mp h
          unfold nextCall at hnext
          split_ifs at hnext
          · rw [← Option.some.inj hnext]
            exact moves_same rfl
          · cases hvif : getVif hw hdr.flagsVifIdx with
            | none =>
              rw [hvif] at hnext
              rw [← Option.some.inj hnext]
              exact moves_same rfl
            | some base =>
              rw [hvif] at hnext
              obtain ⟨hs, -, rfl⟩ := Option.map_eq_some_iff.mp hnext
              exact moves_same rfl

end Call

end Parts

/-! ## The same function -/

section Same
variable (hw : Hw) (env : RelayEnv) (hdr : HwRxhdr) (k : ℕ)

theorem branch_same (vif : Vif) (r : Ready) :
    (branch hw env hdr k vif r).map Prod.fst =
      (RxDataInd.branch hw (outer env) hdr k vif r).map Prod.fst := by
  have hreorder : ∀ forward places, (reorder hw env k vif r forward places).map Prod.fst =
      (RxDataInd.reorder hw (outer env) k vif r forward).map Prod.fst := by
    intro forward places
    unfold reorder RxDataInd.reorder
    rw [Option.map_map, Option.map_map]
    rfl
  have hflush : ∀ (hs : Option (List Handled)) (us : Option (List Use)),
      (hs = none ↔ us = none) → (flushThen hw k vif r hs).map Prod.fst =
        (RxDataInd.flushThen hw k vif r us).map Prod.fst := by
    intro hs us hsame
    unfold flushThen RxDataInd.flushThen
    split_ifs
    · cases (poolFor hw vif).flushTid k r.skb r.tid with
      | none => rfl
      | some x => cases hs <;> cases us <;> simp_all
    · cases hs <;> cases us <;> simp_all
  unfold branch RxDataInd.branch
  cases vif.iftype with
  | station | p2pClient =>
    dsimp only
    unfold staBranch RxDataInd.staBranch
    split_ifs
    · exact hreorder _ _
    · exact hflush _ _ (by rw [rxDataSkb_none, rxDataOrFree_none])
  | ap | p2pGo =>
    dsimp only
    unfold apBranch RxDataInd.apBranch
    dsimp only
    split_ifs
    all_goals first | exact hreorder _ _ | exact hflush _ _ (by simp)
  | apVlan | meshPoint | monitor | other => rfl

theorem deliver_same (f : RxFrame) : (RxRelay.deliver hw env hdr k f).map Prod.fst =
    (RxDataInd.deliver hw (outer env) hdr k f).map Prod.fst := by
  unfold RxRelay.deliver RxDataInd.deliver frameVif
  cases (getVif hw hdr.flagsVifIdx).bind (vlanVif hw hdr) with
  | none => rfl
  | some vif => exact branch_same hw env hdr k vif (readyOf f)

theorem finish_same (f : RxFrame) (r : DefragMachine.RwnxHw × List Outcome) :
    (RxRelay.finish hw env hdr k f r).map Prod.fst =
      (RxDataInd.finish hw (outer env) hdr k f r).map Prod.fst := by
  obtain ⟨⟨cs, oops⟩, os⟩ := r
  unfold RxRelay.finish RxDataInd.finish
  cases oops with
  | true => rfl
  | false =>
    simp only [Bool.false_eq_true, if_false]
    rcases os with _ | ⟨o, os⟩
    · rfl
    cases o with
    | discard | kept | amsdu f | mgmt f => rfl
    | whole g skb =>
      exact deliver_same _ _ _ _ f
    | reassembled bytes frags =>
      dsimp only
      cases getVif hw hdr.flagsVifIdx with
      | none => rfl
      | some base =>
        have hnone : rxDataSkb { hw with defragList := cs } env hdr 0 base (SkBuff.ofList bytes) =
            none ↔ rxDataOrFree { hw with defragList := cs } hdr base (SkBuff.ofList bytes)
              ((outer env).amsduTo8023s 0) = none := by
          rw [rxDataSkb_none, rxDataOrFree_none]
        revert hnone
        dsimp only
        cases rxDataSkb { hw with defragList := cs } env hdr 0 base (SkBuff.ofList bytes) <;>
          cases rxDataOrFree { hw with defragList := cs } hdr base (SkBuff.ofList bytes)
            ((outer env).amsduTo8023s 0) <;> simp

/-- It is the function of `RxDataInd`: what it does to the tables is the same. -/
theorem call_same (f : RxFrame) : (rwnxRxdataindAicwf hw env hdr k f).map Prod.fst =
    (RxDataInd.uploadPath ((amsduSkb f).len+1) hw (outer env) hdr k f).map Prod.fst := by
  unfold rwnxRxdataindAicwf RxDataInd.uploadPath
  split_ifs
  · have hsame := loop_map (amsduTurn_stop hw env hdr) (amsduTurn_next hw env hdr) ((amsduSkb f).len+1) 0 (amsduSkb f)
    rw [amsduSkb] at hsame ⊢
    dsimp only
    rw [hsame]
    unfold amsduLoop
    rcases loop (amsduTurn hw env hdr) ((skbPull (f.pullLen-8) f.skb).len+1) 0
      (skbPull (f.pullLen-8) f.skb) with ⟨_ | _ | _, hs⟩ <;> rfl
  · exact finish_same hw env hdr k f _

end Same

end AIC.RxRelayReturns
