import Aic8800.ReorderRun

/-!
# A stream without loss

The frames of one station and TID, each received once and less than a window
ahead of the first one missing. Every call of `reord_process_unit` reaches the
same control, which hands up the contiguous run received so far. At most 63
frames wait on the list, so 64 elements on the free queue are enough.
-/

set_option autoImplicit false

namespace AIC.ReorderStream
open AIC.ReorderMachine AIC.ReorderWindow AIC.ReorderRun Lib.ReorderBuffer

/-! ## One unit on its control -/

/-- A unicast frame, no EAPOL, that the station `mac` and `tid` are keyed by. -/
structure StreamUnit (t : IfType) (mac : List UInt8) (tid : ℕ) (u : RxUnit) : Prop where
  long : 14 < u.skb.len
  proto : ethProto u.skb ≠ ETH_P_PAE
  unicast : isMcast u.skb = false
  key : reordMac t u.skb = some mac
  tid_eq : u.tid = tid

/-- The station is listed and `c` is its control for `tid`. -/
def Serves (p : RxPriv) (mac : List UInt8) (tid : ℕ) (c : ReordCtrl) : Prop :=
  ∃ info, findSta mac p.stasReordList = some info ∧ info.preorderCtrl tid = c

/-- `c` is the control the next frame of the station and `tid` reaches. -/
def Reaches (kmalloc : Bool) (p : RxPriv) (mac : List UInt8) (tid : ℕ) (c : ReordCtrl) : Prop :=
  ∃ stas info, lookupSta kmalloc p mac = some (stas, info) ∧ reenable (info.preorderCtrl tid) = c

theorem serves_reaches {p : RxPriv} {mac : List UInt8} {tid : ℕ} {c : ReordCtrl}
    (h : Serves p mac tid c) (hc : c.enable = true) (kmalloc : Bool) :
    Reaches kmalloc p mac tid c := by
  obtain ⟨info, hf, hi⟩ := h
  exact ⟨_, info, by rw [lookupSta, hf], by rw [hi, reenable, if_pos hc]⟩

theorem lookup_find {kmalloc : Bool} {p : RxPriv} {mac : List UInt8} {stas : List ReordCtrlInfo}
    {info : ReordCtrlInfo} (h : lookupSta kmalloc p mac = some (stas, info)) :
    findSta mac stas = some info := by
  unfold lookupSta at h
  cases hf : findSta mac p.stasReordList with
  | some found =>
    rw [hf] at h
    obtain ⟨rfl, rfl⟩ := Prod.mk.inj (Option.some.inj h)
    exact hf
  | none =>
    simp only [hf] at h
    split_ifs at h
    obtain ⟨rfl, rfl⟩ := Prod.mk.inj (Option.some.inj h)
    unfold findSta at hf ⊢
    rw [List.find?_append, hf]
    simp [reordInitSta]

theorem find_put {mac : List UInt8} {tid : ℕ} {c : ReordCtrl} {stas : List ReordCtrlInfo}
    {info : ReordCtrlInfo} (h : findSta mac stas = some info) :
    findSta mac (putCtrl mac tid c stas) =
      some { info with preorderCtrl := Function.update info.preorderCtrl tid c } := by
  induction stas with
  | nil => simp [findSta] at h
  | cons s rest ih =>
    unfold findSta at h ih ⊢
    by_cases hs : (s.macAddr == mac) = true
    · simp only [List.find?_cons, hs, Option.some.injEq] at h
      rw [putCtrl, if_pos hs, h, List.find?_cons_of_pos (h ▸ hs)]
    · simp only [List.find?_cons, Bool.eq_false_of_not_eq_true hs] at h
      simp only [putCtrl, Bool.eq_false_of_not_eq_true hs, Bool.false_eq_true, if_false,
        List.find?_cons]
      exact ih h

theorem reenable_enable (c : ReordCtrl) : (reenable c).enable = true := by
  unfold reenable
  split_ifs with h
  · exact h
  · rfl

theorem needCheck_enable (c : ReordCtrl) (n : ℕ) : (reordNeedCheck c n).1.enable = c.enable := by
  simp only [reordNeedCheck]
  split_ifs <;> rfl

theorem process_enable (c : ReordCtrl) (bforced : Bool) :
    (reordRxframesProcess c bforced).1.enable = c.enable := by
  unfold reordRxframesProcess
  cases c.reordList <;> rfl

theorem unit_enable (c : ReordCtrl) (f : RecvMsdu) : (reordUnit c f).1.enable = c.enable := by
  have hn := needCheck_enable c f.seqNum
  simp only [reordUnit]
  cases henq : reordRxframeEnqueue f (reordNeedCheck c f.seqNum).1.reordList with
  | none => split_ifs <;> exact hn
  | some l =>
    split_ifs
    · exact hn
    · exact hn
    · exact hn
    · simp only [reordRxframesInd, process_enable, hn]

theorem unit_on_control {kmalloc : Bool} {p : RxPriv} {t : IfType} {mac : List UInt8} {tid : ℕ}
    {u : RxUnit} {c : ReordCtrl} (hvif : p.rwnxVif = some t) (hu : StreamUnit t mac tid u)
    (htid : tid < 8) (hfree : p.rxframesFreequeue ≠ 0) (hc : Reaches kmalloc p mac tid c) :
    ∃ q, reordProcessUnit kmalloc p u = some (q, (reordUnit c u.msdu).2) ∧
      q.rwnxVif = some t ∧
      q.rxframesFreequeue+1 = p.rxframesFreequeue+(reordUnit c u.msdu).2.length ∧
      Serves q mac tid (reordUnit c u.msdu).1 := by
  obtain ⟨stas, info, hl, rfl⟩ := hc
  have hlen := hu.long
  have hno : ¬ (ethProto u.skb = ETH_P_PAE ∨ isMcast u.skb = true) := by
    simp [hu.proto, hu.unicast]
  let r := reordUnit (reenable (info.preorderCtrl tid)) u.msdu
  let q := { p with
    rxframesFreequeue := p.rxframesFreequeue-1+r.2.length
    stasReordList := putCtrl mac tid r.1 stas }
  have hstep : reordProcessUnit kmalloc p u = some (q, r.2) := by
    simp only [reordProcessUnit, hvif, if_neg (not_le.mpr hlen), if_neg hfree, if_neg hno, hu.key,
      hl, hu.tid_eq, if_neg (not_le.mpr htid), q, r]
  have hcount : q.rxframesFreequeue+1 = p.rxframesFreequeue+r.2.length := by
    simp only [q]
    omega
  exact ⟨q, hstep, hvif, hcount, _, find_put (lookup_find hl), by simp [r]⟩

/-! ## The stream -/

section
variable (unit : ℕ → RxUnit) (b : ℕ)

/-- The frame at a position of the stream that starts at `b`. -/
def frameAt (q : ℤ) : RecvMsdu := (unit (q-b).toNat).msdu

theorem frameAt_add (i : ℕ) : frameAt unit b (b+i) = (unit i).msdu := by
  simp [frameAt]

/-- The control after the frames `pre` of the stream. -/
def Collects (pre : List ℕ) (c : ReordCtrl) (out : List Ind) : Prop :=
  ∃ buf rel, Tracks c buf ∧ Windowed 64 buf ∧
    Gathered (frameAt unit b) b (pre.map (fun i : ℕ => (b : ℤ)+i)) buf rel ∧
    out = (rel.map Prod.snd).map .listed

variable {unit b}

theorem mem_positions {pre : List ℕ} (i : ℕ) :
    (b : ℤ)+i ∈ pre.map (fun i : ℕ => (b : ℤ)+i) ↔ i ∈ pre := by
  simp

theorem unit_collects {pre : List ℕ} {c : ReordCtrl} {out : List Ind}
    (h : Collects unit b pre c out) {i : ℕ} (hi : i ∉ pre) (hnear : ∀ j, j+64 ≤ i → j ∈ pre)
    (hn : (unit i).seqNum = (b+i) % 4096) :
    Collects unit b (pre++[i]) (reordUnit c (unit i).msdu).1
      (out++(reordUnit c (unit i).msdu).2) := by
  obtain ⟨buf, rel, hc, hb, hg, rfl⟩ := h
  have hp : (b : ℤ)+i ∉ pre.map (fun i : ℕ => (b : ℤ)+i) := by rwa [mem_positions]
  have hnear' : ∀ q : ℤ, (b : ℤ) ≤ q → q+(64 : ℕ) ≤ (b : ℤ)+i →
      q ∈ pre.map (fun i : ℕ => (b : ℤ)+i) := by
    intro q h1 h2
    have hq : q = (b : ℤ)+(q-b).toNat := by omega
    rw [hq, mem_positions]
    exact hnear _ (by omega)
  obtain ⟨hle, l, hl⟩ := hg.turn (frameAt unit b) hp (by omega)
  have hin : (b : ℤ)+i < buf.next+64 := by
    by_contra hlt
    exact hg.missing (hnear' buf.next hg.base_le (by omega))
  have hsn : (unit i).msdu.seqNum = snAt ((b : ℤ)+i) := by
    have h1 := snAt_cast ((b : ℤ)+i)
    have h2 : (unit i).msdu.seqNum = (b+i) % 4096 := hn
    omega
  have hgather := arrive_gathered (frameAt unit b) hg hp (by omega) hnear'
  rw [frameAt_add] at hl hgather
  obtain ⟨htrack, hout⟩ := unit_tracks hc hb hsn (by omega) (by omega)
  have haside : aside buf ((b : ℤ)+i) (unit i).msdu = [] := by
    rw [aside, if_neg (by omega), hl]
    rfl
  refine ⟨_, rel++(arrive 64 buf (b+i, (unit i).msdu)).2, htrack,
    arrive_windowed (by decide) hb _, ?_, ?_⟩
  · rw [List.map_append]
    exact hgather
  · rw [hout, haside, List.nil_append, List.map_append, List.map_append]

theorem fresh_collects {c : ReordCtrl} (h : Fresh c) (hn : (unit 0).seqNum = b % 4096) :
    Collects unit b [0] (reordUnit c (unit 0).msdu).1 (reordUnit c (unit 0).msdu).2 := by
  have hlt : (unit 0).msdu.seqNum < 4096 := by
    have : (unit 0).msdu.seqNum = b % 4096 := hn
    omega
  have hsn : (unit 0).msdu.seqNum = snAt (b : ℤ) := by
    have h1 := snAt_cast (b : ℤ)
    have h2 : (unit 0).msdu.seqNum = b % 4096 := hn
    omega
  rw [unit_fresh h.indSn hlt]
  have hstart : Collects unit b [] { c with indSn := (unit 0).msdu.seqNum } [] :=
    ⟨⟨b, []⟩, [], ⟨h.wsize, hsn, h.empty, by simp [Numbered]⟩, empty_windowed _,
      gathered_start _ _, rfl⟩
  exact unit_collects hstart (by simp) (by omega) hn

theorem collects_room {pre : List ℕ} {c : ReordCtrl} {out : List Ind}
    (h : Collects unit b pre c out) (hpre : pre.Nodup) : pre.length ≤ out.length+63 := by
  obtain ⟨buf, rel, -, hb, hg, rfl⟩ := h
  have hlen := hg.length_le (frameAt unit b) hb
    (hpre.map (fun i j (h : (b : ℤ)+i = b+j) => by omega)) (by simp)
  simpa using hlen

theorem collects_run {pre : List ℕ} {c : ReordCtrl} {out : List Ind}
    (h : Collects unit b pre c out) :
    ∃ m, (∀ j < m, j ∈ pre) ∧ m ∉ pre ∧
      out = (List.range m).map (fun i => .listed (unit i).msdu) ∧
      ((∀ i ∈ pre, i < m) → c.reordList = []) := by
  obtain ⟨buf, rel, hc, -, hg, rfl⟩ := h
  have hbase := hg.base_le
  have hm : ((b : ℤ)+(buf.next-b).toNat) = buf.next := by omega
  refine ⟨(buf.next-b).toNat, ?_, ?_, ?_, ?_⟩
  · intro j hj
    rw [← mem_positions (b := b)]
    exact hg.low _ (by omega) (by omega)
  · rw [← mem_positions (b := b), hm]
    exact hg.missing
  · rw [hg.out_eq, stretch_values, List.map_map]
    apply List.map_congr_left
    intro i _
    simp [frameAt_add]
  · intro hall
    rw [hc.list, List.map_eq_nil_iff, List.eq_nil_iff_forall_not_mem]
    intro g hgm
    obtain ⟨hgA, hgt, -⟩ := (hg.held_iff g).mp hgm
    obtain ⟨i, hi, hig⟩ := List.mem_map.mp hgA
    have := hall i hi
    omega

theorem units_concat {kmalloc : ℕ → Bool} {k : ℕ} {p q r : RxPriv} {us : List RxUnit} {u : RxUnit}
    {out rest : List Ind} (hus : reordProcessUnits kmalloc k p us = some (q, out))
    (hu : reordProcessUnit (kmalloc (k+us.length)) q u = some (r, rest)) :
    reordProcessUnits kmalloc k p (us++[u]) = some (r, out++rest) := by
  induction us generalizing k p out with
  | nil =>
    obtain ⟨rfl, rfl⟩ := Prod.mk.inj (Option.some.inj hus)
    simp only [List.length_nil, Nat.add_zero] at hu
    simp [reordProcessUnits, hu]
  | cons v vs ih =>
    simp only [reordProcessUnits, Option.bind_eq_bind, Option.bind_eq_some_iff] at hus
    obtain ⟨s, hv, s', hvs, heq⟩ := hus
    obtain ⟨rfl, rfl⟩ := Prod.mk.inj (Option.some.inj heq)
    have hrest := ih hvs (by rw [List.length_cons] at hu; rw [← hu]; congr 2; omega)
    simp [reordProcessUnits, hv, hrest]

theorem units_collect {kmalloc : ℕ → Bool} {p : RxPriv} {t : IfType} {mac : List UInt8}
    {tid n : ℕ} {c : ReordCtrl} {order : List ℕ} (hvif : p.rwnxVif = some t) (htid : tid < 8)
    (hc : Reaches (kmalloc 0) p mac tid c) (hfresh : Fresh c) (hen : c.enable = true)
    (hfree : min n 64 ≤ p.rxframesFreequeue)
    (hu : ∀ i < n, StreamUnit t mac tid (unit i) ∧ (unit i).seqNum = (b+i) % 4096)
    (horder : (0::order).Perm (List.range n))
    (hnear : ∀ pre i, pre++[i] <+: 0::order → ∀ j, j+64 ≤ i → j ∈ pre)
    (pre : List ℕ) (hpre : 0::pre <+: 0::order) :
    ∃ q d out, reordProcessUnits kmalloc 0 p ((0::pre).map unit) = some (q, out) ∧
      q.rwnxVif = some t ∧ Serves q mac tid d ∧ d.enable = true ∧
      q.rxframesFreequeue+(0::pre).length = p.rxframesFreequeue+out.length ∧
      Collects unit b (0::pre) d out := by
  have hlt : ∀ i ∈ 0::order, i < n := fun i hi => List.mem_range.mp (horder.mem_iff.mp hi)
  have hnodup : (0::order).Nodup := horder.nodup_iff.mpr List.nodup_range
  have h0 := hu 0 (hlt 0 (by simp))
  induction pre using List.reverseRecOn with
  | nil =>
    have hn : 0 < n := hlt 0 (by simp)
    obtain ⟨q, hstep, hq, hcount, hs⟩ := unit_on_control hvif h0.1 htid (by omega) hc
    refine ⟨q, _, _, ?_, hq, hs, (unit_enable _ _).trans hen, hcount,
      fresh_collects hfresh h0.2⟩
    simp [reordProcessUnits, hstep]
  | append_singleton pre i ih =>
    obtain ⟨q, d, out, hrun, hq, hs, hd, hcount, hcol⟩ :=
      ih ((List.prefix_append (0::pre) [i]).trans hpre)
    have hin : i < n := hlt i (hpre.subset (by simp))
    have hnd := hnodup.sublist hpre.sublist
    have hi : i ∉ 0::pre := by
      intro hmem
      exact (List.disjoint_of_nodup_append (show ((0::pre)++[i]).Nodup from hnd)) hmem (by simp)
    -- the elements in use are at most 63, and fewer than the frames of the stream
    have hroom := collects_room hcol (hnd.sublist (List.sublist_append_left (0::pre) [i]))
    have hshort : ((0::pre)++[i]).length ≤ n := by
      have := hpre.length_le.trans_eq horder.length_eq
      simpa using this
    rw [List.length_append, List.length_singleton] at hshort
    have hfree' : q.rxframesFreequeue ≠ 0 := by omega
    have hnext := serves_reaches hs hd (kmalloc (0+(pre.length+1)))
    obtain ⟨r, hstep, hr, hcount', hs'⟩ := unit_on_control hq (hu i hin).1 htid hfree' hnext
    refine ⟨r, _, _, ?_, hr, hs', (unit_enable _ _).trans hd, ?_,
      unit_collects hcol hi (hnear (0::pre) i hpre) (hu i hin).2⟩
    · rw [← List.cons_append, List.map_append, List.map_singleton]
      exact units_concat hrun (by rw [List.length_map]; exact hstep)
    · rw [← List.cons_append, List.length_append, List.length_append, List.length_singleton]
      omega

/-- The frames of a stream in any order of arrival that keeps within the
window go up in the order of the stream, each as soon as all before it are there. -/
theorem stream_in_order {kmalloc : ℕ → Bool} {p : RxPriv} {t : IfType} {mac : List UInt8}
    {tid n : ℕ} {c : ReordCtrl} {order : List ℕ} (hvif : p.rwnxVif = some t) (htid : tid < 8)
    (hc : Reaches (kmalloc 0) p mac tid c) (hfresh : Fresh c)
    (hfree : min n 64 ≤ p.rxframesFreequeue)
    (hu : ∀ i < n, StreamUnit t mac tid (unit i) ∧ (unit i).seqNum = (b+i) % 4096)
    (horder : order.Perm (List.range n)) (hfirst : order.head? = some 0)
    (hnear : ∀ pre i, pre++[i] <+: order → ∀ j, j+64 ≤ i → j ∈ pre) :
    (∀ pre, pre <+: order → ∃ q m, (∀ j < m, j ∈ pre) ∧ m ∉ pre ∧
      reordProcessUnits kmalloc 0 p (pre.map unit) =
        some (q, (List.range m).map (fun i => .listed (unit i).msdu))) ∧
    ∃ q d, reordProcessUnits kmalloc 0 p (order.map unit) =
        some (q, (List.range n).map (fun i => .listed (unit i).msdu)) ∧
      Serves q mac tid d ∧ d.reordList = [] := by
  obtain ⟨rest, rfl⟩ : ∃ rest, order = 0::rest := by
    cases order with
    | nil => simp at hfirst
    | cons i rest => exact ⟨rest, by rw [Option.some.inj hfirst]⟩
  have hen : c.enable = true := by
    obtain ⟨stas, info, -, rfl⟩ := hc
    exact reenable_enable _
  have hrun := units_collect hvif htid hc hfresh hen hfree hu horder hnear
  constructor
  · intro pre hpre
    cases pre with
    | nil => exact ⟨p, 0, by omega, List.not_mem_nil, rfl⟩
    | cons i pre =>
      obtain rfl : i = 0 := (List.cons_prefix_cons.mp hpre).1
      obtain ⟨q, d, out, hq, -, -, -, -, hcol⟩ := hrun pre hpre
      obtain ⟨m, hm, hmiss, rfl, -⟩ := collects_run hcol
      exact ⟨q, m, hm, hmiss, hq⟩
  · obtain ⟨q, d, out, hq, -, hs, -, -, hcol⟩ := hrun rest (List.prefix_refl _)
    obtain ⟨m, hm, hmiss, rfl, hempty⟩ := collects_run hcol
    have hmem : ∀ j, j ∈ 0::rest ↔ j < n := fun j => by rw [horder.mem_iff, List.mem_range]
    have hle : m ≤ n := by
      by_contra hlt
      exact absurd ((hmem n).mp (hm n (by omega))) (lt_irrefl n)
    have hge : n ≤ m := by
      by_contra hlt
      exact hmiss ((hmem m).mpr (by omega))
    obtain rfl : m = n := le_antisymm hle hge
    exact ⟨q, d, hq, hs, hempty fun i hi => (hmem i).mp hi⟩

end

def sampleFrame : SkBuff := SkBuff.ofList (List.replicate 60 2)

def sampleUnit (i : ℕ) : RxUnit := ⟨sampleFrame, (4094+i) % 4096, 0, true⟩

def samplePriv : RxPriv := ⟨some .station, false, 4, []⟩

theorem sample_stream (i : ℕ) : StreamUnit .station [2, 2, 2, 2, 2, 2] 0 (sampleUnit i) ∧
    (sampleUnit i).seqNum = (4094+i) % 4096 := by
  have hlong : 14 < sampleFrame.len := by decide
  have hproto : ethProto sampleFrame ≠ ETH_P_PAE := by decide
  have hcast : isMcast sampleFrame = false := by decide
  exact ⟨⟨hlong, hproto, hcast, rfl, rfl⟩, rfl⟩

theorem stream_in_order_wrap :
    ∃ q d, reordProcessUnits (fun _ => true) 0 samplePriv ([0, 2, 1, 3].map sampleUnit) =
        some (q, (List.range 4).map (fun i => .listed (sampleUnit i).msdu)) ∧
      Serves q [2, 2, 2, 2, 2, 2] 0 d ∧ d.reordList = [] := by
  have hc : Reaches true samplePriv [2, 2, 2, 2, 2, 2] 0 reordInitCtrl := ⟨_, _, rfl, rfl⟩
  have hnear : ∀ pre i, pre++[i] <+: [0, 2, 1, 3] → ∀ j, j+64 ≤ i → j ∈ pre := by
    intro pre i hpre j hj
    have hi : i ∈ [0, 2, 1, 3] := hpre.subset (by simp)
    simp at hi
    omega
  exact (stream_in_order rfl (by decide) hc init_fresh (by decide)
    (fun i _ => sample_stream i) (by decide) rfl hnear).2

end AIC.ReorderStream
