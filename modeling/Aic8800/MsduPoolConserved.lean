import Aic8800.MsduPool

/-!
# No element is lost

One lemma for each function of a control says which elements it gives back, one
for the stations where a changed list shows. Every call whose frame gets past
the two exits that lose an element keeps all of them, so every run of such calls
goes on, and the pool is empty only when the pending lists hold all elements.
-/

set_option autoImplicit false

namespace AIC.MsduPoolConserved
open AIC.ReorderMachine AIC.MsduPool Lib.GuardedRun Lib.PlacedOnce

/-! ## One control -/

theorem ind_moved (c : PoolCtrl) : (c.ind.1.reordList++c.ind.2.map Prod.fst).Perm c.reordList := by
  have hsplit : c.reordList = c.ind.2.map Prod.fst++c.ind.1.reordList := by
    simp only [PoolCtrl.ind, List.map_map, Function.comp_def, List.map_id']
    exact (List.takeWhile_append_dropWhile).symm
  conv_rhs => rw [hsplit]
  exact List.perm_append_comm

theorem rxframeEnqueue_perm {e : Element} {l l' : List Element}
    (h : rxframeEnqueue e l = some l') : l'.Perm (e::l) := by
  induction l generalizing l' with
  | nil =>
    obtain rfl := Option.some.inj h
    exact List.Perm.refl _
  | cons g gs ih =>
    simp only [rxframeEnqueue] at h
    split_ifs at h
    · obtain ⟨k, hk, rfl⟩ := Option.map_eq_some_iff.mp h
      exact ((ih hk).cons g).trans (List.Perm.swap ..)
    · obtain rfl := Option.some.inj h
      exact List.Perm.refl _

/-- The element of a frame is given back or on the list. -/
theorem unit_moved (c : PoolCtrl) (e : Element) :
    ((c.unit e).1.reordList++(c.unit e).2.map Prod.fst).Perm (e::c.reordList) := by
  have hback : ∀ i : Ind,
      ((c.needCheck e.msdu.seqNum).1.reordList++[(e, i)].map Prod.fst).Perm (e::c.reordList) :=
    fun _ => List.perm_append_singleton e c.reordList
  unfold PoolCtrl.unit
  dsimp only
  split_ifs
  · exact hback _
  · exact hback _
  · exact hback _
  · cases henq : rxframeEnqueue e (c.needCheck e.msdu.seqNum).1.reordList with
    | none => exact hback _
    | some l => exact (ind_moved _).trans (rxframeEnqueue_perm henq)

theorem timeoutWorker_moved (c : PoolCtrl) :
    (c.timeoutWorker.1.reordList++c.timeoutWorker.2.map Prod.fst).Perm c.reordList := ind_moved _

theorem reenable_list (c : PoolCtrl) : c.reenable.reordList = c.reordList := by
  unfold PoolCtrl.reenable
  split_ifs <;> rfl

theorem flushed_moved (c : PoolCtrl) : (c.flushed.reordList++
    (c.reordList.map fun e => (e, Ind.listed e.msdu)).map Prod.fst).Perm c.reordList := by
  simp only [List.map_map, Function.comp_def, List.map_id']
  exact List.Perm.refl _

/-! ## The stations -/

theorem putInfo_listed {mac : List UInt8} {stas : List PoolInfo} {info : PoolInfo}
    (hinfo : findInfo mac stas = some info) {tid : ℕ} (htid : tid < 8) (c : PoolCtrl) :
    (listed (putInfo mac tid c stas)++(info.preorderCtrl tid).reordList).Perm
      (listed stas++c.reordList) := by
  induction stas with
  | nil => cases hinfo
  | cons first rest ih =>
    by_cases hmac : (first.macAddr == mac) = true
    · have hfirst : first = info := by simpa [findInfo, hmac] using hinfo
      subst first
      have hone := flatMap_update (fun t => (info.preorderCtrl t).reordList) htid c.reordList
      have hctrl : (fun t => (Function.update info.preorderCtrl tid c t).reordList) =
          Function.update (fun t => (info.preorderCtrl t).reordList) tid c.reordList := by
        funext t
        by_cases ht : t = tid
        · subst t
          rw [Function.update_self, Function.update_self]
        · rw [Function.update_of_ne ht, Function.update_of_ne ht]
      rw [← hctrl] at hone
      rw [putInfo, if_pos hmac]
      simp only [listed, List.flatMap_cons, List.append_assoc]
      apply (List.perm_append_comm.append_left _).trans
      rw [← List.append_assoc]
      apply (hone.append_right _).trans
      rw [List.append_assoc]
      exact List.perm_append_comm.append_left _
    · have hrest : findInfo mac rest = some info := by simpa [findInfo, hmac] using hinfo
      rw [putInfo, if_neg hmac]
      simp only [listed, List.flatMap_cons, List.append_assoc]
      exact (ih hrest).append_left first.elements

theorem eraseInfo_listed {mac : List UInt8} {stas : List PoolInfo} {info : PoolInfo}
    (hinfo : findInfo mac stas = some info) :
    (listed (stas.eraseP fun info => info.macAddr == mac)++info.elements).Perm (listed stas) := by
  induction stas with
  | nil => cases hinfo
  | cons first rest ih =>
    by_cases hmac : (first.macAddr == mac) = true
    · have hfirst : first = info := by simpa [findInfo, hmac] using hinfo
      subst first
      have herase : (info::rest).eraseP (fun info => info.macAddr == mac) = rest := by simp [hmac]
      rw [herase]
      exact List.perm_append_comm
    · have hrest : findInfo mac rest = some info := by simpa [findInfo, hmac] using hinfo
      have herase : (first::rest).eraseP (fun info => info.macAddr == mac) =
          first::rest.eraseP (fun info => info.macAddr == mac) := by simp [hmac]
      rw [herase]
      simp only [listed, List.flatMap_cons, List.append_assoc]
      exact (ih hrest).append_left first.elements

theorem initSta_elements (mac : List UInt8) : (initSta mac).elements = [] := rfl

/-- The station is found, or is new and holds nothing. -/
theorem lookupInfo_listed {kmalloc : Bool} {p : Pool} {mac : List UInt8} {stas : List PoolInfo}
    {info : PoolInfo} (h : lookupInfo kmalloc p mac = some (stas, info)) :
    findInfo mac stas = some info ∧ listed stas = listed p.stasReordList := by
  unfold lookupInfo at h
  cases hfind : findInfo mac p.stasReordList with
  | some old =>
    rw [hfind] at h
    obtain ⟨rfl, rfl⟩ := Prod.mk.inj (Option.some.inj h)
    exact ⟨hfind, rfl⟩
  | none =>
    rw [hfind] at h
    dsimp only at h
    split_ifs at h
    obtain ⟨rfl, rfl⟩ := Prod.mk.inj (Option.some.inj h)
    constructor
    · unfold findInfo at hfind ⊢
      rw [List.find?_append, hfind]
      simp [initSta]
    · simp only [listed, List.flatMap_append, List.flatMap_singleton, initSta_elements,
        List.append_nil]

/-- A control changes; `taken` is the element of the frame that the call is about, if any. -/
theorem putBack_moved (p : Pool) (taken : List Element) (r : PoolCtrl × List (Element × Ind))
    {stas : List PoolInfo} {mac : List UInt8} {info : PoolInfo} {tid : ℕ}
    (hinfo : findInfo mac stas = some info) (htid : tid < 8)
    (hmoved : (r.1.reordList++r.2.map Prod.fst).Perm
      (taken++(info.preorderCtrl tid).reordList)) :
    (listed (p.putBack stas mac tid r).stasReordList++r.2.map Prod.fst).Perm
      (taken++listed stas) := by
  classical
  rw [List.perm_iff_count]
  intro a
  have hput := List.perm_iff_count.mp (putInfo_listed hinfo htid r.1) a
  have hmove := List.perm_iff_count.mp hmoved a
  simp only [List.count_append, Pool.putBack] at hput hmove ⊢
  omega

/-! ## The calls -/

def Conserved (p : Pool) : Prop :=
  Placed (List.range MAX_REORD_RXFRAME) p.rxframesFreequeue
    ((listed p.stasReordList).map Element.id)

theorem putBack_conserved {p : Pool} {all : List ℕ} (taken : List Element)
    {stas : List PoolInfo} {mac : List UInt8} {info : PoolInfo} {tid : ℕ}
    {r : PoolCtrl × List (Element × Ind)}
    (h : Placed all p.rxframesFreequeue ((taken++listed stas).map Element.id))
    (hinfo : findInfo mac stas = some info) (htid : tid < 8)
    (hmoved : (r.1.reordList++r.2.map Prod.fst).Perm
      (taken++(info.preorderCtrl tid).reordList)) :
    Placed all (p.putBack stas mac tid r).rxframesFreequeue
      ((listed (p.putBack stas mac tid r).stasReordList).map Element.id) := by
  apply h.give
  have hmap := (putBack_moved p taken r hinfo htid hmoved).map Element.id
  rw [List.map_append, List.map_map] at hmap
  exact hmap

/-- A frame that needs its element has a station to go to: the interface is of one of the four
types, and the station is known or can be initialised. -/
def Served (kmalloc : Bool) (p : Pool) (u : RxUnit) : Prop :=
  match p.rwnxVif with
  | none => True
  | some t => u.skb.len ≤ 14 ∨ p.rxframesFreequeue = [] ∨ ethProto u.skb = ETH_P_PAE ∨
    isMcast u.skb = true ∨ (u.tid < 8 ∧
      (reordMac t u.skb).any fun mac =>
        (findInfo mac p.stasReordList).isSome || (!p.busDown && kmalloc))

def Kept (p : Pool) : Act → Prop
  | .processUnit kmalloc _ u => Served kmalloc p u
  | .flushTid _ _ tid => p.rwnxVif.isSome = true ∧ tid < 8
  | _ => True

instance (kmalloc : Bool) (p : Pool) (u : RxUnit) : Decidable (Served kmalloc p u) := by
  unfold Served
  cases p.rwnxVif <;> dsimp only <;> infer_instance

instance (p : Pool) (a : Act) : Decidable (Kept p a) := by
  cases a <;> dsimp only [Kept] <;> infer_instance

theorem lookupInfo_isSome {kmalloc : Bool} {p : Pool} {mac : List UInt8}
    (h : ((findInfo mac p.stasReordList).isSome || (!p.busDown && kmalloc)) = true) :
    ∃ stas info, lookupInfo kmalloc p mac = some (stas, info) := by
  unfold lookupInfo
  cases hfind : findInfo mac p.stasReordList with
  | some info => exact ⟨_, _, rfl⟩
  | none =>
    have hup : ¬ (p.busDown || !kmalloc) = true := by
      simpa [hfind] using h
    dsimp only
    rw [if_neg hup]
    exact ⟨_, _, rfl⟩

/-- What `reord_process_unit` does when it needs an element and keeps it. -/
theorem processUnit_taken {kmalloc : Bool} {p : Pool} {k : ℕ} {u : RxUnit} {t : IfType}
    (hvif : p.rwnxVif = some t) (hserved : Served kmalloc p u) {id : ℕ} {free : List ℕ}
    (hlen : ¬ u.skb.len ≤ 14) (hfree : p.rxframesFreequeue = id::free)
    (hdirect : ¬ (ethProto u.skb = ETH_P_PAE ∨ isMcast u.skb = true)) :
    ∃ mac stas info, findInfo mac stas = some info ∧ u.tid < 8 ∧
      listed stas = listed p.stasReordList ∧
      p.processUnit kmalloc k u =
        some ({ p with rxframesFreequeue := free }.putBack stas mac u.tid
            ((info.preorderCtrl u.tid).reenable.unit ⟨id, k, u.msdu⟩),
          ((info.preorderCtrl u.tid).reenable.unit ⟨id, k, u.msdu⟩).2.map
            fun x => (x.1.skb, x.2)) := by
  unfold Served at hserved
  rw [hvif] at hserved
  have hgo : u.tid < 8 ∧ (reordMac t u.skb).any (fun mac =>
      (findInfo mac p.stasReordList).isSome || (!p.busDown && kmalloc)) = true := by
    rcases hserved with hs | hs | hs | hs | hs
    · exact absurd hs hlen
    · simp [hfree] at hs
    · exact absurd (.inl hs) hdirect
    · exact absurd (.inr hs) hdirect
    · exact hs
  obtain ⟨htid, hmac⟩ := hgo
  cases hreord : reordMac t u.skb with
  | none => simp [hreord] at hmac
  | some mac =>
    rw [hreord] at hmac
    obtain ⟨stas, info, hlook⟩ := lookupInfo_isSome hmac
    obtain ⟨hinfo, hsame⟩ := lookupInfo_listed hlook
    have hten : ¬ 8 ≤ u.tid := by omega
    refine ⟨mac, stas, info, hinfo, htid, hsame, ?_⟩
    simp only [Pool.processUnit, hvif, if_neg hlen, hfree, if_neg hdirect, hreord, hlook,
      if_neg hten]

theorem processUnit_conserved {kmalloc : Bool} {p : Pool} {u : RxUnit} (h : Conserved p) (k : ℕ)
    (hserved : Served kmalloc p u) :
    ∃ q, (p.processUnit kmalloc k u).map Prod.fst = some q ∧ Conserved q := by
  cases hvif : p.rwnxVif with
  | none => exact ⟨p, by simp only [Pool.processUnit, hvif, Option.map_some], h⟩
  | some t =>
    by_cases hlen : u.skb.len ≤ 14
    · exact ⟨p, by simp only [Pool.processUnit, hvif, if_pos hlen, Option.map_some], h⟩
    cases hfree : p.rxframesFreequeue with
    | nil =>
      exact ⟨p, by simp only [Pool.processUnit, hvif, if_neg hlen, hfree, Option.map_some], h⟩
    | cons id free =>
      by_cases hdirect : ethProto u.skb = ETH_P_PAE ∨ isMcast u.skb = true
      · exact ⟨p, by simp only [Pool.processUnit, hvif, if_neg hlen, hfree, if_pos hdirect,
          Option.map_some], h⟩
      obtain ⟨mac, stas, info, hinfo, htid, hsame, hcall⟩ :=
        processUnit_taken (k := k) hvif hserved hlen hfree hdirect
      refine ⟨_, by rw [hcall, Option.map_some], ?_⟩
      unfold Conserved at h
      rw [hfree] at h
      have htaken := h.take
      rw [← hsame] at htaken
      have hmoved := unit_moved (info.preorderCtrl u.tid).reenable ⟨id, k, u.msdu⟩
      rw [reenable_list] at hmoved
      exact putBack_conserved [⟨id, k, u.msdu⟩] htaken hinfo htid hmoved

theorem timeoutWorker_conserved {p : Pool} (h : Conserved p) (mac : List UInt8) (tid : ℕ) :
    Conserved (p.timeoutWorker mac tid).1 := by
  unfold Pool.timeoutWorker
  cases hinfo : findInfo mac p.stasReordList with
  | none => exact h
  | some info =>
    dsimp only
    split_ifs with htid
    · exact h
    · exact putBack_conserved [] h hinfo (not_le.mp htid) (timeoutWorker_moved _)

theorem flushTid_conserved {p : Pool} (h : Conserved p) (k : ℕ) {skb : SkBuff} {tid : ℕ}
    (hvif : p.rwnxVif.isSome = true) (htid : tid < 8) :
    ∃ q, (p.flushTid k skb tid).map Prod.fst = some q ∧ Conserved q := by
  obtain ⟨t, ht⟩ := Option.isSome_iff_exists.mp hvif
  unfold Pool.flushTid
  rw [ht]
  dsimp only
  cases reordMac t skb with
  | none => exact ⟨p, rfl, h⟩
  | some mac =>
    dsimp only
    cases hinfo : findInfo mac p.stasReordList with
    | none => exact ⟨p, rfl, h⟩
    | some info =>
      have hten : ¬ 8 ≤ tid := by omega
      dsimp only
      rw [if_neg hten]
      split_ifs
      · exact ⟨_, rfl, putBack_conserved [] h hinfo htid (flushed_moved _)⟩
      · exact ⟨p, rfl, h⟩

theorem deinitSta_conserved {p : Pool} (h : Conserved p) (mac : List UInt8) :
    Conserved (p.deinitSta mac).1 := by
  unfold Pool.deinitSta
  cases hinfo : findInfo mac p.stasReordList with
  | none => exact h
  | some info =>
    apply h.give
    rw [← List.map_append]
    exact (eraseInfo_listed hinfo).map Element.id

theorem step_conserved {p : Pool} {a : Act} (hkept : Kept p a) (h : Conserved p) :
    ∃ q, step p a = some q ∧ Conserved q := by
  cases a with
  | processUnit kmalloc k u => exact processUnit_conserved h k hkept
  | timeoutWorker mac tid => exact ⟨_, rfl, timeoutWorker_conserved h mac tid⟩
  | flushTid k skb tid => exact flushTid_conserved h k hkept.1 hkept.2
  | deinitSta mac => exact ⟨_, rfl, deinitSta_conserved h mac⟩
  | surroundings rwnxVif busDown => exact ⟨_, rfl, h⟩

/-! ## Runs -/

theorem init_conserved : Conserved init := by
  simp only [Conserved, init, rxframeQueueInit, listed, List.flatMap_nil, List.map_nil]
  exact placed_all _

/-- Each element is in the free queue or on a pending list, once, so that the free queue is empty
only when the lists hold all of them. -/
theorem run_conserved {as : List Act} (hm : Meets step Kept init as) :
    ∃ p, exec step init as = some p ∧ Conserved p ∧
      (∀ id < MAX_REORD_RXFRAME,
        (id ∈ p.rxframesFreequeue ∧ id ∉ (listed p.stasReordList).map Element.id) ∨
          (id ∉ p.rxframesFreequeue ∧ id ∈ (listed p.stasReordList).map Element.id)) ∧
      (p.rxframesFreequeue = [] → (listed p.stasReordList).length = MAX_REORD_RXFRAME) := by
  obtain ⟨p, hrun, h⟩ :=
    exec_progress (fun p a hkept hp => step_conserved hkept hp) init_conserved hm
  refine ⟨p, hrun, h, ?_, ?_⟩
  · intro id hid
    have hall : (List.range MAX_REORD_RXFRAME).Nodup := List.nodup_range
    have hmem : id ∈ List.range MAX_REORD_RXFRAME := List.mem_range.mpr hid
    have hplaced : Placed (List.range MAX_REORD_RXFRAME) p.rxframesFreequeue
        ((listed p.stasReordList).map Element.id) := h
    exact hplaced.exactly_one hall hmem
  · intro hdry
    unfold Conserved at h
    rw [hdry] at h
    rw [← List.length_map Element.id, h.dry, List.length_range]

def sampleFrame : SkBuff := SkBuff.ofList (List.replicate 60 2)

/-- Two frames wait for a third; the TID is flushed and the station removed. -/
def sampleRun : List Act :=
  [.surroundings (some .station) false, .processUnit true 1 ⟨sampleFrame, 5, 0, true⟩,
    .processUnit true 2 ⟨sampleFrame, 7, 0, true⟩, .processUnit true 3 ⟨sampleFrame, 9, 0, true⟩,
    .timeoutWorker [2, 2, 2, 2, 2, 2] 0, .flushTid 4 sampleFrame 0,
    .deinitSta [2, 2, 2, 2, 2, 2]]

theorem run_conserved_sample : ∃ p, exec step init sampleRun = some p ∧ Conserved p :=
  (run_conserved (by decide +kernel)).imp fun _ h => ⟨h.1, h.2.1⟩

/-- On an interface of another type every frame loses its element, and 250 of them the pool. -/
theorem element_lost : ∃ p, exec step init (.surroundings (some .other) false::
    List.replicate MAX_REORD_RXFRAME (.processUnit true 1 ⟨sampleFrame, 5, 0, true⟩)) = some p ∧
      p.rxframesFreequeue = [] ∧ (listed p.stasReordList).length = 0 ∧ ¬ Conserved p := by
  have hrun : exec step init (.surroundings (some .other) false::
      List.replicate MAX_REORD_RXFRAME (.processUnit true 1 ⟨sampleFrame, 5, 0, true⟩)) =
      some ((exec step init (.surroundings (some .other) false::
        List.replicate MAX_REORD_RXFRAME
          (.processUnit true 1 ⟨sampleFrame, 5, 0, true⟩))).get (by decide +kernel)) :=
    (Option.some_get _).symm
  refine ⟨_, hrun, by decide +kernel, by decide +kernel, ?_⟩
  intro h
  have hlen := h.length_eq
  revert hlen
  decide +kernel

end AIC.MsduPoolConserved
