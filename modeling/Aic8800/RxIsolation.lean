import Aic8800.MsduPoolConserved
import Aic8800.RxStreamMachine

/-!
# Streams keep apart

A control is found by one address, the field with the interface is shared. Two
streams stay apart, and every frame goes up on its own interface, exactly when
no control gets frames of two senders or two interfaces, and the work of a
control finds its own interface in the field.
-/

set_option autoImplicit false

namespace AIC.RxIsolation
open AIC.ReorderMachine AIC.MsduPoolConserved
open AIC.MsduPool (Pool PoolCtrl PoolInfo Element findInfo putInfo lookupInfo initSta rxframeEnqueue)
open AIC.RxDataInd AIC.RxDataOwnership
open AIC.RxStreamMachine (Tag Given Key Machine Path init begun findInfo_cons findInfo_put)
open Lib.GuardedRun

structure Isolated (s : Machine) : Prop where
  /-- Two frames of one control have sender, interface and TID in common. -/
  alone : ∀ key, ∀ i ∈ s.seen key, ∀ j ∈ s.seen key, ∀ a b, s.received[i]? = some a →
    s.received[j]? = some b → a = b
  /-- Each frame handed up went to the interface selected for it. -/
  home : ∀ x ∈ s.handed, ∃ tag, s.received[x.1]? = some tag ∧ x.2 = some tag.vif

/-- The frames that wait in a control. -/
def pending (stas : List PoolInfo) (key : Key) : List Element :=
  match findInfo key.1 stas with
  | none => []
  | some info => (info.preorderCtrl key.2).reordList

/-- The frame of an element came in on interface `vif`, if it is handed up at all. -/
def HomeAt (s : Machine) (vif : Option ℕ) (e : Element) : Prop :=
  e.msdu.forward = true → ∀ tag ∈ s.received[e.skb]?, vif = some tag.vif

/-- The control has had frames of one sender and one interface only. -/
def OneStream (s : Machine) (g : Given) (mac : List UInt8) : Prop :=
  ∀ i ∈ s.seen (mac, g.ready.tid), ∀ a ∈ s.received[i]?, ∀ b ∈ s.received[g.k]?,
    a.ta = b.ta ∧ a.vif = b.vif

def GivenApart (s : Machine) (kmalloc : Bool) (g : Given) : Prop :=
  (g.path = .unit → ∀ mac ∈ s.unitMac kmalloc g, OneStream s g mac) ∧
  (g.path = .flush → ∀ mac ∈ s.flushMac g,
    ∀ e ∈ pending s.hw.pool.stasReordList (mac, g.ready.tid), HomeAt s (some g.vif.vifIndex) e)

/-- The work hands up its next frame while the field holds the interface of that frame. -/
def TurnHome (s : Machine) (key : Key) : Prop :=
  s.working key = true → ∀ c ∈ s.ctrl key, ∀ e ∈ c.reordList.head?,
    snLess c.indSn e.msdu.seqNum = false → HomeAt s s.rwnxVif e

def Apart (s : Machine) : RxStreamMachine.Act → Prop
  | .reorder kmalloc => ∀ g ∈ s.rx, GivenApart s kmalloc g
  | .workTurn key => TurnHome s key
  | _ => True

section Decide
variable (s : Machine) (g : Given)

instance (v : Option ℕ) (e : Element) : Decidable (HomeAt s v e) :=
  inferInstanceAs (Decidable (_ → ∀ tag ∈ s.received[e.skb]?, v = some tag.vif))

instance (mac : List UInt8) : Decidable (OneStream s g mac) :=
  inferInstanceAs (Decidable (∀ i ∈ s.seen (mac, g.ready.tid), ∀ a ∈ s.received[i]?,
    ∀ b ∈ s.received[g.k]?, a.ta = b.ta ∧ a.vif = b.vif))

instance (kmalloc : Bool) : Decidable (GivenApart s kmalloc g) :=
  inferInstanceAs (Decidable (_ ∧ _))

instance (key : Key) : Decidable (TurnHome s key) :=
  inferInstanceAs (Decidable (_ → ∀ c ∈ s.ctrl key, ∀ e ∈ c.reordList.head?, _ → HomeAt s _ e))

instance : ∀ a, Decidable (Apart s a)
  | .reorder kmalloc => inferInstanceAs (Decidable (∀ g ∈ s.rx, GivenApart s kmalloc g))
  | .workTurn key => inferInstanceAs (Decidable (TurnHome s key))
  | .select _ _ | .workBegin _ | .deinit _ | .surroundings _ _ => inferInstanceAs (Decidable True)

end Decide

/-! ## The stations -/

theorem findInfo_concat (m : List UInt8) (stas : List PoolInfo) (info : PoolInfo) :
    findInfo m (stas++[info]) =
      (findInfo m stas).or (if info.macAddr = m then some info else none) := by
  induction stas with
  | nil => simp [findInfo]
  | cons first rest ih =>
    rw [List.cons_append, findInfo_cons, findInfo_cons, ih]
    split_ifs <;> rfl

theorem findInfo_none {m : List UInt8} {stas : List PoolInfo} :
    findInfo m stas = none ↔ m ∉ stas.map PoolInfo.macAddr := by
  induction stas with
  | nil => simp [findInfo]
  | cons info rest ih =>
    rw [findInfo_cons, List.map_cons, List.mem_cons, not_or, ← ih]
    by_cases hm : info.macAddr = m
    · simp [hm]
    · simp [hm, Ne.symm hm]

theorem putInfo_macs (mac : List UInt8) (tid : ℕ) (c : PoolCtrl) (stas : List PoolInfo) :
    (putInfo mac tid c stas).map PoolInfo.macAddr = stas.map PoolInfo.macAddr := by
  induction stas with
  | nil => rfl
  | cons info rest ih =>
    rw [putInfo]
    split_ifs
    · rfl
    · rw [List.map_cons, List.map_cons, ih]

theorem pending_put {stas : List PoolInfo} {key : Key} {info : PoolInfo}
    (h : findInfo key.1 stas = some info) (c : PoolCtrl) (k : Key) :
    pending (putInfo key.1 key.2 c stas) k =
      if k = key then c.reordList else pending stas k := by
  unfold pending
  rw [findInfo_put]
  by_cases hm : k.1 = key.1
  · rw [if_pos hm, hm, h]
    by_cases ht : k.2 = key.2
    · simp [Prod.ext hm ht]
    · have hne : k ≠ key := fun hk => ht (hk ▸ rfl)
      simp [hne, Function.update_of_ne ht]
  · have hne : k ≠ key := fun hk => hm (hk ▸ rfl)
    simp [hm, hne]

/-- The station is on the list, or new at its end. -/
theorem lookupInfo_cases {kmalloc : Bool} {p : Pool} {mac : List UInt8} {stas : List PoolInfo}
    {info : PoolInfo} (h : lookupInfo kmalloc p mac = some (stas, info)) :
    stas = p.stasReordList ∨
      findInfo mac p.stasReordList = none ∧ stas = p.stasReordList++[initSta mac] := by
  unfold lookupInfo at h
  cases hfind : findInfo mac p.stasReordList with
  | some old =>
    simp only [hfind, Option.some.injEq, Prod.mk.injEq] at h
    exact Or.inl h.1.symm
  | none =>
    simp only [hfind] at h
    split_ifs at h
    exact Or.inr ⟨rfl, (Prod.mk.inj (Option.some.inj h)).1.symm⟩

/-- A station that is new has nothing waiting. -/
theorem lookupInfo_pending {kmalloc : Bool} {p : Pool} {mac : List UInt8} {stas : List PoolInfo}
    {info : PoolInfo} (h : lookupInfo kmalloc p mac = some (stas, info)) (k : Key) :
    pending stas k = pending p.stasReordList k := by
  rcases lookupInfo_cases h with rfl | ⟨-, rfl⟩
  · rfl
  unfold pending
  rw [findInfo_concat]
  cases findInfo k.1 p.stasReordList with
  | some old => rfl
  | none =>
    rw [Option.none_or]
    split_ifs <;> rfl

theorem lookupInfo_macs {kmalloc : Bool} {p : Pool} {mac : List UInt8} {stas : List PoolInfo}
    {info : PoolInfo} (h : lookupInfo kmalloc p mac = some (stas, info))
    (hn : (p.stasReordList.map PoolInfo.macAddr).Nodup) : (stas.map PoolInfo.macAddr).Nodup := by
  rcases lookupInfo_cases h with rfl | ⟨hnone, rfl⟩
  · exact hn
  rw [List.map_append, List.map_singleton, ← List.concat_eq_append]
  exact hn.concat (findInfo_none.mp hnone)

theorem pending_erase {stas : List PoolInfo} (hn : (stas.map PoolInfo.macAddr).Nodup)
    (mac : List UInt8) (k : Key) :
    pending (stas.eraseP fun info => info.macAddr == mac) k =
      if k.1 = mac then [] else pending stas k := by
  induction stas with
  | nil => simp [pending, findInfo]
  | cons info rest ih =>
    obtain ⟨hnot, hrest⟩ := List.nodup_cons.mp hn
    unfold pending at ih ⊢
    by_cases hmac : info.macAddr = mac
    · have herase : (info::rest).eraseP (fun info => info.macAddr == mac) = rest := by simp [hmac]
      rw [herase, findInfo_cons]
      by_cases hk : k.1 = mac
      · rw [if_pos hk, findInfo_none.mpr (by rwa [hk, ← hmac])]
      · rw [if_neg hk, if_neg (fun h => hk (h.symm.trans hmac))]
    · have herase : (info::rest).eraseP (fun info => info.macAddr == mac) =
          info::rest.eraseP fun info => info.macAddr == mac := by simp [hmac]
      rw [herase, findInfo_cons, findInfo_cons]
      by_cases hk : info.macAddr = k.1
      · rw [if_pos hk, if_pos hk, if_neg (fun h => hmac (hk.trans h))]
      · rw [if_neg hk, if_neg hk]
        exact ih hrest

/-! ## What a function does to the controls -/

/-- Only the control of `key` changes. Its list and what is handed up come from the list before and
frame `k`, if there is one. -/
structure Moves (stas : List PoolInfo) (key : Option Key) (k : Option ℕ) (stas' : List PoolInfo)
    (out : List (ℕ × Ind)) : Prop where
  macs : (stas.map PoolInfo.macAddr).Nodup → (stas'.map PoolInfo.macAddr).Nodup
  others : ∀ c, key ≠ some c → pending stas' c = pending stas c
  stay : ∀ c, key = some c → ∀ e ∈ pending stas' c, k = some e.skb ∨ e ∈ pending stas c
  moved : ∀ x ∈ out, x.2.netif.isSome = true →
    k = some x.1 ∨ ∃ c, key = some c ∧ ∃ e ∈ pending stas c, e.skb = x.1

theorem moves_none {stas : List PoolInfo} {k : Option ℕ} {out : List (ℕ × Ind)}
    (h : ∀ x ∈ out, x.2.netif.isSome = true → k = some x.1) : Moves stas none k stas out where
  macs := id
  others _ _ := rfl
  stay := by simp
  moved x hx hup := Or.inl (h x hx hup)

/-- The control `d` is put back as `c`; `x` are the elements it gives away. -/
theorem moves_put {stas base : List PoolInfo} {d : Key} {k : Option ℕ} {info : PoolInfo}
    (hinfo : findInfo d.1 base = some info) (hbase : ∀ c, pending base c = pending stas c)
    (hmacs : (stas.map PoolInfo.macAddr).Nodup → (base.map PoolInfo.macAddr).Nodup)
    {c : PoolCtrl} {x : List (Element × Ind)}
    (hall : ∀ e, e ∈ c.reordList ∨ e ∈ x.map Prod.fst → k = some e.skb ∨
      e ∈ (info.preorderCtrl d.2).reordList) :
    Moves stas (some d) k (putInfo d.1 d.2 c base) (x.map fun y => (y.1.skb, y.2)) := by
  have hold : pending stas d = (info.preorderCtrl d.2).reordList := by
    rw [← hbase, pending, hinfo]
  constructor
  · intro hn
    rw [putInfo_macs]
    exact hmacs hn
  · intro b hb
    rw [pending_put hinfo, if_neg (fun h : b = d => hb (h ▸ rfl)), hbase]
  · intro b hb e he
    obtain rfl := Option.some.inj hb
    rw [pending_put hinfo, if_pos rfl] at he
    rcases hall e (Or.inl he) with hk | hin
    · exact Or.inl hk
    · exact Or.inr (hold ▸ hin)
  · intro z hz _
    obtain ⟨y, hy, rfl⟩ := List.mem_map.mp hz
    rcases hall y.1 (Or.inr (List.mem_map_of_mem hy)) with hk | hin
    · exact Or.inl hk
    · exact Or.inr ⟨d, rfl, y.1, hold ▸ hin, rfl⟩

section Functions
variable {s : Machine} {kmalloc : Bool} {g : Given} {p : Pool} {out : List (ℕ × Ind)}

theorem unit_moves (h : (poolFor s.hw g.vif).processUnit kmalloc g.k (s.unitOf g) = some (p, out)) :
    Moves s.hw.pool.stasReordList ((s.unitMac kmalloc g).map fun mac => (mac, g.ready.tid))
      (some g.k) p.stasReordList out := by
  have hskb : (s.unitOf g).skb = g.ready.skb := rfl
  have hno : ∀ {q : Pool} {i : Ind}, some (q, [(g.k, i)]) = some (p, out) →
      q.stasReordList = s.hw.pool.stasReordList →
      Moves s.hw.pool.stasReordList none (some g.k) p.stasReordList out := by
    intro q i heq hq
    obtain ⟨rfl, rfl⟩ := Prod.mk.inj (Option.some.inj heq)
    rw [hq]
    exact moves_none (by simp)
  unfold Machine.unitMac usesCtrl
  have hvif : (poolFor s.hw g.vif).rwnxVif = some g.vif.iftype.reord := rfl
  unfold Pool.processUnit at h
  rw [hvif] at h
  dsimp only at h
  rw [hskb] at h
  by_cases hlen : g.ready.skb.len ≤ 14
  · rw [if_pos hlen] at h
    simpa [hlen] using hno h rfl
  rw [if_neg hlen] at h
  cases hfree : (poolFor s.hw g.vif).rxframesFreequeue with
  | nil =>
    rw [hfree] at h
    dsimp only at h
    simpa using hno h rfl
  | cons id free =>
    rw [hfree] at h
    dsimp only at h
    by_cases hdirect : ethProto g.ready.skb = ETH_P_PAE ∨ isMcast g.ready.skb = true
    · rw [if_pos hdirect] at h
      simpa [hdirect] using hno h rfl
    rw [if_neg hdirect] at h
    cases hmac : reordMac g.vif.iftype.reord g.ready.skb with
    | none =>
      rw [hmac] at h
      dsimp only at h
      simpa using hno h rfl
    | some mac =>
      rw [hmac] at h
      dsimp only at h
      cases hl : lookupInfo kmalloc (poolFor s.hw g.vif) mac with
      | none =>
        rw [hl] at h
        dsimp only at h
        simpa [hl] using hno h rfl
      | some r =>
        obtain ⟨stas, info⟩ := r
        rw [hl] at h
        dsimp only at h
        split_ifs at h
        obtain ⟨rfl, rfl⟩ := Prod.mk.inj (Option.some.inj h)
        have hunit := unit_moved (info.preorderCtrl g.ready.tid).reenable
          ⟨id, g.k, (s.unitOf g).msdu⟩
        rw [reenable_list] at hunit
        simp only [hlen, hdirect, hl, decide_false, Bool.not_false, List.isEmpty_cons,
          Bool.true_and, Option.any_some, Option.isSome_some, if_true, Option.map_some]
        apply moves_put (lookupInfo_listed hl).1 (lookupInfo_pending hl) (lookupInfo_macs hl)
        intro x hx
        rcases List.mem_cons.mp (hunit.mem_iff.mp (List.mem_append.mpr hx)) with rfl | hin
        · exact Or.inl rfl
        · exact Or.inr hin

/-- Exactly the frames of the list are handed up, each as it was listed. -/
theorem flush_moves (h : (poolFor s.hw g.vif).flushTid g.k g.ready.skb g.ready.tid = some (p, out)) :
    Moves s.hw.pool.stasReordList ((s.flushMac g).map fun mac => (mac, g.ready.tid)) none
        p.stasReordList out ∧
      ∀ mac ∈ s.flushMac g, out =
        (pending s.hw.pool.stasReordList (mac, g.ready.tid)).map fun e => (e.skb, .listed e.msdu) := by
  have hno : ∀ {i : List (ℕ × Ind)}, some (poolFor s.hw g.vif, i) = some (p, out) →
      (∀ x ∈ i, x.2.netif.isSome = false) →
      Moves s.hw.pool.stasReordList none none p.stasReordList out := by
    intro i heq hi
    obtain ⟨rfl, rfl⟩ := Prod.mk.inj (Option.some.inj heq)
    exact moves_none fun x hx hup => absurd hup (by simp [hi x hx])
  have hvif : (poolFor s.hw g.vif).rwnxVif = some g.vif.iftype.reord := rfl
  unfold Pool.flushTid at h
  rw [hvif] at h
  dsimp only at h
  unfold Machine.flushMac
  cases hmac : reordMac g.vif.iftype.reord g.ready.skb with
  | none =>
    rw [hmac] at h
    exact ⟨hno h (by simp [Ind.netif]), by simp⟩
  | some mac =>
    rw [hmac] at h
    dsimp only at h
    have hstas : (poolFor s.hw g.vif).stasReordList = s.hw.pool.stasReordList := rfl
    rw [hstas] at h
    cases hinfo : findInfo mac s.hw.pool.stasReordList with
    | none =>
      rw [hinfo] at h
      simpa [hinfo, Option.filter] using hno h (by simp)
    | some info =>
      rw [hinfo] at h
      dsimp only at h
      split_ifs at h with htid henable
      · obtain ⟨rfl, rfl⟩ := Prod.mk.inj (Option.some.inj h)
        simp only [Option.filter, hinfo, Option.any_some, henable, if_true, Option.map_some,
          Option.mem_def, Option.some.injEq, forall_eq']
        constructor
        · have hall : ∀ x, x ∈ (info.preorderCtrl g.ready.tid).flushed.reordList ∨
              x ∈ ((info.preorderCtrl g.ready.tid).reordList.map
                fun e => (e, Ind.listed e.msdu)).map Prod.fst →
              (none : Option ℕ) = some x.skb ∨ x ∈ (info.preorderCtrl g.ready.tid).reordList :=
            fun x hx => Or.inr ((flushed_moved _).mem_iff.mp (List.mem_append.mpr hx))
          have hmoves := moves_put (d := (mac, g.ready.tid)) hinfo (fun _ => rfl) id hall
          rw [List.map_map] at hmoves
          exact hmoves
        · rw [pending, hinfo]
      · simpa [hinfo, Option.filter, henable] using hno h (by simp)

end Functions

/-! ## The invariant -/

structure Tracked (s : Machine) : Prop where
  macs : (s.hw.pool.stasReordList.map PoolInfo.macAddr).Nodup
  listed : ∀ key, ∀ e ∈ pending s.hw.pool.stasReordList key, e.skb ∈ s.seen key
  known : ∀ key, ∀ i ∈ s.seen key, ∃ tag, s.received[i]? = some tag ∧ tag.tid = key.2
  given : ∀ g ∈ s.rx, s.rwnxVif = some g.vif.vifIndex ∧ ∃ tag, s.received[g.k]? = some tag ∧
    tag.vif = g.vif.vifIndex ∧ tag.tid = g.ready.tid
  isolated : Isolated s

theorem init_tracked (hw : Hw) : Tracked (init hw) where
  macs := List.nodup_nil
  listed := by simp [init, MsduPool.init, pending, findInfo]
  known := by simp [init]
  given := by simp [init]
  isolated := ⟨by simp [init], by simp [init]⟩

theorem hand_home {s : Machine} (h : Isolated s) {out : List (ℕ × Ind)}
    (hout : ∀ x ∈ out, x.2.netif.isSome = true →
      ∃ tag, s.received[x.1]? = some tag ∧ s.rwnxVif = some tag.vif) :
    ∀ x ∈ s.hand out, ∃ tag, s.received[x.1]? = some tag ∧ x.2 = some tag.vif := by
  intro x hx
  rcases List.mem_append.mp hx with hx | hx
  · exact h.home x hx
  · obtain ⟨y, hy, rfl⟩ := List.mem_map.mp hx
    obtain ⟨hy, hup⟩ := List.mem_filter.mp hy
    exact hout y hy hup

/-- The frame that comes in is put behind those received. -/
theorem select_tracked {s : Machine} (h : Tracked s) (hdr : HwRxhdr) (f : DefragMachine.RxFrame) :
    Tracked (s.select hdr f) := by
  unfold Machine.select
  cases (getVif s.hw hdr.flagsVifIdx).bind (vlanVif s.hw hdr) with
  | none => exact h
  | some vif =>
    have hkeep : ∀ {i : ℕ} {tag : Tag}, s.received[i]? = some tag →
        (s.received++[⟨f.addr2, vif.vifIndex, (readyOf f).tid⟩])[i]? = some tag := by
      intro i tag hi
      rw [List.getElem?_append_left (List.getElem?_eq_some_iff.mp hi).choose, hi]
    constructor
    · exact h.macs
    · exact h.listed
    · intro key i hi
      obtain ⟨tag, htag, htid⟩ := h.known key i hi
      exact ⟨tag, hkeep htag, htid⟩
    · intro g hg
      obtain rfl := Option.some.inj hg
      exact ⟨rfl, _, List.getElem?_concat_length, rfl, rfl⟩
    · constructor
      · intro key i hi j hj a b ha hb
        obtain ⟨a', ha', -⟩ := h.known key i hi
        obtain ⟨b', hb', -⟩ := h.known key j hj
        obtain rfl := Option.some.inj ((hkeep ha').symm.trans ha)
        obtain rfl := Option.some.inj ((hkeep hb').symm.trans hb)
        exact h.isolated.alone key i hi j hj _ _ ha' hb'
      · intro x hx
        obtain ⟨tag, htag, hvif⟩ := h.isolated.home x hx
        exact ⟨tag, hkeep htag, hvif⟩

section Steps
variable {s t : Machine}

/-- The list of one control changes, a frame is noted there, and what goes up goes up at home. -/
theorem Tracked.move (h : Tracked s) {key : Option Key} {k : Option ℕ} {out : List (ℕ × Ind)}
    (hm : Moves s.hw.pool.stasReordList key k t.hw.pool.stasReordList out)
    (hreceived : t.received = s.received) (hrx : t.rx = s.rx ∨ t.rx = none)
    (hvif : t.rwnxVif = s.rwnxVif) (hhanded : t.handed = s.hand out)
    (hseen : ∀ c, t.seen c = if key = some c then s.seen c++k.toList else s.seen c)
    (hone : ∀ c, key = some c → ∀ j, k = some j → ∃ tag, s.received[j]? = some tag ∧
      tag.tid = c.2 ∧ ∀ i ∈ s.seen c, ∀ a ∈ s.received[i]?, a = tag)
    (hout : ∀ x ∈ out, x.2.netif.isSome = true →
      ∃ tag, s.received[x.1]? = some tag ∧ s.rwnxVif = some tag.vif) : Tracked t := by
  have hcases : ∀ c i, i ∈ t.seen c → i ∈ s.seen c ∨ key = some c ∧ k = some i := by
    intro c i hi
    rw [hseen] at hi
    split_ifs at hi with hc
    · rcases List.mem_append.mp hi with hi | hi
      · exact Or.inl hi
      · exact Or.inr ⟨hc, Option.mem_toList.mp hi⟩
    · exact Or.inl hi
  constructor
  · exact hm.macs h.macs
  · intro c e he
    rw [hseen]
    split_ifs with hc
    · rcases hm.stay c hc e he with hk | hold
      · exact List.mem_append_right _ (Option.mem_toList.mpr hk)
      · exact List.mem_append_left _ (h.listed c e hold)
    · rw [hm.others c hc] at he
      exact h.listed c e he
  · intro c i hi
    rw [hreceived]
    rcases hcases c i hi with hold | ⟨hc, hk⟩
    · exact h.known c i hold
    · obtain ⟨tag, htag, htid, -⟩ := hone c hc i hk
      exact ⟨tag, htag, htid⟩
  · intro g hg
    rcases hrx with hrx | hrx
    · rw [hrx] at hg
      rw [hvif, hreceived]
      exact h.given g hg
    · rw [hrx] at hg
      cases hg
  · constructor
    · intro c i hi j hj a b ha hb
      rw [hreceived] at ha hb
      rcases hcases c i hi with hi | ⟨hc, hki⟩ <;> rcases hcases c j hj with hj | ⟨hc', hkj⟩
      · exact h.isolated.alone c i hi j hj a b ha hb
      · obtain ⟨tag, htag, -, hall⟩ := hone c hc' j hkj
        obtain rfl := Option.some.inj (htag.symm.trans hb)
        exact hall i hi a ha
      · obtain ⟨tag, htag, -, hall⟩ := hone c hc i hki
        obtain rfl := Option.some.inj (htag.symm.trans ha)
        exact (hall j hj b hb).symm
      · obtain rfl := Option.some.inj (hki.symm.trans hkj)
        exact Option.some.inj (ha.symm.trans hb)
    · rw [hhanded, hreceived]
      exact hand_home h.isolated hout

/-- No control changes, and nothing goes up. -/
theorem Tracked.rest (h : Tracked s) (hstas : t.hw.pool.stasReordList = s.hw.pool.stasReordList)
    (hreceived : t.received = s.received) (hrx : t.rx = s.rx ∨ t.rx = none)
    (hvif : t.rwnxVif = s.rwnxVif) (hhanded : t.handed = s.handed) (hseen : t.seen = s.seen) :
    Tracked t := by
  have hm : Moves s.hw.pool.stasReordList none none t.hw.pool.stasReordList [] :=
    hstas ▸ moves_none (by simp)
  apply h.move hm hreceived hrx hvif
  · simpa [Machine.hand] using hhanded
  · simp [hseen]
  · simp
  · simp

theorem unit_tracked (h : Tracked s) {kmalloc : Bool} {g : Given} (hg : g ∈ s.rx)
    (hone : ∀ mac ∈ s.unitMac kmalloc g, OneStream s g mac) (ht : s.unit kmalloc g = some t) :
    Tracked t := by
  obtain ⟨hvif, tag, htag, hhome, htid⟩ := h.given g hg
  unfold Machine.unit at ht
  split_ifs at ht
  obtain ⟨r, hr, rfl⟩ := Option.map_eq_some_iff.mp ht
  have hmoves := unit_moves hr
  have hstream : ∀ c, (s.unitMac kmalloc g).map (fun mac => (mac, g.ready.tid)) = some c →
      c.2 = g.ready.tid ∧ ∀ i ∈ s.seen c, ∀ a ∈ s.received[i]?, a = tag := by
    intro c hc
    obtain ⟨mac, hmac, rfl⟩ := Option.map_eq_some_iff.mp hc
    refine ⟨rfl, fun i hi a ha => ?_⟩
    obtain ⟨hta, hsame⟩ := hone mac hmac i hi a ha tag htag
    obtain ⟨b, hb, hbtid⟩ := h.known _ i hi
    obtain rfl := Option.some.inj (hb.symm.trans ha)
    cases b
    cases tag
    simp_all
  refine h.move hmoves rfl (Or.inr rfl) rfl rfl ?_ ?_ ?_
  · intro c
    cases hmac : s.unitMac kmalloc g with
    | none => simp [Machine.note]
    | some mac =>
      by_cases hc : c = (mac, g.ready.tid)
      · simp [Machine.note, hc]
      · simp [Machine.note, hc, Ne.symm hc]
  · intro c hc j hj
    obtain rfl := Option.some.inj hj
    exact ⟨tag, htag, by rw [htid, (hstream c hc).1], (hstream c hc).2⟩
  · intro x hx hup
    rcases hmoves.moved x hx hup with hk | ⟨c, hc, e, he, hek⟩
    · exact ⟨tag, Option.some.inj hk ▸ htag, by rw [hvif, hhome]⟩
    · have hin := h.listed c e he
      obtain ⟨a, ha, -⟩ := h.known c e.skb hin
      refine ⟨a, by rw [← hek, ha], ?_⟩
      rw [hvif, (hstream c hc).2 e.skb hin a ha, hhome]

/-- What is listed goes up on the interface it came in on. -/
theorem listed_home (h : Tracked s) {c : Key} {e : Element}
    (he : e ∈ pending s.hw.pool.stasReordList c) (hhome : HomeAt s s.rwnxVif e)
    (hup : (Ind.listed e.msdu).netif.isSome = true) :
    ∃ tag, s.received[e.skb]? = some tag ∧ s.rwnxVif = some tag.vif := by
  obtain ⟨tag, htag, -⟩ := h.known c e.skb (h.listed c e he)
  have hforward : e.msdu.forward = true := by
    by_contra hno
    simp [Ind.netif, hno] at hup
  exact ⟨tag, htag, hhome hforward tag htag⟩

theorem flush_tracked (h : Tracked s) {g : Given} (hg : g ∈ s.rx)
    (hhome : ∀ mac ∈ s.flushMac g, ∀ e ∈ pending s.hw.pool.stasReordList (mac, g.ready.tid),
      HomeAt s (some g.vif.vifIndex) e) (ht : s.flush g = some t) : Tracked t := by
  obtain ⟨hvif, -⟩ := h.given g hg
  unfold Machine.flush at ht
  split_ifs at ht
  obtain ⟨r, hr, rfl⟩ := Option.map_eq_some_iff.mp ht
  obtain ⟨hmoves, hall⟩ := flush_moves hr
  refine h.move hmoves rfl (Or.inr rfl) rfl rfl ?_ ?_ ?_
  · simp [Machine.setPool]
  · simp
  · intro x hx hup
    cases hmac : s.flushMac g with
    | none =>
      rw [hmac] at hmoves
      rcases hmoves.moved x hx hup with hk | ⟨c, hc, -⟩
      · cases hk
      · cases hc
    | some mac =>
      rw [hall mac hmac] at hx
      obtain ⟨e, he, rfl⟩ := List.mem_map.mp hx
      exact listed_home h he (hvif ▸ hhome mac hmac e he) hup

theorem ctrl_spec {key : Key} {c : PoolCtrl} (h : s.ctrl key = some c) :
    ∃ info, findInfo key.1 s.hw.pool.stasReordList = some info ∧ info.preorderCtrl key.2 = c ∧
      pending s.hw.pool.stasReordList key = c.reordList := by
  unfold Machine.ctrl at h
  split_ifs at h
  obtain ⟨info, hinfo, rfl⟩ := Option.map_eq_some_iff.mp h
  exact ⟨info, hinfo, rfl, by rw [pending, hinfo]⟩

theorem workBegin_tracked (h : Tracked s) {key : Key} (ht : s.workBegin key = some t) :
    Tracked t := by
  unfold Machine.workBegin at ht
  split at ht
  · rename_i c hc _
    obtain ⟨info, hinfo, hctrl, -⟩ := ctrl_spec hc
    obtain rfl := Option.some.inj ht
    have hm := moves_put hinfo (fun _ => rfl) id (k := none)
      (c := begun c) (x := []) (fun x hx => Or.inr (by rw [hctrl]; simpa using hx))
    refine h.move hm rfl (Or.inl rfl) rfl ?_ ?_ ?_ ?_
    · simp [Machine.hand, Machine.putCtrl, Machine.setPool]
    · simp [Machine.putCtrl, Machine.setPool]
    · simp
    · simp
  · cases ht

theorem workTurn_tracked (h : Tracked s) {key : Key} (hhome : TurnHome s key)
    (ht : s.workTurn key = some t) : Tracked t := by
  unfold Machine.workTurn at ht
  split at ht
  · rename_i c hc hwork
    obtain ⟨info, hinfo, hctrl, hpending⟩ := ctrl_spec hc
    cases hlist : c.reordList with
    | nil =>
      rw [hlist] at ht
      obtain rfl := Option.some.inj ht
      exact h.rest rfl rfl (Or.inl rfl) rfl rfl rfl
    | cons e rest =>
      rw [hlist] at ht
      dsimp only at ht
      split_ifs at ht with hless
      · obtain rfl := Option.some.inj ht
        exact h.rest rfl rfl (Or.inl rfl) rfl rfl rfl
      · obtain rfl := Option.some.inj ht
        have hm := moves_put hinfo (fun _ => rfl) id (k := none)
          (c := { c with reordList := rest }) (x := [(e, .listed e.msdu)])
          (fun x hx => Or.inr (by rw [hctrl, hlist]; simpa [or_comm] using hx))
        refine h.move hm rfl (Or.inl rfl) rfl rfl ?_ ?_ ?_
        · simp [Machine.release, Machine.putCtrl, Machine.setPool]
        · simp
        · intro x hx hup
          obtain rfl := List.mem_singleton.mp hx
          apply listed_home h (c := key) (by rw [hpending, hlist]; simp) _ hup
          exact hhome hwork c hc e (by rw [hlist]; rfl) (by simpa using hless)
  · cases ht

theorem deinit_tracked (h : Tracked s) {mac : List UInt8} (ht : s.deinit mac = some t) :
    Tracked t := by
  unfold Machine.deinit at ht
  split_ifs at ht
  obtain rfl := Option.some.inj ht
  have hstas : (s.hw.pool.deinitSta mac).1.stasReordList =
      s.hw.pool.stasReordList.eraseP fun info => info.macAddr == mac := by
    unfold Pool.deinitSta
    cases hinfo : findInfo mac s.hw.pool.stasReordList with
    | none =>
      rw [List.eraseP_of_forall_not]
      exact List.find?_eq_none.mp hinfo
    | some info => rfl
  have hseen : ∀ {c : Key} {i : ℕ}, i ∈ (if c.1 = mac then [] else s.seen c) →
      c.1 ≠ mac ∧ i ∈ s.seen c := by
    intro c i hi
    split_ifs at hi with hc
    · cases hi
    · exact ⟨hc, hi⟩
  constructor
  · simp only [Machine.setPool, hstas]
    exact h.macs.sublist ((List.eraseP_sublist).map _)
  · intro c e he
    simp only [Machine.setPool, hstas, pending_erase h.macs] at he
    split_ifs at he with hc
    · cases he
    · simp only [if_neg hc]
      exact h.listed c e he
  · exact fun c i hi => h.known c i (hseen hi).2
  · exact h.given
  · exact ⟨fun c i hi j hj => h.isolated.alone c i (hseen hi).2 j (hseen hj).2, h.isolated.home⟩

theorem step_tracked {a : RxStreamMachine.Act} (ha : Apart s a) (ht : RxStreamMachine.step s a = some t)
    (h : Tracked s) : Tracked t := by
  cases a with
  | select hdr f =>
    simp only [RxStreamMachine.step] at ht
    split_ifs at ht
    obtain rfl := Option.some.inj ht
    exact select_tracked h hdr f
  | reorder kmalloc =>
    simp only [RxStreamMachine.step, Machine.reorder] at ht
    cases hrx : s.rx with
    | none => simp [hrx] at ht
    | some g =>
      obtain ⟨hunit, hflush⟩ := ha g hrx
      rw [hrx] at ht
      dsimp only at ht
      cases hpath : g.path with
      | unit =>
        rw [hpath] at ht
        exact unit_tracked h hrx (hunit hpath) ht
      | flush =>
        rw [hpath] at ht
        exact flush_tracked h hrx (hflush hpath) ht
      | pass =>
        rw [hpath] at ht
        obtain rfl := Option.some.inj ht
        exact h.rest rfl rfl (Or.inr rfl) rfl rfl rfl
  | workBegin key => exact workBegin_tracked h ht
  | workTurn key => exact workTurn_tracked h ha ht
  | deinit mac => exact deinit_tracked h ht
  | surroundings staTable busDown =>
    obtain rfl := Option.some.inj ht
    exact h.rest rfl rfl (Or.inl rfl) rfl rfl rfl

theorem unit_forces {kmalloc : Bool} {g : Given} (ht : s.unit kmalloc g = some t)
    (hi : Isolated t) {mac : List UInt8} (hmac : mac ∈ s.unitMac kmalloc g) :
    OneStream s g mac := by
  unfold Machine.unit at ht
  split_ifs at ht
  obtain ⟨r, -, rfl⟩ := Option.map_eq_some_iff.mp ht
  have hseen : s.note (s.unitMac kmalloc g) g (mac, g.ready.tid) =
      s.seen (mac, g.ready.tid)++[g.k] := by
    simp [Option.mem_def.mp hmac, Machine.note]
  have hmem : ∀ i, i ∈ s.seen (mac, g.ready.tid) ∨ i = g.k →
      i ∈ s.note (s.unitMac kmalloc g) g (mac, g.ready.tid) := by
    intro i hin
    rw [hseen]
    simpa using hin
  intro i hin a ha b hb
  obtain rfl := hi.alone (mac, g.ready.tid) i (hmem i (Or.inl hin)) g.k (hmem g.k (Or.inr rfl))
    a b ha hb
  exact ⟨rfl, rfl⟩

/-- What went up at home was at home on the list. -/
theorem handed_homeAt {e : Element} {v : Option ℕ} (hi : Isolated t)
    (hreceived : t.received = s.received)
    (hup : (Ind.listed e.msdu).netif.isSome = true → (e.skb, v) ∈ t.handed) : HomeAt s v e := by
  intro hforward tag htag
  obtain ⟨b, hb, hv⟩ := hi.home _ (hup (by simp [Ind.netif, hforward]))
  rw [hreceived] at hb
  obtain rfl := Option.some.inj (hb.symm.trans htag)
  exact hv

theorem flush_forces (h : Tracked s) {g : Given} (hg : g ∈ s.rx) (ht : s.flush g = some t)
    (hi : Isolated t) {mac : List UInt8} (hmac : mac ∈ s.flushMac g) {e : Element}
    (he : e ∈ pending s.hw.pool.stasReordList (mac, g.ready.tid)) :
    HomeAt s (some g.vif.vifIndex) e := by
  obtain ⟨hvif, -⟩ := h.given g hg
  unfold Machine.flush at ht
  split_ifs at ht
  obtain ⟨r, hr, rfl⟩ := Option.map_eq_some_iff.mp ht
  have hall := (flush_moves hr).2 mac hmac
  apply handed_homeAt hi rfl
  intro hup
  have hin : (e.skb, Ind.listed e.msdu) ∈ r.2 := hall ▸ List.mem_map_of_mem he
  rw [← hvif]
  exact List.mem_append_right _ (List.mem_map.mpr ⟨_, List.mem_filter.mpr ⟨hin, hup⟩, rfl⟩)

theorem turn_forces {key : Key} (ht : s.workTurn key = some t) (hi : Isolated t) :
    TurnHome s key := by
  intro hwork c hc e he hless
  obtain ⟨rest, hlist⟩ := List.head?_eq_some_iff.mp he
  unfold Machine.workTurn at ht
  simp only [Option.mem_def.mp hc, hwork, hlist, hless, Bool.false_eq_true, if_false] at ht
  obtain rfl := Option.some.inj ht
  apply handed_homeAt hi rfl
  intro hup
  exact List.mem_append_right _ (by simp [hup])

/-- Isolation after the step forces the condition on it. -/
theorem step_forces {a : RxStreamMachine.Act} (h : Tracked s)
    (ht : RxStreamMachine.step s a = some t) (hi : Isolated t) : Apart s a := by
  cases a with
  | reorder kmalloc =>
    intro g hg
    simp only [RxStreamMachine.step, Machine.reorder, Option.mem_def.mp hg] at ht
    constructor
    · intro hpath mac hmac
      rw [hpath] at ht
      exact unit_forces ht hi hmac
    · intro hpath mac hmac e he
      rw [hpath] at ht
      exact flush_forces h hg ht hi hmac he
  | workTurn key => exact turn_forces ht hi
  | select hdr f => trivial
  | workBegin key => trivial
  | deinit mac => trivial
  | surroundings staTable busDown => trivial

end Steps

def sampleHw : Hw where
  vifTable i := if i < 2 then some ⟨i, .station, true, false⟩ else none
  staTable _ := ⟨true, 0⟩
  monitorVif := 0
  defragList := []
  pool := MsduPool.init

def sampleHdr (vif : ℕ) : HwRxhdr := ⟨false, true, false, false, true, vif, 0xFF, 0xFF, 0, 84⟩

/-- A QoS frame to station `02:…:02`, sent by the station whose address repeats `ta`. -/
def sampleFrame (ta : UInt8) (seqNum : ℕ) : DefragMachine.RxFrame where
  skb := SkBuff.ofList ([0x88, 2, 0, 0]++List.replicate 6 2++List.replicate 6 ta++
    List.replicate 6 4++[UInt8.ofNat (16*seqNum), 0, 0, 0]++[0xAA, 0xAA, 3, 0, 0, 0, 8, 0]++
    List.replicate 50 0)
  decrStatus := 0
  flagsDstIdx := 0xFF
  flagsNeedReord := true
  flagsIs80211Mpdu := true

def sampleKey : Key := (List.replicate 6 2, 0)

def sampleRun : List RxStreamMachine.Act :=
  [.select (sampleHdr 0) (sampleFrame 4 1), .reorder true, .workBegin sampleKey,
    .workTurn sampleKey, .deinit (List.replicate 6 2)]

/-- The access point and a direct link send to one station. -/
def mixedRun : List RxStreamMachine.Act :=
  [.select (sampleHdr 0) (sampleFrame 4 1), .reorder true,
    .select (sampleHdr 0) (sampleFrame 6 2), .reorder true]

/-- A frame of interface 1 comes in while one of interface 0 waits. -/
def lateRun : List RxStreamMachine.Act :=
  [.select (sampleHdr 0) (sampleFrame 4 1), .reorder true,
    .select (sampleHdr 0) (sampleFrame 4 3), .reorder true,
    .select (sampleHdr 1) (sampleFrame 6 2), .workBegin sampleKey, .workTurn sampleKey]

def sampleReady (seqNum : ℕ) : Ready := ⟨ethernetSkb (sampleFrame 4 seqNum), seqNum, 0, true⟩

theorem sampleReady_of {n : ℕ} (h : (sampleFrame 4 n).isData = true ∧ (sampleFrame 4 n).seqNum = n ∧
    (sampleFrame 4 n).tid = 0 ∧ (sampleFrame 4 n).isQos = true) :
    readyOf (sampleFrame 4 n) = sampleReady n := by
  obtain ⟨hdata, hseq, htid, hqos⟩ := h
  simp only [readyOf, hdata, if_true, hseq, htid, hqos, sampleReady]

/-- A frame of the access point on interface 0. -/
theorem select_sample {s : Machine} (hrx : s.rx = none)
    (hvif : s.hw.vifTable = sampleHw.vifTable) {n : ℕ} (hn : readyOf (sampleFrame 4 n) = sampleReady n) :
    RxStreamMachine.step s (.select (sampleHdr 0) (sampleFrame 4 n)) = some { s with
      rwnxVif := some 0
      rx := some ⟨s.received.length, sampleHdr 0, ⟨0, .station, true, false⟩, sampleReady n⟩
      received := s.received++[⟨List.replicate 6 4, 0, 0⟩] } := by
  have hv : (getVif s.hw 0).bind (vlanVif s.hw (sampleHdr 0)) =
      some ⟨0, .station, true, false⟩ := by
    rw [getVif, hvif]
    rfl
  have haddr : (sampleFrame 4 n).addr2 = List.replicate 6 4 := by rfl
  simp only [RxStreamMachine.step, hrx, Machine.select, hn]
  simp only [sampleHdr] at hv ⊢
  rw [hv]
  simp [haddr, sampleReady]

theorem reorder_frame {s t : Machine} {kmalloc : Bool} (h : s.reorder kmalloc = some t) :
    t.rx = none ∧ t.hw.vifTable = s.hw.vifTable := by
  unfold Machine.reorder at h
  split at h
  · cases h
  · split at h
    · unfold Machine.unit at h
      split_ifs at h
      obtain ⟨_, -, rfl⟩ := Option.map_eq_some_iff.mp h
      exact ⟨rfl, rfl⟩
    · unfold Machine.flush at h
      split_ifs at h
      obtain ⟨_, -, rfl⟩ := Option.map_eq_some_iff.mp h
      exact ⟨rfl, rfl⟩
    · obtain rfl := Option.some.inj h
      exact ⟨rfl, rfl⟩

def lateFirst : Machine :=
  { init sampleHw with
    rwnxVif := some 0
    rx := some ⟨0, sampleHdr 0, ⟨0, .station, true, false⟩, sampleReady 1⟩
    received := [⟨List.replicate 6 4, 0, 0⟩] }

theorem lateFirst_reorder : (lateFirst.reorder true).isSome = true := by decide +kernel

/-- Frame 1 came in on interface 0 and goes up on interface 1. -/
theorem late_handed : (exec RxStreamMachine.step (init sampleHw) lateRun).map
    (fun u => (u.received.map Tag.vif, u.handed)) =
      some ([0, 0, 1], [(0, some 0), (1, some 1)]) := by
  have hfirst : RxStreamMachine.step (init sampleHw) (.select (sampleHdr 0) (sampleFrame 4 1)) =
      some lateFirst := select_sample rfl rfl (sampleReady_of (by decide +kernel))
  have hget : RxStreamMachine.step lateFirst (.reorder true) =
      some ((lateFirst.reorder true).get lateFirst_reorder) := (Option.some_get _).symm
  obtain ⟨hrx, hvif⟩ := reorder_frame (s := lateFirst) hget
  -- the TID of the second frame is evaluated before the pool sees it
  have hthree : readyOf (sampleFrame 4 3) = sampleReady 3 := sampleReady_of (by decide +kernel)
  have hsecond := select_sample hrx (hvif.trans rfl) hthree
  rw [lateRun, exec, hfirst, Option.bind_some, exec, hget, Option.bind_some, exec, hsecond,
    Option.bind_some]
  decide +kernel

theorem mixed_seen : (exec RxStreamMachine.step (init sampleHw) mixedRun).map
    (fun u => (u.seen sampleKey, u.received.map Tag.ta)) =
      some ([0, 1], [List.replicate 6 4, List.replicate 6 6]) := by
  decide +kernel

end AIC.RxIsolation
