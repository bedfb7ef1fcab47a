import Aic8800.RxDataOwnership
import Aic8800.Lib.GuardedRun

/-!
# Several streams through the reorder controls

The receive thread writes `rx_priv->rwnx_vif`, then takes the frame through its
reorder control; the work of each control holds `reord_list_lock` while it hands
up one frame after the other. `reord_single_frame_ind` reads the field anew for
each frame. What was received, which frames a control has handled and what was
handed up on which interface is recorded; nothing the machine does depends on it.
-/

set_option autoImplicit false

namespace AIC.RxStreamMachine
open AIC.ReorderMachine AIC.MsduPool AIC.RxDataInd AIC.RxDataOwnership
open AIC.DefragMachine (RxFrame)
open Lib.GuardedRun (exec)

/-- Who sent a frame, the interface selected for it, and its TID. -/
structure Tag where
  ta : List UInt8
  vif : ℕ
  tid : ℕ
  deriving DecidableEq

/-- A frame on its way to the reorder functions. `k` is its place in `received`. -/
structure Given where
  k : ℕ
  hdr : HwRxhdr
  vif : Vif
  ready : Ready

/-- `reord_process_unit`, `reord_flush_tid`, or neither. -/
inductive Path where
  | unit | flush | pass
  deriving DecidableEq

def Given.path (g : Given) : Path :=
  if g.vif.iftype.reord = .other ∨ g.ready.isQos = false then .pass
  else if g.hdr.flagsNeedReord then .unit else .flush

/-- A control: the address of its station and the TID. -/
abbrev Key := List UInt8 × ℕ

structure Machine where
  hw : Hw
  rwnxVif : Option ℕ
  rx : Option Given
  /-- The work of the control is between its lock and its unlock. -/
  working : Key → Bool
  received : List Tag
  seen : Key → List ℕ
  handed : List (ℕ × Option ℕ)

def init (hw : Hw) : Machine where
  hw := { hw with pool := MsduPool.init }
  rwnxVif := none
  rx := none
  working := fun _ => false
  received := []
  seen := fun _ => []
  handed := []

/-- The control after `reord_rxframes_process` and the timer. -/
def begun (c : PoolCtrl) : PoolCtrl :=
  let r := { c with reordTimerWork := false }.process true
  { r.1 with reordTimer := r.1.reordTimer || r.2 }

@[simp] theorem begun_list (c : PoolCtrl) : (begun c).reordList = c.reordList := rfl

namespace Machine
variable (s : Machine)

def setPool (p : Pool) : Machine := { s with hw := { s.hw with pool := p } }

/-- What `reord_single_frame_ind` does with a list of frames: the others are freed. -/
def hand (out : List (ℕ × Ind)) : List (ℕ × Option ℕ) :=
  s.handed++(out.filter fun x => x.2.netif.isSome).map fun x => (x.1, s.rwnxVif)

/-! ## The receive thread -/

def select (hdr : HwRxhdr) (f : RxFrame) : Machine :=
  match (getVif s.hw hdr.flagsVifIdx).bind (vlanVif s.hw hdr) with
  | none => s
  | some vif => { s with
      rwnxVif := some vif.vifIndex
      rx := some ⟨s.received.length, hdr, vif, readyOf f⟩
      received := s.received++[⟨f.addr2, vif.vifIndex, (readyOf f).tid⟩] }

/-- The station whose control `reord_process_unit` uses for the frame. -/
def unitMac (kmalloc : Bool) (g : Given) : Option (List UInt8) :=
  if usesCtrl kmalloc (poolFor s.hw g.vif) g.vif.iftype.reord g.ready.skb then
    reordMac g.vif.iftype.reord g.ready.skb
  else none

/-- The station whose control `reord_flush_tid` empties. -/
def flushMac (g : Given) : Option (List UInt8) :=
  (reordMac g.vif.iftype.reord g.ready.skb).filter fun mac =>
    (findInfo mac s.hw.pool.stasReordList).any fun info => (info.preorderCtrl g.ready.tid).enable

def unitOf (g : Given) : RxUnit :=
  ⟨g.ready.skb, g.ready.seqNum, g.ready.tid,
    !g.vif.isAp || isMcast g.ready.skb || !inBss s.hw g.hdr g.vif⟩

def note (mac : Option (List UInt8)) (g : Given) : Key → List ℕ :=
  match mac with
  | none => s.seen
  | some mac => fun key =>
    if key = (mac, g.ready.tid) then s.seen key++[g.k] else s.seen key

/-- The thread waits while the work holds the lock of the control. -/
def waits (mac : Option (List UInt8)) (g : Given) : Bool :=
  mac.any fun mac => s.working (mac, g.ready.tid)

def unit (kmalloc : Bool) (g : Given) : Option Machine :=
  if s.waits (s.unitMac kmalloc g) g then none
  else ((poolFor s.hw g.vif).processUnit kmalloc g.k (s.unitOf g)).map fun r =>
    { s.setPool r.1 with
      rx := none
      seen := s.note (s.unitMac kmalloc g) g
      handed := s.hand r.2 }

def flush (g : Given) : Option Machine :=
  if s.waits (s.flushMac g) g then none
  else ((poolFor s.hw g.vif).flushTid g.k g.ready.skb g.ready.tid).map fun r =>
    { s.setPool r.1 with
      rx := none
      handed := s.hand r.2 }

def reorder (kmalloc : Bool) : Option Machine :=
  match s.rx with
  | none => none
  | some g =>
    match g.path with
    | .unit => s.unit kmalloc g
    | .flush => s.flush g
    | .pass => some { s.setPool (poolFor s.hw g.vif) with rx := none }

/-! ## The work of a control -/

def putCtrl (key : Key) (c : PoolCtrl) : Machine :=
  s.setPool { s.hw.pool with stasReordList := putInfo key.1 key.2 c s.hw.pool.stasReordList }

def ctrl (key : Key) : Option PoolCtrl :=
  if key.2 < 8 then
    (findInfo key.1 s.hw.pool.stasReordList).map fun info => info.preorderCtrl key.2
  else none

def workBegin (key : Key) : Option Machine :=
  match s.ctrl key, s.working key with
  | some c, false =>
    some { s.putCtrl key (begun c) with
      working := Function.update s.working key true }
  | _, _ => none

/-- The first frame of the list goes up, and its element to the free queue. -/
def release (key : Key) (c : PoolCtrl) (e : Element) (rest : List Element) : Machine :=
  let t := s.putCtrl key { c with reordList := rest }
  { t with
    hw := { t.hw with pool := { t.hw.pool with
      rxframesFreequeue := e.id::t.hw.pool.rxframesFreequeue } }
    handed := s.hand [(e.skb, .listed e.msdu)] }

/-- One turn of `reord_rxframes_ind`. -/
def workTurn (key : Key) : Option Machine :=
  match s.ctrl key, s.working key with
  | some c, true =>
    match c.reordList with
    | [] => some { s with working := Function.update s.working key false }
    | e::rest =>
      if snLess c.indSn e.msdu.seqNum then
        some { s with working := Function.update s.working key false }
      else some (s.release key c e rest)
  | _, _ => none

/-! ## The station leaves -/

/-- `reord_deinit_sta`, which takes each of the eight locks. -/
def deinit (mac : List UInt8) : Option Machine :=
  if (List.range 8).any fun tid => s.working (mac, tid) then none
  else some { s.setPool (s.hw.pool.deinitSta mac).1 with
    seen := fun key => if key.1 = mac then [] else s.seen key }

end Machine

inductive Act where
  | select (hdr : HwRxhdr) (f : RxFrame)
  | reorder (kmalloc : Bool)
  | workBegin (key : Key)
  | workTurn (key : Key)
  | deinit (mac : List UInt8)
  /-- The stations and the bus change between the steps. -/
  | surroundings (staTable : ℕ → Sta) (busDown : Bool)

def step (s : Machine) : Act → Option Machine
  | .select hdr f => if s.rx.isSome then none else some (s.select hdr f)
  | .reorder kmalloc => s.reorder kmalloc
  | .workBegin key => s.workBegin key
  | .workTurn key => s.workTurn key
  | .deinit mac => s.deinit mac
  | .surroundings staTable busDown => some { s with
      hw := { s.hw with staTable := staTable, pool := { s.hw.pool with busDown := busDown } } }

/-! ## What the functions do alone -/

/-- Taken through its control, a frame leaves the tables and the pool as the branch of its
interface type does. -/
theorem reorder_branch {s t : Machine} {g : Given} (hg : s.rx = some g) {env : Env}
    (ht : s.reorder env.kmalloc = some t) {x : Result}
    (hx : branch s.hw env g.hdr g.k g.vif g.ready = some x) : t.hw = x.1 := by
  have hreorder : ∀ forward, s.unitOf g = ⟨g.ready.skb, g.ready.seqNum, g.ready.tid, forward⟩ →
      s.unit env.kmalloc g = some t → reorder s.hw env g.k g.vif g.ready forward = some x →
      t.hw = x.1 := by
    intro forward hunit h hr
    unfold Machine.unit at h
    split_ifs at h
    rw [hunit] at h
    obtain ⟨r, hr', rfl⟩ := Option.map_eq_some_iff.mp h
    simp only [reorder, hr', Option.map_some, Option.some.injEq] at hr
    exact hr ▸ rfl
  have hflush : ∀ uses, s.flush g = some t → g.ready.isQos = true →
      flushThen s.hw g.k g.vif g.ready uses = some x → t.hw = x.1 := by
    intro uses h hqos hf
    unfold Machine.flush at h
    split_ifs at h
    obtain ⟨r, hr', rfl⟩ := Option.map_eq_some_iff.mp h
    cases uses with
    | none => simp [flushThen, hqos, hr'] at hf
    | some us =>
      simp only [flushThen, hqos, hr', if_true, Option.bind_eq_bind, Option.bind_some,
        Option.some.injEq] at hf
      exact hf ▸ rfl
  have hplain : ∀ uses, some { s.setPool (poolFor s.hw g.vif) with rx := none } = some t →
      g.ready.isQos = false → flushThen s.hw g.k g.vif g.ready uses = some x → t.hw = x.1 := by
    intro uses h hqos hf
    obtain rfl := Option.some.inj h
    cases uses with
    | none => simp [flushThen, hqos] at hf
    | some us =>
      simp only [flushThen, hqos, Bool.false_eq_true, if_false, Option.map_some,
        Option.some.injEq] at hf
      exact hf ▸ rfl
  simp only [Machine.reorder, hg] at ht
  unfold branch staBranch apBranch at hx
  have hother : g.vif.iftype ≠ .station → g.vif.iftype ≠ .p2pClient → g.vif.iftype ≠ .ap →
      g.vif.iftype ≠ .p2pGo → some ({ s.hw with pool := poolFor s.hw g.vif }, []) = some x →
      t.hw = x.1 := by
    intro h₁ h₂ h₃ h₄ h
    have hreord : g.vif.iftype.reord = .other := by
      cases htype : g.vif.iftype <;> simp_all [NlIftype.reord]
    rw [Given.path, if_pos (Or.inl hreord)] at ht
    obtain rfl := Option.some.inj ht
    exact Option.some.inj h ▸ rfl
  cases hqos : g.ready.isQos with
  | false =>
    have hpath : g.path = .pass := by simp [Given.path, hqos]
    simp only [hqos, Bool.false_and, Bool.false_eq_true, if_false] at hx
    split at hx
    case h_5 hn₁ hn₂ hn₃ hn₄ => exact hother hn₁ hn₂ hn₃ hn₄ hx
    all_goals rw [hpath] at ht
    case h_1 | h_2 => exact hplain _ ht hqos hx
    case h_3 | h_4 => split_ifs at hx <;> exact hplain _ ht hqos hx
  | true =>
    simp only [hqos, Bool.true_and, if_true] at hx
    cases hneed : g.hdr.flagsNeedReord with
    | false =>
      simp only [hneed, Bool.false_eq_true, if_false] at hx
      split at hx
      case h_5 hn₁ hn₂ hn₃ hn₄ => exact hother hn₁ hn₂ hn₃ hn₄ hx
      all_goals
        rename_i htype
        have hpath : g.path = .flush := by simp [Given.path, hqos, hneed, htype, NlIftype.reord]
        rw [hpath] at ht
      case h_1 | h_2 => exact hflush _ ht hqos hx
      case h_3 | h_4 => split_ifs at hx <;> exact hflush _ ht hqos hx
    | true =>
      simp only [hneed, if_true] at hx
      split at hx
      case h_5 hn₁ hn₂ hn₃ hn₄ => exact hother hn₁ hn₂ hn₃ hn₄ hx
      all_goals
        rename_i htype
        have hpath : g.path = .unit := by simp [Given.path, hqos, hneed, htype, NlIftype.reord]
        rw [hpath] at ht
      case h_1 | h_2 => exact hreorder _ (by simp [Machine.unitOf, Vif.isAp, htype]) ht hx
      case h_3 | h_4 => exact hreorder _ (by simp [Machine.unitOf, Vif.isAp, htype]) ht hx

theorem putInfo_twice (mac : List UInt8) (tid : ℕ) (c d : PoolCtrl) (stas : List PoolInfo) :
    putInfo mac tid d (putInfo mac tid c stas) = putInfo mac tid d stas := by
  induction stas with
  | nil => rfl
  | cons info rest ih =>
    by_cases hmac : info.macAddr = mac
    · simp [putInfo, hmac]
    · simp [putInfo, hmac, ih]

theorem putInfo_same {mac : List UInt8} {tid : ℕ} {stas : List PoolInfo} {info : PoolInfo}
    (h : findInfo mac stas = some info) : putInfo mac tid (info.preorderCtrl tid) stas = stas := by
  induction stas with
  | nil => rfl
  | cons first rest ih =>
    by_cases hmac : first.macAddr = mac
    · obtain rfl : first = info := by simpa [findInfo, hmac] using h
      rw [putInfo, if_pos (beq_iff_eq.mpr hmac), Function.update_eq_self]
    · simp [putInfo, hmac, ih (by simpa [findInfo, hmac] using h)]

theorem findInfo_cons (m : List UInt8) (info : PoolInfo) (rest : List PoolInfo) :
    findInfo m (info::rest) = if info.macAddr = m then some info else findInfo m rest := by
  by_cases hm : info.macAddr = m
  · simp [findInfo, hm]
  · simp [findInfo, hm]

theorem findInfo_put (mac : List UInt8) (tid : ℕ) (c : PoolCtrl) (stas : List PoolInfo)
    (m : List UInt8) : findInfo m (putInfo mac tid c stas) =
      if m = mac then (findInfo m stas).map fun info =>
        { info with preorderCtrl := Function.update info.preorderCtrl tid c }
      else findInfo m stas := by
  induction stas with
  | nil => simp [putInfo, findInfo]
  | cons info rest ih =>
    by_cases hmac : info.macAddr = mac
    · rw [putInfo, if_pos (beq_iff_eq.mpr hmac), findInfo_cons, findInfo_cons]
      by_cases hm : m = mac
      · rw [if_pos (hmac.trans hm.symm), if_pos (hmac.trans hm.symm), if_pos hm]
        rfl
      · have hne : info.macAddr ≠ m := fun h => hm (h.symm.trans hmac)
        rw [if_neg hne, if_neg hne, if_neg hm]
    · have hskip : ¬ (info.macAddr == mac) = true := fun h => hmac (beq_iff_eq.mp h)
      rw [putInfo, if_neg hskip, findInfo_cons, findInfo_cons, ih]
      by_cases hm : info.macAddr = m
      · have hne : m ≠ mac := fun h => hmac (hm.trans h)
        simp [hm, hne]
      · simp [hm]

theorem ctrl_putCtrl {s : Machine} {key : Key} {c : PoolCtrl} (h : s.ctrl key = some c)
    (d : PoolCtrl) : (s.putCtrl key d).ctrl key = some d := by
  unfold Machine.ctrl at h ⊢
  split_ifs at h ⊢ with htid
  obtain ⟨info, hinfo, -⟩ := Option.map_eq_some_iff.mp h
  simp [Machine.putCtrl, Machine.setPool, findInfo_put, hinfo]

theorem hand_cons (s : Machine) (x : ℕ × Ind) (out : List (ℕ × Ind)) :
    s.hand (x::out) = { s with handed := s.hand [x] }.hand out := by
  simp [Machine.hand, List.filter_cons]
  split_ifs <;> simp

/-- The work puts its control back as it is. -/
theorem putBack_rest {s : Machine} {key : Key} {c : PoolCtrl} (h : s.ctrl key = some c) :
    s.hw.pool.putBack s.hw.pool.stasReordList key.1 key.2 (c, []) = s.hw.pool := by
  unfold Machine.ctrl at h
  split_ifs at h
  obtain ⟨info, hinfo, rfl⟩ := Option.map_eq_some_iff.mp h
  simp [Pool.putBack, putInfo_same hinfo]

/-- The turns hand up what `reord_rxframes_ind` hands up in one go. -/
theorem turns_ind (key : Key) (l : List Element) :
    ∀ {s : Machine} {c : PoolCtrl}, c.reordList = l → s.ctrl key = some c →
      s.working key = true → ∃ n t, exec step s (List.replicate n (.workTurn key)) = some t ∧
        t.working = Function.update s.working key false ∧
        t.hw.pool = s.hw.pool.putBack s.hw.pool.stasReordList key.1 key.2 c.ind ∧
        t.handed = s.hand (c.ind.2.map fun x => (x.1.skb, x.2)) := by
  have hstop : ∀ {s : Machine} {c : PoolCtrl}, s.ctrl key = some c → s.working key = true →
      c.ind = (c, []) → s.workTurn key =
        some { s with working := Function.update s.working key false } →
      ∃ n t, exec step s (List.replicate n (.workTurn key)) = some t ∧
        t.working = Function.update s.working key false ∧
        t.hw.pool = s.hw.pool.putBack s.hw.pool.stasReordList key.1 key.2 c.ind ∧
        t.handed = s.hand (c.ind.2.map fun x => (x.1.skb, x.2)) := by
    intro s c hc hwork hind hturn
    refine ⟨1, _, Option.bind_eq_some_iff.mpr ⟨_, hturn, rfl⟩, rfl, ?_, ?_⟩
    · rw [hind, putBack_rest hc]
    · simp [hind, Machine.hand]
  induction l with
  | nil =>
    intro s c hlist hc hwork
    apply hstop hc hwork
    · cases c
      simp_all [PoolCtrl.ind]
    · simp [Machine.workTurn, hc, hwork, hlist]
  | cons e rest ih =>
    intro s c hlist hc hwork
    cases hless : snLess c.indSn e.msdu.seqNum with
    | true =>
      apply hstop hc hwork
      · cases c
        simp_all [PoolCtrl.ind]
      · simp [Machine.workTurn, hc, hwork, hlist, hless]
    | false =>
      have hturn : s.workTurn key = some (s.release key c e rest) := by
        simp [Machine.workTurn, hc, hwork, hlist, hless]
      have hnext : (s.release key c e rest).ctrl key = some { c with reordList := rest } :=
        ctrl_putCtrl hc _
      have hind : c.ind = (({ c with reordList := rest } : PoolCtrl).ind.1,
          (e, .listed e.msdu)::({ c with reordList := rest } : PoolCtrl).ind.2) := by
        simp [PoolCtrl.ind, hlist, hless]
      obtain ⟨n, t, hrun, hworking, hpool, hhanded⟩ := ih rfl hnext hwork
      refine ⟨n+1, t, Option.bind_eq_some_iff.mpr ⟨_, hturn, hrun⟩, hworking, ?_, ?_⟩
      · rw [hpool, hind]
        simp [Pool.putBack, Machine.release, Machine.putCtrl, Machine.setPool, putInfo_twice]
      · rw [hhanded, hind, List.map_cons, hand_cons]
        rfl

/-- With nothing in between, the work does what `reord_timeout_worker` does in one go. -/
theorem work_timeoutWorker {s : Machine} {key : Key} {c : PoolCtrl} (hc : s.ctrl key = some c)
    (hwork : s.working key = false) :
    ∃ n t, exec step s (.workBegin key::List.replicate n (.workTurn key)) = some t ∧
      t.working = s.working ∧ t.hw.pool = (s.hw.pool.timeoutWorker key.1 key.2).1 ∧
      t.handed = s.hand (s.hw.pool.timeoutWorker key.1 key.2).2 := by
  have hbegin : s.workBegin key = some { s.putCtrl key (begun c) with
      working := Function.update s.working key true } := by
    simp [Machine.workBegin, hc, hwork]
  obtain ⟨n, t, hrun, hworking, hpool, hhanded⟩ :=
    turns_ind key _ rfl (ctrl_putCtrl hc (begun c)) (s := { s.putCtrl key (begun c) with
      working := Function.update s.working key true }) (Function.update_self ..)
  have hone : s.hw.pool.timeoutWorker key.1 key.2 =
      (s.hw.pool.putBack s.hw.pool.stasReordList key.1 key.2 (begun c).ind,
        (begun c).ind.2.map fun x => (x.1.skb, x.2)) := by
    unfold Machine.ctrl at hc
    split_ifs at hc with htid
    obtain ⟨info, hinfo, rfl⟩ := Option.map_eq_some_iff.mp hc
    simp [Pool.timeoutWorker, hinfo, Nat.not_le.mpr htid, PoolCtrl.timeoutWorker, begun]
  refine ⟨n, t, Option.bind_eq_some_iff.mpr ⟨_, hbegin, hrun⟩, ?_, ?_, ?_⟩
  · rw [hworking, Function.update_idem, ← hwork, Function.update_eq_self]
  · rw [hpool, hone]
    simp [Pool.putBack, Machine.putCtrl, Machine.setPool, putInfo_twice]
  · rw [hhanded, hone]
    rfl

end AIC.RxStreamMachine
