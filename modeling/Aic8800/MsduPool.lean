import Aic8800.Lib.GuardedRun
import Aic8800.Lib.PlacedOnce
import Aic8800.ReorderMachine

/-!
# The pool of reorder elements

The functions of the reorder machine once more, with the elements that
`aicwf_rxframe_queue_init` creates and the buffers they hold told apart by
numbers. Without the numbers it is the machine of `ReorderMachine`. What a
function does to buffers is a list of them, each with what became of it.
-/

set_option autoImplicit false

namespace AIC.MsduPool
open AIC.ReorderMachine Lib.GuardedRun Lib.PlacedOnce

def MAX_REORD_RXFRAME : ℕ := 250

/-- `skb` numbers the buffer that `pkt` points to. -/
structure Element where
  id : ℕ
  skb : ℕ
  msdu : RecvMsdu

structure PoolCtrl where
  enable : Bool
  indSn : ℕ
  wsizeB : ℕ
  reordList : List Element
  reordTimer : Bool
  reordTimerWork : Bool

structure PoolInfo where
  macAddr : List UInt8
  preorderCtrl : ℕ → PoolCtrl

structure Pool where
  rwnxVif : Option IfType
  busDown : Bool
  rxframesFreequeue : List ℕ
  stasReordList : List PoolInfo

def rxframeQueueInit : List ℕ := (List.range MAX_REORD_RXFRAME).reverse

def init : Pool where
  rwnxVif := none
  busDown := false
  rxframesFreequeue := rxframeQueueInit
  stasReordList := []

/-! ## One control -/

namespace PoolCtrl

/-- The control without the numbers. -/
def erase (c : PoolCtrl) : ReordCtrl :=
  ⟨c.enable, c.indSn, c.wsizeB, c.reordList.map Element.msdu, c.reordTimer, c.reordTimerWork⟩

def needCheck (c : PoolCtrl) (seqNum : ℕ) : PoolCtrl × Bool :=
  let r := reordNeedCheck c.erase seqNum
  ({ c with indSn := r.1.indSn }, r.2)

def process (c : PoolCtrl) (bforced : Bool) : PoolCtrl × Bool :=
  let r := reordRxframesProcess c.erase bforced
  ({ c with indSn := r.1.indSn }, r.2)

def ind (c : PoolCtrl) : PoolCtrl × List (Element × Ind) :=
  ({ c with reordList := c.reordList.dropWhile (fun e => !snLess c.indSn e.msdu.seqNum) },
    (c.reordList.takeWhile (fun e => !snLess c.indSn e.msdu.seqNum)).map
      fun e => (e, .listed e.msdu))

end PoolCtrl

def rxframeEnqueue (e : Element) : List Element → Option (List Element)
  | [] => some [e]
  | g::gs =>
    if snLess g.msdu.seqNum e.msdu.seqNum then (rxframeEnqueue e gs).map (g :: ·)
    else if snEqual g.msdu.seqNum e.msdu.seqNum then none else some (e::g::gs)

namespace PoolCtrl

def unit (c : PoolCtrl) (e : Element) : PoolCtrl × List (Element × Ind) :=
  let (c, noNeed) := c.needCheck e.msdu.seqNum
  if noNeed then
    if e.msdu.pkt.data 42 = 0x80 then
      if e.msdu.seqNum = c.indSn then (c, [(e, .direct e.msdu)])
      else (c, [(e, .kfree e.msdu.pkt)])
    else (c, [(e, .direct e.msdu)])
  else
    match rxframeEnqueue e c.reordList with
    | none => (c, [(e, .kfree e.msdu.pkt)])
    | some l =>
      let (c, more) := { c with reordList := l }.process false
      { c with reordTimer := more }.ind

def timeoutWorker (c : PoolCtrl) : PoolCtrl × List (Element × Ind) :=
  let (c, more) := { c with reordTimerWork := false }.process true
  { c with reordTimer := c.reordTimer || more }.ind

def reenable (c : PoolCtrl) : PoolCtrl :=
  if c.enable then c
  else { c with enable := true, indSn := 0xFFFF, wsizeB := AICWF_REORDER_WINSIZE }

/-- What `reord_flush_tid` leaves of a control. -/
def flushed (c : PoolCtrl) : PoolCtrl :=
  { c with enable := false, reordList := [], reordTimer := false, reordTimerWork := false }

end PoolCtrl

/-! ## The stations -/

def PoolInfo.elements (info : PoolInfo) : List Element :=
  (List.range 8).flatMap fun tid => (info.preorderCtrl tid).reordList

def listed (stas : List PoolInfo) : List Element := stas.flatMap PoolInfo.elements

def initCtrl : PoolCtrl := ⟨true, 0xFFFF, AICWF_REORDER_WINSIZE, [], false, false⟩

def initSta (mac : List UInt8) : PoolInfo := ⟨mac, fun _ => initCtrl⟩

def findInfo (mac : List UInt8) (stas : List PoolInfo) : Option PoolInfo :=
  stas.find? (fun info => info.macAddr == mac)

def putInfo (mac : List UInt8) (tid : ℕ) (c : PoolCtrl) : List PoolInfo → List PoolInfo
  | [] => []
  | info::rest =>
    if info.macAddr == mac then
      { info with preorderCtrl := Function.update info.preorderCtrl tid c }::rest
    else info::putInfo mac tid c rest

def lookupInfo (kmalloc : Bool) (p : Pool) (mac : List UInt8) :
    Option (List PoolInfo × PoolInfo) :=
  match findInfo mac p.stasReordList with
  | some info => some (p.stasReordList, info)
  | none =>
    if p.busDown || !kmalloc then none else some (p.stasReordList++[initSta mac], initSta mac)

/-! ## The four functions -/

namespace Pool

/-- Control `tid` of station `mac` changes, and elements go back to the free queue. -/
def putBack (p : Pool) (stas : List PoolInfo) (mac : List UInt8) (tid : ℕ)
    (r : PoolCtrl × List (Element × Ind)) : Pool :=
  { p with
    rxframesFreequeue := (r.2.map fun x => x.1.id).reverse++p.rxframesFreequeue
    stasReordList := putInfo mac tid r.1 stas }

/-- `k` is the number of the buffer passed. -/
def processUnit (kmalloc : Bool) (p : Pool) (k : ℕ) (u : RxUnit) :
    Option (Pool × List (ℕ × Ind)) :=
  match p.rwnxVif with
  | none => some (p, [(k, .kfree u.skb)])
  | some t =>
    if u.skb.len ≤ 14 then some (p, [(k, .kfree u.skb)])
    else
      match p.rxframesFreequeue with
      | [] => some (p, [(k, .kfree u.skb)])
      | id::free =>
        -- a frame that is not kept gives its element straight back
        if ethProto u.skb = ETH_P_PAE ∨ isMcast u.skb then some (p, [(k, .direct u.msdu)])
        else
          let q := { p with rxframesFreequeue := free }
          match reordMac t u.skb with
          | none => some (q, [(k, .kfree u.skb)])
          | some mac =>
            match lookupInfo kmalloc p mac with
            | none => some (q, [(k, .kfree u.skb)])
            | some (stas, info) =>
              if 8 ≤ u.tid then none
              else
                let r := (info.preorderCtrl u.tid).reenable.unit ⟨id, k, u.msdu⟩
                some (q.putBack stas mac u.tid r, r.2.map fun x => (x.1.skb, x.2))

def timeoutWorker (p : Pool) (mac : List UInt8) (tid : ℕ) : Pool × List (ℕ × Ind) :=
  match findInfo mac p.stasReordList with
  | none => (p, [])
  | some info =>
    if 8 ≤ tid then (p, [])
    else
      let r := (info.preorderCtrl tid).timeoutWorker
      (p.putBack p.stasReordList mac tid r, r.2.map fun x => (x.1.skb, x.2))

/-- `none`: the interface is NULL, or the TID indexes past `preorder_ctrl[8]`. -/
def flushTid (p : Pool) (k : ℕ) (skb : SkBuff) (tid : ℕ) : Option (Pool × List (ℕ × Ind)) :=
  match p.rwnxVif with
  | none => none
  | some t =>
    match reordMac t skb with
    | none => some (p, [(k, .kfree skb)])
    | some mac =>
      match findInfo mac p.stasReordList with
      | none => some (p, [])
      | some info =>
        if 8 ≤ tid then none
        else
          let c := info.preorderCtrl tid
          if c.enable then
            some (p.putBack p.stasReordList mac tid
                (c.flushed, c.reordList.map fun e => (e, .listed e.msdu)),
              c.reordList.map fun e => (e.skb, .listed e.msdu))
          else some (p, [])

/-- The callers take the station of an address. -/
def deinitSta (p : Pool) (mac : List UInt8) : Pool × List (ℕ × Ind) :=
  match findInfo mac p.stasReordList with
  | none => (p, [])
  | some info =>
    ({ p with
      rxframesFreequeue := (info.elements.map Element.id).reverse++p.rxframesFreequeue
      stasReordList := p.stasReordList.eraseP fun info => info.macAddr == mac },
      info.elements.map fun e => (e.skb, .kfree e.msdu.pkt))

end Pool

inductive Act where
  | processUnit (kmalloc : Bool) (k : ℕ) (u : RxUnit)
  | timeoutWorker (mac : List UInt8) (tid : ℕ)
  | flushTid (k : ℕ) (skb : SkBuff) (tid : ℕ)
  | deinitSta (mac : List UInt8)
  /-- The interface and the bus change between the calls. -/
  | surroundings (rwnxVif : Option IfType) (busDown : Bool)

def step (p : Pool) : Act → Option Pool
  | .processUnit kmalloc k u => (p.processUnit kmalloc k u).map Prod.fst
  | .timeoutWorker mac tid => some (p.timeoutWorker mac tid).1
  | .flushTid k skb tid => (p.flushTid k skb tid).map Prod.fst
  | .deinitSta mac => some (p.deinitSta mac).1
  | .surroundings rwnxVif busDown => some { p with rwnxVif := rwnxVif, busDown := busDown }

/-! ## The machine without the numbers -/

def PoolInfo.erase (info : PoolInfo) : ReordCtrlInfo :=
  ⟨info.macAddr, fun tid => (info.preorderCtrl tid).erase⟩

def Pool.erase (p : Pool) : RxPriv :=
  ⟨p.rwnxVif, p.busDown, p.rxframesFreequeue.length, p.stasReordList.map PoolInfo.erase⟩

theorem rxframeEnqueue_erase (e : Element) (l : List Element) :
    (rxframeEnqueue e l).map (List.map Element.msdu) =
      reordRxframeEnqueue e.msdu (l.map Element.msdu) := by
  induction l with
  | nil => rfl
  | cons g gs ih =>
    simp only [rxframeEnqueue, reordRxframeEnqueue, List.map_cons, ← ih]
    split_ifs
    · cases rxframeEnqueue e gs <;> rfl
    · rfl
    · rfl

/-- `reord_need_check` sets `ind_sn` only. -/
theorem reordNeedCheck_fields (c : ReordCtrl) (n : ℕ) :
    { c with indSn := (reordNeedCheck c n).1.indSn } = (reordNeedCheck c n).1 := by
  have hset : ∃ m, (reordNeedCheck c n).1 = { c with indSn := m } := by
    dsimp only [reordNeedCheck]
    split_ifs <;> exact ⟨_, rfl⟩
  obtain ⟨m, hm⟩ := hset
  rw [hm]

theorem needCheck_erase (c : PoolCtrl) (n : ℕ) :
    ((c.needCheck n).1.erase, (c.needCheck n).2) = reordNeedCheck c.erase n := by
  have hc : (c.needCheck n).1.erase =
      { c.erase with indSn := (reordNeedCheck c.erase n).1.indSn } := rfl
  rw [hc, reordNeedCheck_fields]
  rfl

theorem process_erase (c : PoolCtrl) (bforced : Bool) :
    ((c.process bforced).1.erase, (c.process bforced).2) =
      reordRxframesProcess c.erase bforced := by
  obtain ⟨enable, indSn, wsizeB, l, timer, work⟩ := c
  cases l <;> rfl

theorem ind_erase (c : PoolCtrl) :
    (c.ind.1.erase, c.ind.2.map Prod.snd) = reordRxframesInd c.erase := by
  simp only [PoolCtrl.ind, PoolCtrl.erase, reordRxframesInd, List.dropWhile_map,
    List.takeWhile_map, List.map_map]
  rfl

theorem unit_erase (c : PoolCtrl) (e : Element) :
    ((c.unit e).1.erase, (c.unit e).2.map Prod.snd) = reordUnit c.erase e.msdu := by
  have hcheck := needCheck_erase c e.msdu.seqNum
  unfold PoolCtrl.unit reordUnit
  rw [← hcheck]
  obtain ⟨d, noNeed⟩ := c.needCheck e.msdu.seqNum
  have hsn : d.erase.indSn = d.indSn := rfl
  dsimp only
  rw [hsn]
  by_cases hneed : noNeed = true
  · rw [if_pos hneed, if_pos hneed]
    by_cases hrtp : e.msdu.pkt.data 42 = 0x80
    · rw [if_pos hrtp, if_pos hrtp]
      by_cases hseq : e.msdu.seqNum = d.indSn
      · rw [if_pos hseq, if_pos hseq]
        rfl
      · rw [if_neg hseq, if_neg hseq]
        rfl
    · rw [if_neg hrtp, if_neg hrtp]
      rfl
  · rw [if_neg hneed, if_neg hneed]
    have hlist : d.erase.reordList = d.reordList.map Element.msdu := rfl
    rw [hlist, ← rxframeEnqueue_erase]
    cases rxframeEnqueue e d.reordList with
    | none => rfl
    | some l =>
      have hproc := process_erase { d with reordList := l } false
      dsimp only [Option.map_some]
      rw [ind_erase]
      exact congrArg (fun r : ReordCtrl × Bool =>
        reordRxframesInd { r.1 with reordTimer := r.2 }) hproc

theorem timeoutWorker_erase (c : PoolCtrl) :
    (c.timeoutWorker.1.erase, c.timeoutWorker.2.map Prod.snd) = reordTimeoutWorker c.erase := by
  have hproc := process_erase { c with reordTimerWork := false } true
  dsimp only [PoolCtrl.timeoutWorker, reordTimeoutWorker]
  rw [ind_erase]
  exact congrArg (fun r : ReordCtrl × Bool =>
    reordRxframesInd { r.1 with reordTimer := r.1.reordTimer || r.2 }) hproc

theorem reenable_erase (c : PoolCtrl) : c.reenable.erase = ReorderMachine.reenable c.erase := by
  cases h : c.enable <;> simp [PoolCtrl.reenable, ReorderMachine.reenable, PoolCtrl.erase, h]

theorem findInfo_erase (mac : List UInt8) (stas : List PoolInfo) :
    findSta mac (stas.map PoolInfo.erase) = (findInfo mac stas).map PoolInfo.erase := by
  induction stas with
  | nil => rfl
  | cons info stas ih =>
    cases h : info.macAddr == mac
    · simpa [findSta, findInfo, PoolInfo.erase, h] using ih
    · simp [findSta, findInfo, PoolInfo.erase, h]

theorem putInfo_erase (mac : List UInt8) (tid : ℕ) (c : PoolCtrl) (stas : List PoolInfo) :
    (putInfo mac tid c stas).map PoolInfo.erase =
      putCtrl mac tid c.erase (stas.map PoolInfo.erase) := by
  induction stas with
  | nil => rfl
  | cons info stas ih =>
    have hmac : info.erase.macAddr = info.macAddr := rfl
    simp only [putInfo, putCtrl, List.map_cons, hmac]
    split_ifs
    · have hctrl : (fun t => (Function.update info.preorderCtrl tid c t).erase) =
          Function.update info.erase.preorderCtrl tid c.erase := by
        funext t
        by_cases ht : t = tid
        · subst t
          rw [Function.update_self, Function.update_self]
        · rw [Function.update_of_ne ht, Function.update_of_ne ht]
          rfl
      rw [List.map_cons, ← hctrl]
      rfl
    · rw [List.map_cons, ih]

theorem lookupInfo_erase (kmalloc : Bool) (p : Pool) (mac : List UInt8) :
    lookupSta kmalloc p.erase mac =
      (lookupInfo kmalloc p mac).map fun r => (r.1.map PoolInfo.erase, r.2.erase) := by
  have hfind : findSta mac p.erase.stasReordList =
      (findInfo mac p.stasReordList).map PoolInfo.erase := findInfo_erase mac p.stasReordList
  have hbus : p.erase.busDown = p.busDown := rfl
  unfold lookupSta lookupInfo
  rw [hfind, hbus]
  cases findInfo mac p.stasReordList with
  | some info => rfl
  | none =>
    dsimp only [Option.map_none]
    by_cases hno : (p.busDown || !kmalloc) = true
    · rw [if_pos hno, if_pos hno]
      rfl
    · rw [if_neg hno, if_neg hno]
      simp only [Option.map_some, List.map_append, List.map_singleton]
      rfl

/-- `reord_process_unit` with the numbers is the one of the reorder machine. -/
theorem processUnit_erase (kmalloc : Bool) (p : Pool) (k : ℕ) (u : RxUnit) :
    (p.processUnit kmalloc k u).map (fun r => (r.1.erase, r.2.map Prod.snd)) =
      reordProcessUnit kmalloc p.erase u := by
  have hvif : p.erase.rwnxVif = p.rwnxVif := rfl
  have hfree : p.erase.rxframesFreequeue = p.rxframesFreequeue.length := rfl
  simp only [Pool.processUnit, reordProcessUnit, hvif, hfree, lookupInfo_erase]
  cases p.rwnxVif with
  | none => rfl
  | some t =>
    by_cases hlen : u.skb.len ≤ 14
    · simp only [if_pos hlen, Option.map_some, List.map_singleton]
    simp only [if_neg hlen]
    cases hq : p.rxframesFreequeue with
    | nil => rfl
    | cons id free =>
      simp only [List.length_cons, Nat.add_one_ne_zero, if_false, Nat.add_sub_cancel]
      by_cases hdirect : ethProto u.skb = ETH_P_PAE ∨ isMcast u.skb
      · simp only [if_pos hdirect, Option.map_some, List.map_singleton]
      simp only [if_neg hdirect]
      cases reordMac t u.skb with
      | none => rfl
      | some mac =>
        dsimp only
        cases lookupInfo kmalloc p mac with
        | none => rfl
        | some r =>
          obtain ⟨stas, info⟩ := r
          by_cases htid : 8 ≤ u.tid
          · simp only [Option.map_some, if_pos htid, Option.map_none]
          · have hunit := unit_erase (info.preorderCtrl u.tid).reenable ⟨id, k, u.msdu⟩
            rw [reenable_erase] at hunit
            have hctrl : info.erase.preorderCtrl u.tid = (info.preorderCtrl u.tid).erase := rfl
            simp only [Option.map_some, if_neg htid, hctrl, ← hunit, Pool.putBack, Pool.erase,
              putInfo_erase, List.map_map, List.length_append, List.length_reverse,
              List.length_map, Nat.add_comm]
            rfl

end AIC.MsduPool
