import Aic8800.Lib.GuardedRun
import Aic8800.DefragMachine

/-!
# Defragmentation contexts and their timers

The receive thread and the callbacks of `defrag_timer` over the contexts as
they lie in memory. Each context counts the calls of `kfree` on it and the ends
of its reassembly buffer, freed or passed on, and notes an access after the
free. A callback runs beside the thread: it reads the context to find
`defrag_lock`, waits, and reads it again for the unlock. The thread arms the
timer, and passes a frame on, after its own unlock.
-/

set_option autoImplicit false

namespace AIC.DefragTimer
open AIC.DefragMachine hiding step init
open Lib.GuardedRun

/-- How far `defrag_timeout_cb` of a context has come. -/
inductive Callback where
  | none
  | started
  | waiting
  | unlock
  deriving DecidableEq

structure Context where
  timer : Bool
  cb : Callback
  ctrlFrees : ℕ
  skbEnds : ℕ
  late : Bool
  deriving DecidableEq

namespace Context

def fresh : Context := ⟨false, .none, 0, 0, false⟩

def touchCtrl (c : Context) : Context := { c with late := c.late || decide (0 < c.ctrlFrees) }

def touchSkb (c : Context) : Context := { c with late := c.late || decide (0 < c.skbEnds) }

def endSkb (c : Context) : Context := { c with skbEnds := c.skbEnds+1 }

def kfree (c : Context) : Context := { c with ctrlFrees := c.ctrlFrees+1 }

end Context

/-- `setup`: the context is on the list and its timer not armed yet. `deliver`:
the context is freed, its buffer in the thread's hands. -/
inductive RxPhase where
  | idle
  | setup (i : ℕ)
  | deliver (i : ℕ)
  deriving DecidableEq

/-- Contexts are numbered as they are allocated. `locked`: a callback holds `defrag_lock`. -/
structure Machine where
  defragList : List (ℕ × DefragCtrlInfo)
  ctx : ℕ → Context
  next : ℕ
  rx : RxPhase
  locked : Bool

def init : Machine := ⟨[], fun _ => .fresh, 0, .idle, false⟩

def ids (s : Machine) : List ℕ := s.defragList.map Prod.fst

def modifyCtx (s : Machine) (i : ℕ) (g : Context → Context) : Machine :=
  { s with ctx := Function.update s.ctx i (g (s.ctx i)) }

/-- The search goes through contexts on the list only. -/
def walk (s : Machine) : Machine :=
  { s with ctx := fun i => if i ∈ ids s then (s.ctx i).touchCtrl else s.ctx i }

def findCtx (f : RxFrame) (s : Machine) : Option (ℕ × DefragCtrlInfo) :=
  s.defragList.find? (fun e => e.2.matches f)

def putCtx (s : Machine) (i : ℕ) (d : DefragCtrlInfo) : Machine :=
  { s with defragList := s.defragList.map (fun e => if e.1 = i then (i, d) else e) }

def listDel (s : Machine) (i : ℕ) : Machine :=
  { s with defragList := s.defragList.filter (fun e => e.1 ≠ i) }

/-- A fragment that overruns its buffer stops the machine in `skb_put`. -/
def moreFragment (tailroom : ℕ) (s : Machine) (f : RxFrame) (alloc : Bool) : Option Machine :=
  match findCtx f s with
  | some (i, c) =>
    if c.nextFn ≠ f.fragNum then some s
    else (c.append tailroom f).map fun d =>
      modifyCtx (putCtx s i { d with nextFn := d.nextFn+1 }) i .touchSkb
  | none =>
    if !alloc then some s
    else (DefragCtrlInfo.start tailroom f).map fun d =>
      { s with
        defragList := s.defragList++[(s.next, d)]
        next := s.next+1
        rx := .setup s.next }

def lastFragment (tailroom : ℕ) (s : Machine) (f : RxFrame) (vif : Bool) : Option Machine :=
  match findCtx f s with
  | some (i, c) =>
    if c.nextFn ≠ f.fragNum then some s
    else (c.append tailroom f).map fun d =>
      let s := modifyCtx (putCtx s i d) i .touchSkb
      -- del_timer stops a timer that has not expired, and nothing else
      if vif then { modifyCtx (listDel s i) i (fun c => { c.kfree with timer := false }) with
        rx := .deliver i }
      else s
  | none => some s

/-- A data frame with the more-fragments bit or a fragment number. -/
def isFragment (f : RxFrame) : Bool :=
  f.isData && !f.isAmsdu && !f.flagsNeedReord && (f.moreFrag || f.fragNum != 0)

/-- `rwnx_rxdataind_aicwf` up to its unlock. A last fragment tests the list
before it takes the lock. -/
def rxFrame (tailroom : ℕ) (s : Machine) (f : RxFrame) (alloc vif : Bool) : Option Machine :=
  if !isFragment f then some s
  else if s.locked && (f.moreFrag || !s.defragList.isEmpty) then none
  else if f.moreFrag then moreFragment tailroom (walk s) f alloc
  else lastFragment tailroom (walk s) f vif

/-- After the unlock: `timer_setup` and `mod_timer`, or `rwnx_rx_data_skb`, which
takes the buffer or has it freed. -/
def rxStep (s : Machine) : Option Machine :=
  match s.rx with
  | .idle => none
  | .setup i => some { modifyCtx s i (fun c => { c.touchCtrl with timer := true }) with rx := .idle }
  | .deliver i => some { modifyCtx s i (fun c => c.touchSkb.endSkb) with rx := .idle }

/-- `defrag_timeout_cb` under the lock. -/
def timeoutBody (s : Machine) (i : ℕ) : Machine :=
  { modifyCtx (listDel s i) i (fun c => { c.touchCtrl.touchSkb.endSkb.kfree with cb := .unlock }) with
    locked := true }

/-- `defrag_timeout_cb` of context `i`. -/
def cbStep (s : Machine) (i : ℕ) : Option Machine :=
  match (s.ctx i).cb with
  | .none => none
  | .started => some (modifyCtx s i (fun c => { c.touchCtrl with cb := .waiting }))
  | .waiting => if s.locked then none else some (timeoutBody s i)
  | .unlock => some { modifyCtx s i (fun c => { c.touchCtrl with cb := .none }) with locked := false }

inductive Act where
  | rx (f : RxFrame) (alloc vif : Bool)
  | rxStep
  | expire (i : ℕ)
  | cb (i : ℕ)

def step (tailroom : ℕ) (s : Machine) : Act → Option Machine
  | .rx f alloc vif => if s.rx = .idle then rxFrame tailroom s f alloc vif else none
  | .rxStep => rxStep s
  | .expire i =>
    if (s.ctx i).timer = true then
      some (modifyCtx s i (fun c => { c with timer := false, cb := .started }))
    else none
  | .cb i => cbStep s i

/-! ## What a step shows of a context -/

@[simp] theorem ids_modifyCtx (s : Machine) (i : ℕ) (g : Context → Context) :
    ids (modifyCtx s i g) = ids s := rfl

@[simp] theorem ids_walk (s : Machine) : ids (walk s) = ids s := rfl

@[simp] theorem modifyCtx_self (s : Machine) (i : ℕ) (g : Context → Context) :
    (modifyCtx s i g).ctx i = g (s.ctx i) := Function.update_self ..

@[simp] theorem modifyCtx_other (s : Machine) {i j : ℕ} (h : j ≠ i) (g : Context → Context) :
    (modifyCtx s i g).ctx j = s.ctx j := Function.update_of_ne h ..

@[simp] theorem ids_putCtx (s : Machine) (i : ℕ) (d : DefragCtrlInfo) :
    ids (putCtx s i d) = ids s := by
  simp only [ids, putCtx, List.map_map]
  apply List.map_congr_left
  intro e _
  simp only [Function.comp_apply]
  split_ifs with h
  · exact h.symm
  · rfl

@[simp] theorem timeoutBody_self (s : Machine) (i : ℕ) : (timeoutBody s i).ctx i =
    { (s.ctx i).touchCtrl.touchSkb.endSkb.kfree with cb := .unlock } :=
  modifyCtx_self (listDel s i) i (fun c => { c.touchCtrl.touchSkb.endSkb.kfree with cb := .unlock })

theorem mem_ids_listDel {s : Machine} {i j : ℕ} :
    j ∈ ids (listDel s i) ↔ j ≠ i ∧ j ∈ ids s := by
  simp only [ids, listDel, List.mem_map, List.mem_filter, decide_eq_true_eq]
  constructor
  · rintro ⟨e, ⟨he, hne⟩, rfl⟩
    exact ⟨hne, e, he, rfl⟩
  · rintro ⟨hne, e, he, rfl⟩
    exact ⟨e, ⟨he, hne⟩, rfl⟩

theorem findCtx_mem {f : RxFrame} {s : Machine} {i : ℕ} {c : DefragCtrlInfo}
    (h : findCtx f s = some (i, c)) : i ∈ ids s :=
  List.mem_map.mpr ⟨(i, c), List.mem_of_find?_eq_some h, rfl⟩

end AIC.DefragTimer
