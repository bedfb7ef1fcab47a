import Aic8800.BeaconBuild

/-!
# The announcement of a channel switch

`rwnx_cfg80211_channel_switch` puts the beacon of the announcement into the record of the access
point, keeps the beacon for afterwards in a `struct rwnx_csa`, and has the firmware change the
beacon. The indication that the switch is over schedules `rwnx_csa_finish`, which hands that second
beacon to the firmware and frees it. Both are split where they wait for the firmware with the csa
in the interface. The channel contexts they link are those of the channel modules.
-/

set_option autoImplicit false

namespace AIC.ChannelSwitch
open Lib.GuardedRun BeaconBuild

def BCN_MAX_CSA_CPT : ℕ := 2

/-- How a request to the firmware ends. -/
inductive Sent where
  | noMsg | failed | ok
  deriving DecidableEq

/-- The work item of a `struct rwnx_csa`: as `kzalloc` gives it, behind `INIT_WORK`, and
scheduled. -/
inductive Work where
  | zeroed | ready | pending
  deriving DecidableEq

/-- `struct rwnx_csa`. -/
structure RwnxCsa where
  bcn : RwnxBcn
  status : ℤ
  work : Work
  deriving DecidableEq

/-- `struct cfg80211_csa_settings`. -/
structure CsaSettings where
  beaconCsa : BeaconData
  beaconAfter : BeaconData
  counterOffsetsBeacon : List ℕ
  count : ℕ
  deriving DecidableEq

inductive Errno where
  | ebusy | einval | enomem | send
  deriving DecidableEq

/-- What a call finds. -/
structure Before where
  bcn : RwnxBcn
  csa : Option RwnxCsa
  heap : Heap
  deriving DecidableEq

inductive Event where
  | refused (error : Errno) (before : Before)
  | switched
  deriving DecidableEq

/-- A call that waits for the answer to its last request. -/
structure Call where
  before : Before
  params : CsaSettings
  deriving DecidableEq

/-- The access point of an interface. `fw` is the beacon the firmware took last, `running` the
status with which `rwnx_csa_finish` runs. The rest is of no use to the driver: the dtim the access
point was started with, the beacon promised for after the switch, whether an indication has come
for the csa and how often its work has begun, whether a csa was freed under its work, and what the
last action came to. -/
structure State where
  bcn : RwnxBcn
  csa : Option RwnxCsa
  heap : Heap
  fw : List UInt8
  call : Option Call
  running : Option ℤ
  dtim : UInt8
  after : BeaconData
  told : Bool
  runs : ℕ
  lost : Bool
  last : Option Event
  deriving DecidableEq

/-- An interface that has just been made an access point. -/
def init : State where
  bcn := .blank
  csa := none
  heap := ⟨0, 0⟩
  fw := []
  call := none
  running := none
  dtim := 0
  after := ⟨none, none⟩
  told := false
  runs := 0
  lost := false
  last := none

/-! ## Messages -/

namespace Sent

/-- `rwnx_send_bcn` frees the buffer once it has a message for it. -/
def heap (r : Sent) (heap : Heap) : Heap := if r = .noMsg then heap else heap.kfree

def beacon (r : Sent) (buf fw : List UInt8) : List UInt8 := if r = .ok then buf else fw

end Sent

/-- The count of the announcement is 2 where the request has 0. -/
def forceCount (p : CsaSettings) (bcn : RwnxBcn) (buf : List UInt8) : List UInt8 :=
  if p.count = 0 then
    p.counterOffsetsBeacon.foldl (fun b o => b.set ((o+bcn.headLen+bcn.timLen) % 2^16) 2) buf
  else buf

/-! ## The announcement -/

/-- The failures of a call up to its last request. -/
structure Fails where
  build : BuildFails
  bcn : Sent
  csa : Bool
  after : BuildFails
  bcnAfter : Sent

namespace State
variable (s : State)

def before : Before := ⟨s.bcn, s.csa, s.heap⟩

/-- A call returns an error, with this record and these allocations. -/
def refuse (error : Errno) (bcn : RwnxBcn) (heap : Heap) (fw : List UInt8) : State :=
  { s with
    bcn := bcn
    heap := heap
    fw := fw
    last := some (.refused error s.before) }

/-- `rwnx_del_csa`. -/
def delCsa : State :=
  match s.csa with
  | none => s
  | some csa =>
    { s with
      csa := none
      heap := (delBcn s.heap csa.bcn).1.kfree
      lost := s.lost || csa.work = .pending || s.running.isSome }

/-- Behind the beacon for afterwards. -/
def announceAfter (p : CsaSettings) (f : Fails) (bcn : RwnxBcn) (fw : List UInt8) (a : Built) :
    State :=
  match a.buf with
  -- the csa is not yet in the interface, where rwnx_del_csa looks for it
  | none => s.refuse .enomem bcn a.heap fw
  | some buf =>
    let heap := f.bcnAfter.heap a.heap
    let fw := f.bcnAfter.beacon buf fw
    if f.bcnAfter ≠ .ok then s.refuse .send bcn heap fw
    else
      { s with
        bcn := bcn
        csa := some ⟨a.bcn, 0, .zeroed⟩
        heap := heap
        fw := fw
        call := some ⟨s.before, p⟩
        after := p.beaconAfter
        told := false
        runs := 0
        last := none }

/-- Behind the beacon of the announcement. -/
def announceBcn (p : CsaSettings) (f : Fails) (b : Built) : State :=
  match b.buf with
  | none => s.refuse .enomem b.bcn b.heap s.fw
  | some buf =>
    let heap := f.bcn.heap b.heap
    let fw := f.bcn.beacon (forceCount p b.bcn buf) s.fw
    if f.bcn ≠ .ok then s.refuse .send b.bcn heap fw
    else if f.csa then s.refuse .enomem b.bcn heap fw
    else s.announceAfter p f b.bcn fw (buildBcn f.after heap.kmalloc .blank p.beaconAfter)

/-- `rwnx_cfg80211_channel_switch` up to `rwnx_send_bcn_change`. -/
def channelSwitch (p : CsaSettings) (f : Fails) : State :=
  if s.csa.isSome then s.refuse .ebusy s.bcn s.heap s.fw
  else if BCN_MAX_CSA_CPT < p.counterOffsetsBeacon.length then
    s.refuse .einval s.bcn s.heap s.fw
  else s.announceBcn p f (buildBcn f.build s.heap s.bcn p.beaconCsa)

/-- The rest of `rwnx_cfg80211_channel_switch`. -/
def answer (c : Call) (r : Sent) : State :=
  if r = .ok then
    { s with
      csa := s.csa.map fun csa => { csa with work := .ready }
      call := none
      last := none }
  else { s.delCsa with
    call := none
    last := some (.refused .send c.before) }

/-! ## The end of the switch -/

/-- `rwnx_rx_csa_finish_ind`. A work item that is not initialised is not queued. -/
def csaFinishInd (status : ℤ) : State :=
  match s.csa with
  | none => { s with last := none }
  | some csa =>
    { s with
      csa := some { csa with
        status := status
        work := if csa.work = .zeroed then .zeroed else .pending }
      told := true
      last := none }

/-- `rwnx_csa_finish` up to its requests. -/
def beginFinish (csa : RwnxCsa) (alloc : Bool) : State :=
  { s with
    csa := some { csa with work := .ready }
    heap := if alloc then s.heap.kmalloc else s.heap
    running := if alloc then some csa.status else none
    runs := s.runs+1
    last := none }

/-- The rest of `rwnx_csa_finish`. Behind an error `cfg80211_stop_iface` has the interface stopped
later. -/
def csaFinish (csa : RwnxCsa) (status : ℤ) (bcn change : Sent) : State :=
  if status ≠ 0 then { { s with running := none }.delCsa with last := none }
  else
    let s := { s with
      running := none
      heap := bcn.heap s.heap
      fw := bcn.beacon csa.bcn.copied s.fw }
    if bcn ≠ .ok then { s with last := none }
    else { s.delCsa with last := if change = .ok then some .switched else none }

/-! ## The other uses of the record -/

/-- A new beacon of the access point. -/
def putBeacon (f : BuildFails) (new : BeaconData) (r : Sent) : State :=
  let b := buildBcn f s.heap s.bcn new
  match b.buf with
  | none => { s with
    bcn := b.bcn
    heap := b.heap
    last := none }
  | some buf => { s with
    bcn := b.bcn
    heap := r.heap b.heap
    fw := r.beacon buf s.fw
    last := none }

/-- What `rwnx_cfg80211_stop_ap` does with them. -/
def stopAp : State :=
  { ({ s with
      bcn := (delBcn s.heap s.bcn).2
      heap := (delBcn s.heap s.bcn).1 } : State).delCsa with
    dtim := 0
    last := none }

end State

/-! ## Steps -/

/-- `startAp` is `rwnx_send_apm_start_req`. -/
inductive Act where
  | startAp (dtim : UInt8) (f : BuildFails) (new : BeaconData) (r : Sent)
  | changeBeacon (f : BuildFails) (new : BeaconData) (r : Sent)
  | stopAp
  | channelSwitch (p : CsaSettings) (f : Fails)
  | answer (r : Sent)
  | csaFinishInd (status : ℤ)
  | beginFinish (alloc : Bool)
  | csaFinish (bcn change : Sent)

/-- The calls of cfg80211 come one after the other. Once a csa was freed under its work nothing
more is known. -/
def step (s : State) (a : Act) : Option State :=
  if s.lost then none
  else match a with
  | .startAp dtim f new r => if s.call.isSome then none else
    some { ({ s with bcn := { s.bcn with dtim := dtim } } : State).putBeacon f new r with
      dtim := dtim }
  | .changeBeacon f new r => if s.call.isSome then none else some (s.putBeacon f new r)
  | .stopAp => if s.call.isSome then none else some s.stopAp
  | .channelSwitch p f => if s.call.isSome then none else some (s.channelSwitch p f)
  | .answer r => s.call.map fun c => s.answer c r
  | .csaFinishInd status => some (s.csaFinishInd status)
  | .beginFinish alloc => s.csa.bind fun csa =>
    if csa.work = .pending ∧ s.running = none then some (s.beginFinish csa alloc) else none
  | .csaFinish bcn change => s.csa.bind fun csa => s.running.map fun status =>
    s.csaFinish csa status bcn change

end AIC.ChannelSwitch
