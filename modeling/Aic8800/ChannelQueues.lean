import Aic8800.ChannelContext

/-!
# Queues and the current channel

A queue that must not send because its interface is on another channel has the
bit `RWNX_TXQ_STOP_CHAN`. The pre-switch indication of a context sets it and the
switch indication clears it, for the interfaces linked to the context. Whatever
makes queues or moves an interface compares with `cur_chanctx` when it does so.
The queues of a station are made, stopped, started and taken down together, and
one stands for all; those of TDLS stations and those for unknown stations are
left out.
-/

set_option autoImplicit false

namespace AIC.ChannelQueues
open AIC.ChannelContext

def CO_OK : ℕ := 0

/-- An entry of `sta_table`. -/
abbrev StaId := Fin (NX_REMOTE_STA_MAX+NX_VIRT_DEV_MAX)

instance : NeZero (NX_REMOTE_STA_MAX+NX_VIRT_DEV_MAX) := ⟨by decide⟩

inductive QueueId where
  | sta (k : StaId)
  | bcmc (v : VifId)
  deriving DecidableEq

/-- `stop`: the bit `RWNX_TXQ_STOP_CHAN`, which a queue keeps when it is taken down. -/
structure Queue where
  active : Bool
  stop : Bool
  deriving DecidableEq

/-- `ap`: `sta.ap` of a station interface. `master`: that of an `AP_VLAN` interface. -/
structure Vif where
  iftype : Iftype
  up : Bool
  vifIndex : ℕ
  chIndex : ℕ
  userMpm : Bool
  rocTdls : Bool
  ap : Option StaId
  master : VifId

/-- `list`: the interface whose `sta_list` the station is in. -/
structure Sta where
  valid : Bool
  vifIdx : VifId
  list : Option VifId

/-- `preSwitch`: the contexts with a pre-switch indication since the last switch
indication. `leaving`: the stop of an access point between its unlink and the end. -/
structure State where
  vif : VifId → Vif
  sta : StaId → Sta
  queue : QueueId → Queue
  curChanctx : ℕ
  preSwitch : ℕ → Bool
  leaving : Option VifId

namespace Queue

def Running (q : Queue) : Prop := q.active = true ∧ q.stop = false

instance (q : Queue) : Decidable q.Running := inferInstanceAs (Decidable (_ ∧ _))

def start (q : Queue) : Queue := { q with stop := q.stop && !q.active }

def halt (q : Queue) : Queue := { q with stop := q.stop || q.active }

def deinit (q : Queue) : Queue := { q with active := false }

end Queue

namespace State
variable (s : State)

def setVif (v : VifId) (x : Vif) : State := { s with vif := Function.update s.vif v x }

def setSta (k : StaId) (x : Sta) : State := { s with sta := Function.update s.sta k x }

def setQueue (i : QueueId) (q : Queue) : State := { s with queue := Function.update s.queue i q }

def setChIndex (v : VifId) (i : ℕ) : State := s.setVif v { s.vif v with chIndex := i }

def link (v : VifId) (chIdx : ℕ) : State :=
  if NX_CHAN_CTXT_CNT ≤ chIdx then s else s.setChIndex v chIdx

def unlink (v : VifId) : State := s.setChIndex v RWNX_CH_NOT_SET

/-! ## Start and stop -/

/-- The stations of `rwnx_txq_vif_for_each_sta`. -/
def Feeds (v : VifId) (k : StaId) : Prop :=
  match (s.vif v).iftype with
  | .station | .p2pClient => (s.vif v).ap = some k
  | .apVlan => (s.sta k).list = some (s.vif v).master
  | .ap | .meshPoint | .p2pGo => (s.sta k).list = some v
  | .p2pDevice | .monitor => False

instance (v : VifId) (k : StaId) : Decidable (s.Feeds v k) := by
  unfold Feeds
  split <;> infer_instance

def Reaches (v : VifId) : QueueId → Prop
  | .bcmc u => u = v
  | .sta k => s.Feeds v k

instance (v : VifId) : DecidablePred (s.Reaches v)
  | .bcmc _ => inferInstanceAs (Decidable (_ = _))
  | .sta k => inferInstanceAs (Decidable (s.Feeds v k))

/-- While a TDLS station has the channel the others are not started. -/
def Starts (v : VifId) (i : QueueId) : Prop :=
  s.Reaches v i ∧ ((s.vif v).rocTdls = true → i = .bcmc v)

instance (v : VifId) : DecidablePred (s.Starts v) := fun i =>
  inferInstanceAs (Decidable (s.Reaches v i ∧ _))

def rwnxTxqVifStart (v : VifId) : State :=
  if (s.vif v).iftype = .monitor then s
  else { s with queue := fun i => if s.Starts v i then (s.queue i).start else s.queue i }

def rwnxTxqVifStop (v : VifId) : State :=
  if (s.vif v).iftype = .monitor then s
  else { s with queue := fun i => if s.Reaches v i then (s.queue i).halt else s.queue i }

/-! ## Indications -/

/-- The loop over the interfaces linked to a context. -/
def forLinked (chanIdx : ℕ) (f : State → VifId → State) (l : List VifId) : State :=
  l.foldl (fun s v => if (s.vif v).up = true ∧ (s.vif v).chIndex = chanIdx then f s v else s) s

def vifs : List VifId := List.finRange _

def rxChanPreSwitchInd (chanIdx : ℕ) : State :=
  { s.forLinked chanIdx rwnxTxqVifStop vifs with
    preSwitch := Function.update s.preSwitch chanIdx true }

def setRocTdls (vifIndex : ℕ) : State :=
  { s with vif := fun v =>
      if (s.vif v).vifIndex = vifIndex then { s.vif v with rocTdls := true } else s.vif v }

/-- `rocTdls`: the `vif_index` of the indication, if its flag is set. -/
def rxChanSwitchInd (chanIdx : ℕ) (roc : Bool) (rocTdls : Option ℕ) : State :=
  let t := match rocTdls with
    | some i => s.setRocTdls i
    | none => if roc then s else s.forLinked chanIdx rwnxTxqVifStart vifs
  { t with curChanctx := chanIdx, preSwitch := fun _ => false }

/-- A monitor interface, which then follows the station, has no queues. -/
def rxSmConnectInd (v : VifId) (k : StaId) (status chIdx : ℕ) : State :=
  if status = 0 then
    let s := s.setSta k { s.sta k with valid := true, vifIdx := v }
    let s := (s.setVif v { s.vif v with ap := some k }).link v chIdx
    s.setQueue (.sta k) ⟨true, decide (chIdx ≠ s.curChanctx)⟩
  else s

def rxSmDisconnectInd (v : VifId) (k : StaId) : State :=
  let s := s.setQueue (.sta k) (s.queue (.sta k)).deinit
  let s := s.setSta k { s.sta k with valid := false }
  (s.setVif v { s.vif v with ap := none }).unlink v

def addPeer (v : VifId) (k : StaId) : State :=
  let i := (s.vif v).chIndex
  let s := (s.setSta k ⟨true, v, some v⟩).link v i
  s.setQueue (.sta k) ⟨true, decide (i ≠ s.curChanctx)⟩

def removePeer (k : StaId) : State :=
  let s := s.setSta k { s.sta k with valid := false, list := none }
  s.setQueue (.sta k) (s.queue (.sta k)).deinit

def rxMeshPeerUpdateInd (v : VifId) (k : StaId) (estab : Bool) : State :=
  if (s.vif v).iftype ≠ .meshPoint then s
  else if estab then
    if (s.vif v).userMpm = false ∧ (s.sta k).valid = false then s.addPeer v k else s
  else if (s.sta k).valid then s.removePeer k
  else s

/-- The interface moves to another context. -/
def relink (v : VifId) (chIdx : ℕ) : State :=
  let s := (s.unlink v).link v chIdx
  if s.curChanctx = chIdx then s.rwnxTxqVifStart v else s.rwnxTxqVifStop v

/-- For an access point the indication only schedules `rwnx_csa_finish`. -/
def rxCsaFinishInd (v : VifId) (status chIdx : ℕ) : State :=
  if (s.vif v).iftype = .ap ∨ (s.vif v).iftype = .p2pGo then s
  else if status = 0 then s.relink v chIdx
  else s

/-- `sent`: the indication was good and both beacon requests were. -/
def rwnxCsaFinish (v : VifId) (sent : Bool) (chIdx : ℕ) : State :=
  if sent then s.relink v chIdx else s

/-! ## Requests -/

/-- `b`: the station for broadcasts. -/
def startBss (v : VifId) (chIdx : ℕ) (b : StaId) : State :=
  let s := (s.setSta b { s.sta b with valid := true, vifIdx := v }).link v chIdx
  s.setQueue (.bcmc v) ⟨true, decide (s.curChanctx ≠ chIdx)⟩

def rwnxCfg80211StartAp (v : VifId) (status chIdx : ℕ) (b : StaId) : State :=
  if status = CO_OK then s.startBss v chIdx b else s

def rwnxCfg80211JoinMesh (v : VifId) (status chIdx : ℕ) (b : StaId) (userMpm : Bool) : State :=
  if status = CO_OK then (s.setVif v { s.vif v with userMpm := userMpm }).startBss v chIdx b
  else s

/-- The queues start with the bit of the queue for broadcasts, also when that is inactive. -/
def rwnxCfg80211AddStation (v : VifId) (status : ℕ) (k : StaId) : State :=
  if status = CO_OK then
    (s.setSta k ⟨true, v, some v⟩).setQueue (.sta k) ⟨true, (s.queue (.bcmc v)).stop⟩
  else s

def stopAp (v : VifId) : State := { s.unlink v with leaving := some v }

/-- The stations of the interface are removed and its queue is taken down. -/
def stopApEnd (v : VifId) : State :=
  { s with
    sta := fun k => if (s.sta k).list = some v then { s.sta k with valid := false, list := none }
      else s.sta k
    queue := fun i => if s.Reaches v i then (s.queue i).deinit else s.queue i
    leaving := none }

end State

inductive Act where
  | preSwitchInd (chanIdx : ℕ)
  | switchInd (chanIdx : ℕ) (roc : Bool) (rocTdls : Option ℕ)
  | connectInd (v : VifId) (k : StaId) (status chIdx : ℕ)
  | disconnectInd (v : VifId)
  | meshPeerUpdateInd (v : VifId) (k : StaId) (estab : Bool)
  | csaFinishInd (v : VifId) (status chIdx : ℕ)
  | csaFinish (v : VifId) (sent : Bool) (chIdx : ℕ)
  | startAp (v : VifId) (status chIdx : ℕ) (b : StaId)
  | joinMesh (v : VifId) (status chIdx : ℕ) (b : StaId) (userMpm : Bool)
  | addStation (v : VifId) (status : ℕ) (k : StaId)
  | stopAp (v : VifId)
  | stopApEnd
  deriving DecidableEq

def Client (t : Iftype) : Prop := t = .station ∨ t = .p2pClient

def Bss (t : Iftype) : Prop := t = .ap ∨ t = .p2pGo ∨ t = .meshPoint

instance (t : Iftype) : Decidable (Client t) := inferInstanceAs (Decidable (_ ∨ _))

instance (t : Iftype) : Decidable (Bss t) := inferInstanceAs (Decidable (_ ∨ _ ∨ _))

/-- The firmware announces a switch for the current context. It connects station
interfaces, disconnects what is connected and moves interfaces of its own that
have stations; cfg80211 runs one request at a time, on an interface of its kind. -/
def Enabled (s : State) : Act → Prop
  | .preSwitchInd _ | .meshPeerUpdateInd _ _ _ => True
  | .switchInd _ _ _ => s.preSwitch s.curChanctx = true
  | .connectInd v _ _ _ => Client (s.vif v).iftype
  | .disconnectInd v => Client (s.vif v).iftype ∧ (s.vif v).ap.isSome = true
  | .csaFinishInd v _ _ => Client (s.vif v).iftype ∨ Bss (s.vif v).iftype
  | .csaFinish v _ _ => (s.vif v).iftype = .ap ∨ (s.vif v).iftype = .p2pGo
  | .startAp v _ _ _ => s.leaving = none ∧ ((s.vif v).iftype = .ap ∨ (s.vif v).iftype = .p2pGo)
  | .joinMesh v _ _ _ _ => s.leaving = none ∧ (s.vif v).iftype = .meshPoint
  | .addStation v _ _ => s.leaving = none ∧ Bss (s.vif v).iftype
  | .stopAp v => s.leaving = none ∧ ((s.vif v).iftype = .ap ∨ (s.vif v).iftype = .p2pGo)
  | .stopApEnd => s.leaving.isSome = true

instance (s : State) (a : Act) : Decidable (Enabled s a) := by
  cases a <;> unfold Enabled <;> infer_instance

def run (s : State) : Act → State
  | .preSwitchInd chanIdx => s.rxChanPreSwitchInd chanIdx
  | .switchInd chanIdx roc rocTdls => s.rxChanSwitchInd chanIdx roc rocTdls
  | .connectInd v k status chIdx => s.rxSmConnectInd v k status chIdx
  | .disconnectInd v =>
    match (s.vif v).ap with
    | some k => s.rxSmDisconnectInd v k
    | none => s
  | .meshPeerUpdateInd v k estab => s.rxMeshPeerUpdateInd v k estab
  | .csaFinishInd v status chIdx => s.rxCsaFinishInd v status chIdx
  | .csaFinish v sent chIdx => s.rwnxCsaFinish v sent chIdx
  | .startAp v status chIdx b => s.rwnxCfg80211StartAp v status chIdx b
  | .joinMesh v status chIdx b userMpm => s.rwnxCfg80211JoinMesh v status chIdx b userMpm
  | .addStation v status k => s.rwnxCfg80211AddStation v status k
  | .stopAp v => s.stopAp v
  | .stopApEnd =>
    match s.leaving with
    | some v => s.stopApEnd v
    | none => s

def step (s : State) (a : Act) : Option State := if Enabled s a then some (run s a) else none

/-- Nothing is linked or connected. -/
def init (iftype : VifId → Iftype) (up : VifId → Bool) (vifIndex : VifId → ℕ)
    (master : VifId → VifId) : State where
  vif := fun v => ⟨iftype v, up v, vifIndex v, RWNX_CH_NOT_SET, false, false, none, master v⟩
  sta := fun _ => ⟨false, 0, none⟩
  queue := fun _ => ⟨false, false⟩
  curChanctx := 0
  preSwitch := fun _ => false
  leaving := none

end AIC.ChannelQueues
