import Aic8800.ChannelContext
import Aic8800.MeshTables
import Aic8800.TxAggregate
import Aic8800.TxqMachine

/-!
# The indices of the TX queues

The maps from stations and vifs to the entries of `rwnx_hw->txq` and to the queues
of the net devices, for any number of stations and vifs and for both kinds of chips,
with `rwnx_select_txq` and `rwnx_get_tx_priv`, which go from a frame to a queue and
back.
-/

set_option autoImplicit false

namespace AIC.TxqIndex
open AIC.TxqMachine (TxqId HwqId tid2hwq NX_NB_TXQ_PER_STA NX_NB_TID_PER_STA)
open AIC.TxAggregate (ProductId)
open AIC.MeshTables (MacAddr MeshPath MeshProxy)
open AIC.ChannelContext (Iftype)

def NX_NB_TXQ_PER_VIF : ℕ := 2
def NX_BCMC_TXQ_TYPE : ℕ := 0
def NX_UNK_TXQ_TYPE : ℕ := 1
def NDEV_NO_TXQ : ℕ := 0xffff
def PRIO_STA_NULL : ℕ := 0xAA
def ETH_P_TDLS : ℕ := 0x890D
def IEEE80211_NUM_TIDS : ℕ := 16

/-- The sizes that the driver is built with, and the chip. The build stops when the queues of a
net device do not fit below `NDEV_NO_TXQ`. -/
structure Config where
  remoteStaMax : ℕ
  remoteStaMaxForOldIc : ℕ
  virtDevMax : ℕ
  chipid : ProductId
  chipId : ℕ
  oldBelow : remoteStaMaxForOldIc ≤ remoteStaMax
  ndevFits : NX_NB_TID_PER_STA*remoteStaMax+1 < NDEV_NO_TXQ

namespace Config
variable (c : Config)

/-- The test that each of the functions makes. -/
def oldIc : Bool :=
  c.chipid = .aic8801 || (c.chipid = .aic8800DC || c.chipid = .aic8800DW) && c.chipId < 3

/-- `nx_remote_sta_max`. -/
def staMax : ℕ := if c.oldIc then c.remoteStaMaxForOldIc else c.remoteStaMax

def nbTxq : ℕ := NX_NB_TXQ_PER_STA*c.remoteStaMax+NX_NB_TXQ_PER_VIF*c.virtDevMax+1
def nbNdevTxq : ℕ := NX_NB_TID_PER_STA*c.remoteStaMax+1
def firstVifTxqIdx : ℕ := c.staMax*NX_NB_TXQ_PER_STA
def firstUnkTxqIdx : ℕ := c.firstVifTxqIdx+c.virtDevMax
def offChanTxqIdx : ℕ := c.firstVifTxqIdx+c.virtDevMax*NX_NB_TXQ_PER_VIF
def bcmcTxqNdevIdx : ℕ := NX_NB_TID_PER_STA*c.staMax

/-- The queues that `rwnx_interface_add` allocates for a net device. -/
def nxNbNdevTxq : ℕ := NX_NB_TID_PER_STA*c.staMax+1

def isMulticastSta (staIdx : ℕ) : Bool := c.staMax ≤ staIdx

def staNdevIdx (tid staIdx : ℕ) : ℕ := tid+staIdx*NX_NB_TID_PER_STA

end Config

/-- Of `struct rwnx_sta`. -/
structure RwnxSta where
  staIdx : ℕ
  vifIdx : ℕ
  qos : Bool
  acm : BitVec 8
  macAddr : MacAddr

namespace Config
variable (c : Config)

def txqStaIdx (sta : RwnxSta) (tid : ℕ) : ℕ :=
  if c.isMulticastSta sta.staIdx then c.firstVifTxqIdx+sta.vifIdx
  else sta.staIdx*NX_NB_TXQ_PER_STA+tid

def txqVifIdx (masterVifIdx type : ℕ) : ℕ := c.firstVifTxqIdx+masterVifIdx+type*c.virtDevMax

/-- The index of `rwnx_txq_sta_get`, with a `tid` of a u8. -/
def txqStaGet (sta : RwnxSta) (tid : ℕ) : ℕ :=
  c.txqStaIdx sta (if NX_NB_TXQ_PER_STA ≤ tid % 2^8 then 0 else tid % 2^8)

/-- The `ndev_idx` of `rwnx_txq_init`, which looks at the station below the queues of the vifs. -/
def txqInit (idx staIdx : ℕ) : ℕ :=
  if idx < c.firstVifTxqIdx then
    let tid := idx-staIdx*NX_NB_TXQ_PER_STA
    if tid < NX_NB_TID_PER_STA then staNdevIdx tid staIdx else NDEV_NO_TXQ
  else if idx < c.firstUnkTxqIdx then c.bcmcTxqNdevIdx
  else NDEV_NO_TXQ

/-- The stations below the limit and the vifs that are no `AP_VLAN`. -/
def Valid : TxqId → Prop
  | .sta i _ => i < c.staMax
  | .bcmc vif => vif < c.virtDevMax
  | .unk vif => vif < c.virtDevMax
  | .offchan => True

/-- The entry of `rwnx_hw->txq`. -/
def idx : TxqId → ℕ
  | .sta i tid => i*NX_NB_TXQ_PER_STA+tid
  | .bcmc vif => c.txqVifIdx vif NX_BCMC_TXQ_TYPE
  | .unk vif => c.txqVifIdx vif NX_UNK_TXQ_TYPE
  | .offchan => c.offChanTxqIdx

/-- What the entry is initialised with, by `rwnx_txq_sta_init` and the others. -/
def ndevIdx : TxqId → ℕ
  | .sta i tid => c.txqInit (i*NX_NB_TXQ_PER_STA+tid) i
  | .bcmc vif => c.txqInit (c.txqVifIdx vif NX_BCMC_TXQ_TYPE) (c.staMax+vif)
  | .unk vif => c.txqInit (c.txqVifIdx vif NX_UNK_TXQ_TYPE) 0
  | .offchan => c.txqInit c.offChanTxqIdx 0

/-- The `ndev_idx` of all entries, after one of them is initialised. -/
def init (txq : ℕ → ℕ) (k : TxqId) : ℕ → ℕ := Function.update txq (c.idx k) (c.ndevIdx k)

end Config

/-- A txq of a station for a tid that carries data, or the one for group addressed frames. -/
def DataTxq : TxqId → Prop
  | .sta _ tid => tid.val < NX_NB_TID_PER_STA
  | .bcmc _ => True
  | .unk _ => False
  | .offchan => False

/-- What the maps promise. -/
structure Maps (c : Config) : Prop where
  injective : ∀ j k, c.Valid j → c.Valid k → c.idx j = c.idx k → j = k
  bounded : ∀ k, c.Valid k → c.idx k < c.nbTxq
  ndevBounded : ∀ k, c.Valid k → DataTxq k → c.ndevIdx k < c.nbNdevTxq
  ndevDistinct : ∀ i i' (tid tid' : Fin NX_NB_TXQ_PER_STA), i < c.staMax → i' < c.staMax →
    tid.val < NX_NB_TID_PER_STA → tid'.val < NX_NB_TID_PER_STA →
      c.ndevIdx (.sta i tid) = c.ndevIdx (.sta i' tid') → i = i' ∧ tid = tid'

/-! ## From a frame to a queue and back -/

/-- Stations are named by their index in `sta_table`, and the master of an `AP_VLAN` by its index
in the table of the vifs. -/
structure RwnxVif where
  iftype : Iftype
  vifIndex : ℕ
  ap : Option ℕ
  tdlsSta : Option ℕ
  tdlsLinkActive : Bool
  sta4a : Option ℕ
  master : ℕ
  bcmcIndex : ℕ
  staList : List ℕ
  mpathList : List MeshPath
  proxyList : List MeshProxy
  isResending : Bool
  permAddr : MacAddr

/-- `txq` are the `ndev_idx` of the entries. -/
structure RwnxHw where
  staTable : ℕ → RwnxSta
  vifTable : ℕ → RwnxVif
  txq : ℕ → ℕ

/-- An Ethernet frame, with the priority that its sender gave it and the one of
`cfg80211_classify8021d`. -/
structure Skb where
  hDest : MacAddr
  hSource : MacAddr
  hProto : ℕ
  priority : ℕ
  classified : ℕ

/-- Requests of `rwnx_select_txq` to the firmware. -/
inductive MeshReq where
  | proxyAdd (addr : MacAddr)
  | pathCreate (addr : MacAddr)

def isMulticastEtherAddr (addr : MacAddr) : Bool := addr.getLsbD 40

def getMeshProxyInfo (vif : RwnxVif) (addr : MacAddr) (isLocal : Bool) : Option MeshProxy :=
  vif.proxyList.find? fun p => p.isLocal = isLocal && p.extStaAddr = addr

namespace RwnxHw
variable (hw : RwnxHw)

def masterVifIdx (vif : RwnxVif) : ℕ :=
  if vif.iftype = .apVlan then (hw.vifTable vif.master).vifIndex else vif.vifIndex

/-- The station of a station interface: the TDLS peer that the frame is for, or the AP. -/
def peer (vif : RwnxVif) (skb : Skb) : Option ℕ :=
  match vif.tdlsSta with
  | some s => if vif.tdlsLinkActive && (hw.staTable s).macAddr = skb.hDest then some s else vif.ap
  | none => vif.ap

def client (vif : RwnxVif) (skb : Skb) : Option ℕ :=
  if isMulticastEtherAddr skb.hDest then some vif.bcmcIndex
  else vif.staList.find? fun s => (hw.staTable s).macAddr = skb.hDest

/-- The address of the path: the proxy of the destination, or the destination. -/
def meshTarget (vif : RwnxVif) (skb : Skb) : MacAddr :=
  match getMeshProxyInfo vif skb.hDest false with
  | some p => p.proxyAddr.getD 0
  | none => skb.hDest

def meshPath (vif : RwnxVif) (skb : Skb) : Option MeshPath :=
  vif.mpathList.find? fun p => p.tgtMacAddr = meshTarget vif skb

def nextHop (vif : RwnxVif) (skb : Skb) : Option ℕ :=
  if isMulticastEtherAddr skb.hDest then some vif.bcmcIndex
  else (meshPath vif skb).map fun p => p.pNhopSta.toNat

/-- The switch over the type of the interface. -/
def selectSta (vif : RwnxVif) (skb : Skb) : Option ℕ :=
  match vif.iftype with
  | .station => hw.peer vif skb
  | .p2pClient => hw.peer vif skb
  | .apVlan => vif.sta4a.or (hw.client (hw.vifTable vif.master) skb)
  | .ap => hw.client vif skb
  | .p2pGo => hw.client vif skb
  | .meshPoint => nextHop vif skb
  | .p2pDevice => none
  | .monitor => none

/-- What a mesh point asks for on the way. -/
def meshReqs (vif : RwnxVif) (skb : Skb) : List MeshReq :=
  if vif.iftype = .meshPoint then
    (if !vif.isResending && skb.hSource ≠ vif.permAddr &&
        (getMeshProxyInfo vif skb.hSource true).isNone then [.proxyAdd skb.hSource] else [])++
      if !isMulticastEtherAddr skb.hDest && (meshPath vif skb).isNone then
        [.pathCreate (meshTarget vif skb)] else []
  else []

end RwnxHw

/-- `tdls_mgmgt_frame`. -/
def tdlsMgmtFrame (vif : RwnxVif) (skb : Skb) : Bool :=
  (vif.iftype = .station || vif.iftype = .p2pClient) && skb.hProto = ETH_P_TDLS

def ac : HwqId → ℕ
  | .bk => 0
  | .be => 1
  | .vi => 2
  | .vo => 3

/-- `rwnx_down_hwq2tid`. -/
def downHwq2tid : ℕ → ℕ
  | 0 => 2
  | 1 => 3
  | _ => 5

/-- The loop of `rwnx_downgrade_ac`. -/
def downgradeFrom (acm : BitVec 8) : ℕ → ℕ → ℕ
  | 0, priority => if acm.getLsbD 0 then 1 else priority
  | ac+1, priority =>
    if acm.getLsbD (ac+1) then downgradeFrom acm ac (downHwq2tid ac) else priority

/-- No priority where `rwnx_tid2hwq` is read behind its end. -/
def downgradeAc (acm : BitVec 8) (priority : ℕ) : Option ℕ :=
  if IEEE80211_NUM_TIDS ≤ priority then none
  else some (downgradeFrom acm (ac (tid2hwq priority)) priority)

/-- The priority of a frame for a QoS station. -/
def qosPriority (sta : RwnxSta) (vif : RwnxVif) (skb : Skb) : Option ℕ :=
  let priority := if tdlsMgmtFrame vif skb then skb.priority else skb.classified % 8
  if sta.acm = 0 then some priority else downgradeAc sta.acm priority

/-- The queue and the priority of the frame, unless the `BUG_ON` is hit. -/
def selectTxq (c : Config) (hw : RwnxHw) (vif : RwnxVif) (skb : Skb) : Option (ℕ × ℕ) :=
  let chosen := match hw.selectSta vif skb with
    | some s =>
      let sta := hw.staTable s
      if sta.qos then
        (qosPriority sta vif skb).map fun priority => (hw.txq (c.txqStaGet sta priority), priority)
      else some (hw.txq (c.txqStaGet sta 0), 0xFF)
    | none => some (c.bcmcTxqNdevIdx, PRIO_STA_NULL)
  chosen.filter fun q => q.1 < c.nbNdevTxq

/-- The station of a frame with this queue mapping and this priority. -/
def getTxPriv (c : Config) (hw : RwnxHw) (vif : RwnxVif) (ndevIdx priority : ℕ) : Option ℕ :=
  if priority = PRIO_STA_NULL then none
  else if ndevIdx = c.bcmcTxqNdevIdx then some (c.staMax+hw.masterVifIdx vif)
  else some (ndevIdx/NX_NB_TID_PER_STA)

/-- A queue is chosen, and the station is recovered from it. -/
def Recovers (c : Config) (hw : RwnxHw) (vif : RwnxVif) (skb : Skb) : Prop :=
  ∃ q, selectTxq c hw vif skb = some q ∧ getTxPriv c hw vif q.1 q.2 = hw.selectSta vif skb

/-! ## The maps -/

variable {c : Config}

theorem staMax_le (c : Config) : c.staMax ≤ c.remoteStaMax := by
  unfold Config.staMax
  split
  · exact c.oldBelow
  · exact le_rfl

/-- The queue of group addressed frames is one of the netdev's. -/
theorem bcmcTxqNdevIdx_lt (c : Config) : c.bcmcTxqNdevIdx < c.nbNdevTxq := by
  have hle := staMax_le c
  simp only [Config.bcmcTxqNdevIdx, Config.nbNdevTxq, NX_NB_TID_PER_STA]
  omega

theorem idx_inj {j k : TxqId} (hj : c.Valid j) (hk : c.Valid k) (h : c.idx j = c.idx k) :
    j = k := by
  cases j <;> cases k <;>
    simp only [Config.Valid, Config.idx, Config.txqVifIdx, Config.offChanTxqIdx,
      Config.firstVifTxqIdx, NX_NB_TXQ_PER_STA, NX_NB_TXQ_PER_VIF, NX_BCMC_TXQ_TYPE,
      NX_UNK_TXQ_TYPE, TxqId.sta.injEq, TxqId.bcmc.injEq, TxqId.unk.injEq, reduceCtorEq]
      at hj hk h ⊢ <;>
    omega

theorem idx_lt {k : TxqId} (hk : c.Valid k) : c.idx k < c.nbTxq := by
  have hle := staMax_le c
  cases k <;>
    simp only [Config.Valid, Config.idx, Config.txqVifIdx, Config.offChanTxqIdx,
      Config.firstVifTxqIdx, Config.nbTxq, NX_NB_TXQ_PER_STA, NX_NB_TXQ_PER_VIF,
      NX_BCMC_TXQ_TYPE, NX_UNK_TXQ_TYPE] at hk ⊢ <;>
    omega

/-- A station's txq for data has a queue of its own, and the one for management has none. -/
theorem ndevIdx_sta {i : ℕ} {tid : Fin NX_NB_TXQ_PER_STA} (hi : i < c.staMax) :
    c.ndevIdx (.sta i tid) = if tid.val < 8 then tid+i*8 else NDEV_NO_TXQ := by
  have hlow : i*NX_NB_TXQ_PER_STA+tid < c.firstVifTxqIdx := by
    simp only [Config.firstVifTxqIdx, NX_NB_TXQ_PER_STA]
    omega
  show c.txqInit _ _ = _
  rw [Config.txqInit, if_pos hlow, Nat.add_sub_cancel_left]
  rfl

theorem ndevIdx_bcmc {vif : ℕ} (hvif : vif < c.virtDevMax) :
    c.ndevIdx (.bcmc vif) = c.bcmcTxqNdevIdx := by
  have hlow : ¬ c.txqVifIdx vif NX_BCMC_TXQ_TYPE < c.firstVifTxqIdx := by
    unfold Config.txqVifIdx
    omega
  have hup : c.txqVifIdx vif NX_BCMC_TXQ_TYPE < c.firstUnkTxqIdx := by
    unfold Config.txqVifIdx Config.firstUnkTxqIdx NX_BCMC_TXQ_TYPE
    omega
  show c.txqInit _ _ = _
  rw [Config.txqInit, if_neg hlow, if_pos hup]

theorem ndevIdx_lt {k : TxqId} (hk : c.Valid k) (hdata : DataTxq k) :
    c.ndevIdx k < c.nxNbNdevTxq := by
  cases k with
  | sta i tid =>
    have htid : tid.val < 8 := hdata
    have hi : i < c.staMax := hk
    rw [ndevIdx_sta hi, if_pos htid]
    simp only [Config.nxNbNdevTxq, NX_NB_TID_PER_STA]
    omega
  | bcmc vif =>
    rw [ndevIdx_bcmc hk]
    exact Nat.lt_succ_self _
  | unk vif => exact hdata.elim
  | offchan => exact hdata.elim

theorem nxNbNdevTxq_le (c : Config) : c.nxNbNdevTxq ≤ c.nbNdevTxq := by
  have hle := staMax_le c
  simp only [Config.nxNbNdevTxq, Config.nbNdevTxq, NX_NB_TID_PER_STA]
  omega

theorem maps (c : Config) : Maps c where
  injective _ _ := idx_inj
  bounded _ := idx_lt
  ndevBounded _ hk hdata := (ndevIdx_lt hk hdata).trans_le (nxNbNdevTxq_le c)
  ndevDistinct i i' tid tid' hi hi' htid htid' h := by
    have hlow : tid.val < 8 := htid
    have hlow' : tid'.val < 8 := htid'
    rw [ndevIdx_sta hi, ndevIdx_sta hi', if_pos hlow, if_pos hlow'] at h
    exact ⟨by omega, Fin.ext (by omega)⟩

/-- The station of a vif for group addresses has the txq of the vif. -/
theorem txqStaIdx_group {sta : RwnxSta} (hsta : c.staMax ≤ sta.staIdx) (tid : ℕ) :
    c.txqStaIdx sta tid = c.idx (.bcmc sta.vifIdx) := by
  have hgroup : c.isMulticastSta sta.staIdx = true := decide_eq_true hsta
  show c.txqStaIdx sta tid = c.txqVifIdx sta.vifIdx NX_BCMC_TXQ_TYPE
  rw [Config.txqStaIdx, if_pos hgroup, Config.txqVifIdx, NX_BCMC_TXQ_TYPE, Nat.zero_mul,
    Nat.add_zero]

/-- No initialisation of another txq takes an entry its queue away. -/
theorem inits_settled {ks : List TxqId} (h : ∀ k ∈ ks, c.Valid k) (txq : ℕ → ℕ) :
    ∀ k ∈ ks, ks.foldl c.init txq (c.idx k) = c.ndevIdx k := by
  induction ks using List.reverseRecOn with
  | nil => exact fun k hk => absurd hk List.not_mem_nil
  | append_singleton ks j ih =>
    intro k hk
    rw [List.foldl_append, List.foldl_cons, List.foldl_nil]
    show Function.update (ks.foldl c.init txq) (c.idx j) (c.ndevIdx j) (c.idx k) = _
    by_cases hjk : k = j
    · rw [hjk, Function.update_self]
    · have hmem : k ∈ ks := (List.mem_append.mp hk).resolve_right fun hj =>
        hjk (List.mem_singleton.mp hj)
      have hne : c.idx k ≠ c.idx j := fun he => hjk (idx_inj (h k hk) (h j (by simp)) he)
      rw [Function.update_of_ne hne]
      exact ih (fun i hi => h i (List.mem_append_left _ hi)) k hmem

/-! ## Frames -/

/-- A station below the limit, at its index in the table and with its txqs initialised. -/
structure Known (c : Config) (hw : RwnxHw) (s : ℕ) : Prop where
  below : s < c.staMax
  own : (hw.staTable s).staIdx = s
  txqs : ∀ tid, hw.txq (c.idx (.sta s tid)) = c.ndevIdx (.sta s tid)

/-- The station of a vif for group addresses, at the index behind the other stations that the
firmware gives it. -/
structure Group (c : Config) (hw : RwnxHw) (vif : RwnxVif) : Prop where
  index : vif.vifIndex < c.virtDevMax
  bcmc : vif.bcmcIndex = c.staMax+vif.vifIndex
  own : (hw.staTable vif.bcmcIndex).staIdx = vif.bcmcIndex
  of : (hw.staTable vif.bcmcIndex).vifIdx = vif.vifIndex
  txq : hw.txq (c.idx (.bcmc vif.vifIndex)) = c.ndevIdx (.bcmc vif.vifIndex)

/-- The stations that a vif names, and of an `AP_VLAN` those of its master. -/
structure Consistent (c : Config) (hw : RwnxHw) (vif : RwnxVif) : Prop where
  ap : ∀ s ∈ vif.ap, Known c hw s
  tdlsSta : ∀ s ∈ vif.tdlsSta, Known c hw s
  sta4a : ∀ s ∈ vif.sta4a, Known c hw s
  clients : ∀ s ∈ vif.staList, Known c hw s
  hops : ∀ p ∈ vif.mpathList, Known c hw p.pNhopSta.toNat
  group : vif.iftype = .ap ∨ vif.iftype = .p2pGo ∨ vif.iftype = .meshPoint → Group c hw vif
  master : vif.iftype = .apVlan → Group c hw (hw.vifTable vif.master) ∧
    ∀ s ∈ (hw.vifTable vif.master).staList, Known c hw s

/-- The priority that a TDLS frame brings for a QoS station is not the one of frames without a
station, names no txq for management and, where it is looked up, is in the table. -/
def Tagged (hw : RwnxHw) (vif : RwnxVif) (skb : Skb) : Prop :=
  tdlsMgmtFrame vif skb = true → ∀ s ∈ hw.peer vif skb, (hw.staTable s).qos = true →
    ∃ p ∈ qosPriority (hw.staTable s) vif skb, p % 2^8 ≠ 8 ∧ p ≠ PRIO_STA_NULL

variable {hw : RwnxHw} {vif : RwnxVif} {skb : Skb} {s : ℕ}

theorem downgradeFrom_lt (acm : BitVec 8) {n priority : ℕ} (h : priority < 8) :
    downgradeFrom acm n priority < 8 := by
  induction n generalizing priority with
  | zero =>
    unfold downgradeFrom
    split <;> omega
  | succ n ih =>
    unfold downgradeFrom
    split
    · apply ih
      unfold downHwq2tid
      split <;> omega
    · exact h

/-- The priority of any other frame is a tid. -/
theorem plain_priority (sta : RwnxSta) (h : tdlsMgmtFrame vif skb = false) :
    ∃ p ∈ qosPriority sta vif skb, p < 8 := by
  have hclass : skb.classified % 8 < 8 := Nat.mod_lt _ (by decide)
  unfold qosPriority downgradeAc
  simp only [h, Bool.false_eq_true, if_false]
  split
  · exact ⟨_, rfl, hclass⟩
  · rw [if_neg (by unfold IEEE80211_NUM_TIDS; omega)]
    exact ⟨_, rfl, downgradeFrom_lt sta.acm hclass⟩

/-- The queue of a station's txq, by the tid that is asked for. -/
theorem Known.queue (h : Known c hw s) (priority : ℕ) :
    hw.txq (c.txqStaGet (hw.staTable s) priority) =
      if priority % 2^8 = 8 then NDEV_NO_TXQ
      else (if 8 ≤ priority % 2^8 then 0 else priority % 2^8)+s*8 := by
  have hlow : ¬ c.isMulticastSta (hw.staTable s).staIdx = true := by
    rw [h.own]
    exact fun hno => absurd (of_decide_eq_true hno) (not_le.mpr h.below)
  have hget : ∀ tid : Fin NX_NB_TXQ_PER_STA, c.txqStaIdx (hw.staTable s) tid =
      c.idx (.sta s tid) := by
    intro tid
    rw [Config.txqStaIdx, if_neg hlow, h.own]
    rfl
  unfold Config.txqStaGet
  by_cases hbig : NX_NB_TXQ_PER_STA ≤ priority % 2^8
  · have hbig' : 9 ≤ priority % 2^8 := hbig
    rw [if_pos hbig]
    have h0 := h.txqs ⟨0, by decide⟩
    rw [← hget, ndevIdx_sta h.below, if_pos (by decide : (0 : ℕ) < 8)] at h0
    rw [h0, if_neg (by omega), if_pos (by omega)]
  · have hsmall : priority % 2^8 < NX_NB_TXQ_PER_STA := not_le.mp hbig
    have ht := h.txqs ⟨priority % 2^8, hsmall⟩
    have hsmall' : priority % 2^8 < 9 := hsmall
    rw [← hget, ndevIdx_sta h.below] at ht
    rw [if_neg hbig, ht]
    dsimp only
    split_ifs <;> omega

theorem Known.select (h : Known c hw s) (hs : hw.selectSta vif skb = some s) :
    Recovers c hw vif skb ↔ ((hw.staTable s).qos = true →
      ∃ p ∈ qosPriority (hw.staTable s) vif skb, p % 2^8 ≠ 8 ∧ p ≠ PRIO_STA_NULL) := by
  have hle := staMax_le c
  have hbelow := h.below
  have hback : ∀ {tid priority : ℕ}, tid < 8 → priority ≠ PRIO_STA_NULL →
      getTxPriv c hw vif (tid+s*8) priority = some s := by
    intro tid priority htid hprio
    have hno : ¬ tid+s*8 = c.bcmcTxqNdevIdx := by
      simp only [Config.bcmcTxqNdevIdx, NX_NB_TID_PER_STA]
      omega
    have hdiv : (tid+s*8)/NX_NB_TID_PER_STA = s := by
      unfold NX_NB_TID_PER_STA
      omega
    rw [getTxPriv, if_neg hprio, if_neg hno, hdiv]
  have hfits : ∀ {tid : ℕ}, tid < 8 → tid+s*8 < c.nbNdevTxq := by
    intro tid htid
    simp only [Config.nbNdevTxq, NX_NB_TID_PER_STA]
    omega
  have hbig : ¬ NDEV_NO_TXQ < c.nbNdevTxq := not_lt.mpr c.ndevFits.le
  unfold Recovers selectTxq
  rw [hs]
  dsimp only
  by_cases hqos : (hw.staTable s).qos = true
  · rw [if_pos hqos]
    constructor
    · rintro ⟨q, hq, hback'⟩ -
      obtain ⟨hq, hlt⟩ := Option.filter_eq_some_iff.mp hq
      obtain ⟨p, hp, rfl⟩ := Option.map_eq_some_iff.mp hq
      have hlt' : hw.txq (c.txqStaGet (hw.staTable s) p) < c.nbNdevTxq := of_decide_eq_true hlt
      refine ⟨p, hp, ?_, ?_⟩
      · intro h8
        rw [h.queue, if_pos h8] at hlt'
        exact hbig hlt'
      · rintro rfl
        cases hback'
    · intro hp
      obtain ⟨p, hp, h8, hnull⟩ := hp hqos
      have htid : (if 8 ≤ p % 2^8 then 0 else p % 2^8) < 8 := by
        split <;> omega
      refine ⟨(hw.txq (c.txqStaGet (hw.staTable s) p), p), ?_, ?_⟩
      · refine Option.filter_eq_some_iff.mpr ⟨Option.map_eq_some_iff.mpr ⟨p, hp, rfl⟩, ?_⟩
        apply decide_eq_true
        rw [h.queue, if_neg h8]
        exact hfits htid
      · show getTxPriv c hw vif (hw.txq (c.txqStaGet (hw.staTable s) p)) p = some s
        rw [h.queue, if_neg h8]
        exact hback htid hnull
  · rw [if_neg hqos]
    refine iff_of_true ⟨(hw.txq (c.txqStaGet (hw.staTable s) 0), 0xFF), ?_, ?_⟩ fun hno =>
      absurd hno hqos
    · refine Option.filter_eq_some_iff.mpr ⟨rfl, decide_eq_true ?_⟩
      rw [h.queue]
      exact hfits (by decide : (0 : ℕ) < 8)
    · show getTxPriv c hw vif (hw.txq (c.txqStaGet (hw.staTable s) 0)) 0xFF = some s
      rw [h.queue]
      exact hback (by decide : (0 : ℕ) < 8) (by decide)

/-- A frame for group addresses goes to the queue of all vifs, and its vif tells the station. -/
theorem Group.select {w : RwnxVif} (h : Group c hw w) (hw' : hw.masterVifIdx vif = w.vifIndex)
    (htdls : tdlsMgmtFrame vif skb = false) (hs : hw.selectSta vif skb = some w.bcmcIndex) :
    Recovers c hw vif skb := by
  have hqueue : ∀ priority, hw.txq (c.txqStaGet (hw.staTable w.bcmcIndex) priority) =
      c.bcmcTxqNdevIdx := by
    intro priority
    have hgroup : c.staMax ≤ (hw.staTable w.bcmcIndex).staIdx := by
      rw [h.own, h.bcmc]
      exact Nat.le_add_right ..
    rw [Config.txqStaGet, txqStaIdx_group hgroup, h.of, h.txq, ndevIdx_bcmc h.index]
  have hfits := bcmcTxqNdevIdx_lt c
  have hback : ∀ {priority : ℕ}, priority ≠ PRIO_STA_NULL →
      getTxPriv c hw vif c.bcmcTxqNdevIdx priority = some w.bcmcIndex := by
    intro priority hprio
    rw [getTxPriv, if_neg hprio, if_pos rfl, hw', h.bcmc]
  obtain ⟨p, hp, hlt⟩ := plain_priority (hw.staTable w.bcmcIndex) htdls
  unfold Recovers selectTxq
  rw [hs]
  dsimp only
  split
  · refine ⟨(c.bcmcTxqNdevIdx, p), ?_, hback ?_⟩
    · refine Option.filter_eq_some_iff.mpr ⟨Option.map_eq_some_iff.mpr ⟨p, hp, ?_⟩,
        decide_eq_true hfits⟩
      rw [hqueue]
    · unfold PRIO_STA_NULL
      omega
  · refine ⟨(c.bcmcTxqNdevIdx, 0xFF), ?_, hback (by decide : 0xFF ≠ PRIO_STA_NULL)⟩
    rw [hqueue]
    exact Option.filter_eq_some_iff.mpr ⟨rfl, decide_eq_true hfits⟩

/-- A frame without a station is marked as such. -/
theorem recovers_none (hs : hw.selectSta vif skb = none) : Recovers c hw vif skb := by
  have hfits := bcmcTxqNdevIdx_lt c
  unfold Recovers selectTxq
  rw [hs]
  exact ⟨(c.bcmcTxqNdevIdx, PRIO_STA_NULL),
    Option.filter_eq_some_iff.mpr ⟨rfl, decide_eq_true hfits⟩, rfl⟩

theorem Known.plain (h : Known c hw s) (htdls : tdlsMgmtFrame vif skb = false)
    (hs : hw.selectSta vif skb = some s) : Recovers c hw vif skb := by
  obtain ⟨p, hp, hlt⟩ := plain_priority (hw.staTable s) htdls
  refine (h.select hs).mpr fun _ => ⟨p, hp, ?_, ?_⟩
  · omega
  · unfold PRIO_STA_NULL
    omega

theorem client_recovers {w : RwnxVif} (h : Group c hw w) (hlist : ∀ s ∈ w.staList, Known c hw s)
    (hw' : hw.masterVifIdx vif = w.vifIndex) (htdls : tdlsMgmtFrame vif skb = false)
    (hs : hw.selectSta vif skb = hw.client w skb) : Recovers c hw vif skb := by
  unfold RwnxHw.client at hs
  split at hs
  · exact h.select hw' htdls hs
  · cases hfind : w.staList.find? fun s => (hw.staTable s).macAddr = skb.hDest with
    | none => exact recovers_none (hs.trans hfind)
    | some s => exact (hlist s (List.mem_of_find?_eq_some hfind)).plain htdls (hs.trans hfind)

theorem nextHop_recovers (h : Consistent c hw vif) (hmesh : vif.iftype = .meshPoint)
    (htdls : tdlsMgmtFrame vif skb = false)
    (hs : hw.selectSta vif skb = RwnxHw.nextHop vif skb) : Recovers c hw vif skb := by
  unfold RwnxHw.nextHop at hs
  split at hs
  · apply (h.group (.inr (.inr hmesh))).select _ htdls hs
    rw [RwnxHw.masterVifIdx, hmesh, if_neg (by decide)]
  · cases hpath : RwnxHw.meshPath vif skb with
    | none =>
      rw [hpath] at hs
      exact recovers_none hs
    | some p =>
      rw [hpath] at hs
      exact (h.hops p (List.mem_of_find?_eq_some hpath)).plain htdls hs

theorem Consistent.peer (h : Consistent c hw vif) (hs : s ∈ hw.peer vif skb) : Known c hw s := by
  unfold RwnxHw.peer at hs
  split at hs
  · rename_i t ht
    split at hs
    · exact h.tdlsSta s (Option.some.inj hs ▸ ht)
    · exact h.ap s hs
  · exact h.ap s hs

/-- On a station interface all depends on the priority of TDLS frames. -/
theorem peer_recovers_iff (h : Consistent c hw vif)
    (hs : hw.selectSta vif skb = hw.peer vif skb) :
    Recovers c hw vif skb ↔ Tagged hw vif skb := by
  cases hpeer : hw.peer vif skb with
  | none =>
    refine iff_of_true (recovers_none (hs.trans hpeer)) fun _ s hno => ?_
    rw [hpeer] at hno
    cases hno
  | some s =>
    have hknown := h.peer hpeer
    by_cases htdls : tdlsMgmtFrame vif skb = true
    · rw [hknown.select (hs.trans hpeer)]
      constructor
      · intro hq _ t ht
        obtain rfl := Option.some.inj (hpeer.symm.trans ht)
        exact hq
      · exact fun hq => hq htdls s hpeer
    · exact iff_of_true (hknown.plain (Bool.eq_false_iff.mpr htdls) (hs.trans hpeer)) fun hno =>
        absurd hno htdls

theorem recovers_iff (h : Consistent c hw vif) : Recovers c hw vif skb ↔ Tagged hw vif skb := by
  by_cases hsta : vif.iftype = .station ∨ vif.iftype = .p2pClient
  · apply peer_recovers_iff h
    unfold RwnxHw.selectSta
    rcases hsta with hsta | hsta <;> rw [hsta]
  · have htdls : tdlsMgmtFrame vif skb = false := by
      unfold tdlsMgmtFrame
      push Not at hsta
      simp [hsta.1, hsta.2]
    refine iff_of_true ?_ fun hno => absurd (htdls.symm.trans hno) Bool.false_ne_true
    have hown : vif.iftype ≠ .apVlan → hw.masterVifIdx vif = vif.vifIndex := fun hno => if_neg hno
    cases htype : vif.iftype with
    | station => exact absurd (.inl htype) hsta
    | p2pClient => exact absurd (.inr htype) hsta
    | p2pDevice => exact recovers_none (by rw [RwnxHw.selectSta, htype])
    | monitor => exact recovers_none (by rw [RwnxHw.selectSta, htype])
    | ap =>
      exact client_recovers (h.group (.inl htype)) h.clients (hown (by rw [htype]; decide)) htdls
        (by rw [RwnxHw.selectSta, htype])
    | p2pGo =>
      exact client_recovers (h.group (.inr (.inl htype))) h.clients
        (hown (by rw [htype]; decide)) htdls (by rw [RwnxHw.selectSta, htype])
    | meshPoint => exact nextHop_recovers h htype htdls (by rw [RwnxHw.selectSta, htype])
    | apVlan =>
      have hsel : hw.selectSta vif skb =
          vif.sta4a.or (hw.client (hw.vifTable vif.master) skb) := by
        rw [RwnxHw.selectSta, htype]
      cases hsta4a : vif.sta4a with
      | some s =>
        rw [hsta4a, Option.some_or] at hsel
        exact (h.sta4a s hsta4a).plain htdls hsel
      | none =>
        rw [hsta4a, Option.none_or] at hsel
        obtain ⟨hgroup, hclients⟩ := h.master htype
        exact client_recovers hgroup hclients (if_pos htype) htdls hsel

/-- The maps are sound for every size, and a frame finds its station again unless it is a TDLS
frame with a priority that its sender should not have given it. -/
theorem queue_maps_iff (h : Consistent c hw vif) :
    Maps c ∧ Recovers c hw vif skb ↔ Tagged hw vif skb := by
  rw [recovers_iff h]
  exact and_iff_right (maps c)

/-- A chip with all stations, and a station interface whose AP is a QoS station. -/
def sampleConfig : Config where
  remoteStaMax := 32
  remoteStaMaxForOldIc := 10
  virtDevMax := 4
  chipid := .aic8800D80
  chipId := 0
  oldBelow := by decide
  ndevFits := by decide

def sampleHw : RwnxHw where
  staTable := fun s => ⟨s, 0, true, 0, 0x0200000000aa⟩
  vifTable := fun _ => ⟨.ap, 0, none, none, false, none, 0, 32, [], [], [], false, 0⟩
  txq := fun i => sampleConfig.txqInit i (i/NX_NB_TXQ_PER_STA)

def sampleVif : RwnxVif where
  iftype := .station
  vifIndex := 0
  ap := some 3
  tdlsSta := none
  tdlsLinkActive := false
  sta4a := none
  master := 0
  bcmcIndex := 0
  staList := []
  mpathList := []
  proxyList := []
  isResending := false
  permAddr := 0

def tdlsFrame (priority : ℕ) : Skb := ⟨0x0200000000bb, 0x0200000000cc, ETH_P_TDLS, priority, 0⟩

theorem sample_consistent : Consistent sampleConfig sampleHw sampleVif := by
  have hap : Known sampleConfig sampleHw 3 := ⟨by decide, rfl, by decide⟩
  constructor
  · intro s hs
    obtain rfl := Option.some.inj hs
    exact hap
  · exact fun s hs => absurd hs (Option.not_mem_none s)
  · exact fun s hs => absurd hs (Option.not_mem_none s)
  · exact fun s hs => absurd hs List.not_mem_nil
  · exact fun p hp => absurd hp List.not_mem_nil
  · exact fun hno => absurd hno (by decide)
  · exact fun hno => absurd hno (by decide)

/-- With the priority that the driver gives its own setup frames. -/
theorem queue_maps_iff_setup : Maps sampleConfig ∧
    Recovers sampleConfig sampleHw sampleVif (tdlsFrame 2) := by
  refine (queue_maps_iff sample_consistent).mpr fun _ s hs _ => ?_
  obtain rfl := Option.some.inj hs
  exact ⟨2, rfl, by decide, by decide⟩

/-- A TDLS frame with the priority of frames without a station, and one that names the txq for
management. -/
theorem tdls_frame_lost : Consistent sampleConfig sampleHw sampleVif ∧
    ¬ Recovers sampleConfig sampleHw sampleVif (tdlsFrame 170) ∧
    ¬ Recovers sampleConfig sampleHw sampleVif (tdlsFrame 8) := by
  refine ⟨sample_consistent, fun hno => ?_, fun hno => ?_⟩
  · obtain ⟨p, hp, -, hnull⟩ := (recovers_iff sample_consistent).mp hno rfl 3 rfl rfl
    obtain rfl := Option.some.inj hp
    exact hnull rfl
  · obtain ⟨p, hp, h8, -⟩ := (recovers_iff sample_consistent).mp hno rfl 3 rfl rfl
    obtain rfl := Option.some.inj hp
    exact h8 rfl

end AIC.TxqIndex
