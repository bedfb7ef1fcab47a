import Aic8800.Lib.GuardedRun
import Aic8800.Lib.Tally
import Mathlib.Data.Fin.Basic
import Mathlib.Data.List.FinRange

/-!
# Channel contexts and the interfaces linked to them

The firmware names a context by its index in `chanctx_table`. An interface that
has one keeps the index, and the context counts these interfaces. Over them run
the handlers that link and unlink, and the channel availability check, whose
interface is shared by the request that starts it, the delayed work and whoever
cancels it.
-/

set_option autoImplicit false

namespace AIC.ChannelContext

def NX_VIRT_DEV_MAX : ℕ := 4
def NX_REMOTE_STA_MAX : ℕ := 32
def NX_CHAN_CTXT_CNT : ℕ := 3
def RWNX_CH_NOT_SET : ℕ := 0xFF

/-- `drv_vif_index`: that of an `AP_VLAN` interface comes after the others. -/
abbrev VifId := Fin (NX_VIRT_DEV_MAX+NX_REMOTE_STA_MAX)

instance : NeZero (NX_VIRT_DEV_MAX+NX_REMOTE_STA_MAX) := ⟨by decide⟩

inductive Iftype where
  | station | p2pClient | p2pDevice | ap | p2pGo | apVlan | meshPoint | monitor
  deriving DecidableEq

/-- `radar`: the flag `IEEE80211_CHAN_RADAR`. -/
structure Channel where
  centerFreq : ℕ
  radar : Bool
  deriving DecidableEq

structure Chandef where
  chan : Option Channel
  width : ℕ
  centerFreq1 : ℕ
  centerFreq2 : ℕ
  deriving DecidableEq

structure Chanctx where
  chanDef : Chandef
  count : ℕ

structure Vif where
  iftype : Iftype
  chIndex : ℕ
  userMpm : Bool

/-- Where `rwnx_radar_cac_work` reads `cac_vif` next. -/
inductive CacPc where
  | test | event | stop | unlink | clear
  deriving DecidableEq

inductive Detect where
  | disable | enable | report
  deriving DecidableEq

/-- Who calls `rwnx_radar_cancel_cac`. -/
inductive Leaver where
  | close | stopAp | leaveMesh
  deriving DecidableEq

/-- The operation that holds `rtnl` and waits: for an answer to the start of a
check, to the monitor configuration or to the stop of a check; or between the
cancel and its own unlink. -/
inductive Rtnl where
  | idle
  | startCac (v : VifId) (chandef : Chandef)
  | monitor (v : VifId)
  | cancel (v : VifId) (l : Leaver)
  | leaving (v : VifId) (l : Leaver)
  deriving DecidableEq

/-- What becomes of a check. `failed` has whether the check is still pending
when the error returns, and `cancelled` who cancels whose check. -/
inductive Event where
  | started (v : VifId)
  | failed (v : VifId) (pending : Bool)
  | finished (v : VifId)
  | aborted (v : VifId)
  | stopReq (v : VifId)
  | unlinked (v : VifId)
  | cancelled (u v : VifId)
  deriving DecidableEq

/-- `timer` and `work` have the interface that armed the timer. `warned` is the
warning in `rwnx_chanctx_unlink`, `oops` a read through a NULL `cac_vif`, and
`outside` the work's use of an entry outside `chanctx_table`. -/
structure Hw where
  vif : VifId → Vif
  chanctxTable : ℕ → Chanctx
  curChanctx : ℕ
  monitorVif : Option VifId
  staValid : ℕ → Bool
  detect : Detect
  cacVif : Option VifId
  timer : Option VifId
  work : Option (VifId × CacPc)
  rtnl : Rtnl
  warned : Bool
  oops : Bool
  outside : Bool
  log : List Event

def noChandef : Chandef := ⟨none, 0, 0, 0⟩

/-- A channel that needs an availability check. -/
def sampleChandef : Chandef := ⟨some ⟨5500, true⟩, 1, 5510, 0⟩

def init (iftype : VifId → Iftype) : Hw where
  vif := fun v => ⟨iftype v, RWNX_CH_NOT_SET, false⟩
  chanctxTable := fun _ => ⟨noChandef, 0⟩
  curChanctx := 0
  monitorVif := none
  staValid := fun _ => false
  detect := .disable
  cacVif := none
  timer := none
  work := none
  rtnl := .idle
  warned := false
  oops := false
  outside := false
  log := []

namespace Chanctx

def linked (ctxt : Chanctx) (chandef : Option Chandef) : Chanctx where
  chanDef := if ctxt.chanDef.chan = none then chandef.getD ctxt.chanDef else ctxt.chanDef
  count := (ctxt.count+1)%2^8

def unlinked (ctxt : Chanctx) : Chanctx where
  chanDef := if ctxt.count-1 = 0 then { ctxt.chanDef with chan := none } else ctxt.chanDef
  count := ctxt.count-1

end Chanctx

namespace Hw
variable (hw : Hw)

def setVif (v : VifId) (x : Vif) : Hw := { hw with vif := Function.update hw.vif v x }

def setChIndex (v : VifId) (i : ℕ) : Hw := hw.setVif v { hw.vif v with chIndex := i }

def setCtxt (i : ℕ) (ctxt : Chanctx) : Hw :=
  { hw with chanctxTable := Function.update hw.chanctxTable i ctxt }

@[simp]
theorem setChIndex_self (v : VifId) (i : ℕ) : ((hw.setChIndex v i).vif v).chIndex = i := by
  simp [setChIndex, setVif]

theorem setChIndex_other {u v : VifId} (h : u ≠ v) (i : ℕ) :
    (hw.setChIndex v i).vif u = hw.vif u := by
  simp [setChIndex, setVif, h]

def note (e : Event) : Hw := { hw with log := e::hw.log }

def rwnxChanctxValid (i : ℕ) : Bool :=
  decide (i < NX_CHAN_CTXT_CNT) && (hw.chanctxTable i).chanDef.chan.isSome

def rwnxChanctxLink (v : VifId) (chIdx : ℕ) (chandef : Option Chandef) : Hw :=
  if NX_CHAN_CTXT_CNT ≤ chIdx then hw
  else (hw.setChIndex v chIdx).setCtxt chIdx ((hw.chanctxTable chIdx).linked chandef)

/-- The radar detection of a context that nobody is linked to any more is switched off. -/
def unlinkFrom (v : VifId) (i : ℕ) : Hw :=
  let ctxt := hw.chanctxTable i
  let t : Hw := { hw with
    warned := hw.warned || decide (ctxt.count = 0)
    detect := if ctxt.count-1 = 0 ∧ i = hw.curChanctx then .disable else hw.detect }
  (t.setCtxt i ctxt.unlinked).setChIndex v RWNX_CH_NOT_SET

def rwnxChanctxUnlink (v : VifId) : Hw :=
  if (hw.vif v).chIndex = RWNX_CH_NOT_SET then hw else hw.unlinkFrom v (hw.vif v).chIndex

def radarDetectionEnableOnCurChannel : Hw :=
  if hw.rwnxChanctxValid hw.curChanctx then
    { hw with
      detect := match (hw.chanctxTable hw.curChanctx).chanDef.chan with
        | some c => if c.radar then .report else .disable
        | none => hw.detect }
  else hw

end Hw

end AIC.ChannelContext
