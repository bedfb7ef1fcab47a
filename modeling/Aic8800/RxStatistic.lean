import Aic8800.Lib.GuardedRun
import Aic8800.Lib.Histogram
import Mathlib.Data.Fin.Basic

/-!
# The rates a station was received with

`rwnx_rx_statistic` counts each frame in a table with an entry for each rate, which the debugfs file
of the station shows and resets, and which `rwnx_rc_stat_work` makes and frees. The three run in
contexts of their own, and no lock is common to them: each is a sequence of statements between which
the others may run. One station is modelled; nothing here touches the table of another. The A-MPDU
counters of the same function and the saved rates are left out.
-/

set_option autoImplicit false

namespace AIC.RxStatistic
open Lib.GuardedRun Lib.Histogram

def N_CCK : ℕ := 8
def N_OFDM : ℕ := 8
def N_HT : ℕ := 8*2*2*4
def N_VHT : ℕ := 10*4*2*8
def N_HE_SU : ℕ := 12*4*3*8
def N_HE_MU : ℕ := 12*6*3*8

def FORMATMOD_NON_HT : ℕ := 0
def FORMATMOD_NON_HT_DUP_OFDM : ℕ := 1
def FORMATMOD_HT_MF : ℕ := 2
def FORMATMOD_HT_GF : ℕ := 3
def FORMATMOD_VHT : ℕ := 4
def FORMATMOD_HE_SU : ℕ := 5
def FORMATMOD_HE_MU : ℕ := 6

/-! ## The rx vector and its entry -/

structure RxHtVect where
  mcs : Fin 128
  shortGi : Fin 2
  deriving DecidableEq

structure RxVhtVect where
  mcs : Fin 16
  nss : Fin 8
  shortGi : Fin 2
  deriving DecidableEq

structure RxHeVect where
  mcs : Fin 16
  nss : Fin 8
  giType : Fin 4
  ruSize : Fin 8
  deriving DecidableEq

/-- `struct rx_vector_1`. The format tells which of the last three is meant. -/
structure RxVector1 where
  formatMod : Fin 16
  chBw : Fin 8
  preType : Fin 2
  legRate : Fin 16
  ht : RxHtVect
  vht : RxVhtVect
  he : RxHeVect
  deriving DecidableEq

/-- The codes without a rate have -1 there, which is 255 in a `u8`. -/
def legratesLut (code : Fin 16) : ℕ :=
  [0, 1, 2, 3, 255, 255, 255, 255, 10, 8, 6, 4, 11, 9, 7, 5].getD code 0

/-- The index `rwnx_rx_statistic` computes. -/
def rateIdx (v : RxVector1) : ℕ :=
  if FORMATMOD_NON_HT_DUP_OFDM < v.formatMod then
    if v.formatMod = FORMATMOD_HT_MF ∨ v.formatMod = FORMATMOD_HT_GF then
      N_CCK+N_OFDM+v.ht.mcs/8*32+v.ht.mcs%8*4+v.chBw*2+v.ht.shortGi
    else if v.formatMod = FORMATMOD_VHT then
      N_CCK+N_OFDM+N_HT+v.vht.nss*80+v.vht.mcs*8+v.chBw*2+v.vht.shortGi
    else if v.formatMod = FORMATMOD_HE_SU then
      N_CCK+N_OFDM+N_HT+N_VHT+v.he.nss*144+v.he.mcs*12+v.chBw*3+v.he.giType
    else
      N_CCK+N_OFDM+N_HT+N_VHT+N_HE_SU+v.he.nss*216+v.he.mcs*18+v.he.ruSize*3+v.he.giType
  else if legratesLut v.legRate < 4 then legratesLut v.legRate*2+v.preType
  else N_CCK+legratesLut v.legRate-4

/-! ## Entries and their rates -/

/-- `union rwnx_rate_ctrl_info`. -/
structure RateCtrlInfo where
  mcsIndexTx : ℕ
  bwTx : ℕ
  giAndPreTypeTx : ℕ
  formatModTx : ℕ
  deriving DecidableEq

/-- `idx_to_rate_cfg`, with `ru_size`. The nss of `union rwnx_mcs_index` is above the 3 bits of the
mcs for HT, and above 4 bits for the others. -/
def idxToRateCfg (idx : ℕ) : RateCtrlInfo × ℕ :=
  if idx < N_CCK then (⟨idx/2, 0, idx%2*2, FORMATMOD_NON_HT⟩, 0)
  else if idx < N_CCK+N_OFDM then (⟨idx-N_CCK+4, 0, 0, FORMATMOD_NON_HT⟩, 0)
  else if idx < N_CCK+N_OFDM+N_HT then
    let idx := idx-(N_CCK+N_OFDM)
    (⟨idx/32*8+idx%32/4, idx%32%4/2, idx%2, FORMATMOD_HT_MF⟩, 0)
  else if idx < N_CCK+N_OFDM+N_HT+N_VHT then
    let idx := idx-(N_CCK+N_OFDM+N_HT)
    (⟨idx/80*16+idx%80/8, idx%80%8/2, idx%2, FORMATMOD_VHT⟩, 0)
  else if idx < N_CCK+N_OFDM+N_HT+N_VHT+N_HE_SU then
    let idx := idx-(N_CCK+N_OFDM+N_HT+N_VHT)
    (⟨idx/144*16+idx%144/12, idx%144%12/3, idx%3, FORMATMOD_HE_SU⟩, 0)
  else
    let idx := idx-(N_CCK+N_OFDM+N_HT+N_VHT+N_HE_SU)
    (⟨idx/216*16+idx%216/18, 0, idx%3, FORMATMOD_HE_MU⟩, idx%216%18/3)

/-- What `print_rate` is given. -/
structure Rate where
  format : ℕ
  nss : ℕ
  mcs : ℕ
  bw : ℕ
  gi : ℕ
  pre : ℕ
  deriving DecidableEq

/-- `print_rate_from_cfg`. -/
def rateOfCfg (cfg : RateCtrlInfo) (ruSize : ℕ) : Rate :=
  let ft := cfg.formatModTx
  let pre := cfg.giAndPreTypeTx/2
  let gi := cfg.giAndPreTypeTx
  if ft = FORMATMOD_HE_MU then ⟨ft, cfg.mcsIndexTx/16, cfg.mcsIndexTx%16, ruSize, gi, pre⟩
  else if ft = FORMATMOD_HE_SU ∨ ft = FORMATMOD_VHT then
    ⟨ft, cfg.mcsIndexTx/16, cfg.mcsIndexTx%16, cfg.bwTx, gi, pre⟩
  else if FORMATMOD_HT_MF ≤ ft then ⟨ft, cfg.mcsIndexTx/8, cfg.mcsIndexTx%8, cfg.bwTx, gi, pre⟩
  else ⟨ft, 0, cfg.mcsIndexTx, cfg.bwTx, gi, pre⟩

/-- The rate of a frame, as `rwnx_dbgfs_last_rx_read` takes it from the vector. The bandwidth of an
HE frame for one of several users is that of its resource unit. -/
def rateOf (v : RxVector1) : Rate :=
  if FORMATMOD_HE_SU ≤ v.formatMod then
    ⟨v.formatMod, v.he.nss, v.he.mcs,
      if v.formatMod = FORMATMOD_HE_SU then v.chBw else v.he.ruSize, v.he.giType, v.preType⟩
  else if v.formatMod = FORMATMOD_VHT then
    ⟨v.formatMod, v.vht.nss, v.vht.mcs, v.chBw, v.vht.shortGi, v.preType⟩
  else if FORMATMOD_HT_MF ≤ v.formatMod then
    ⟨v.formatMod, (v.ht.mcs : ℕ)/8, (v.ht.mcs : ℕ)%8, v.chBw, v.ht.shortGi, v.preType⟩
  else ⟨v.formatMod, 0, legratesLut v.legRate, v.chBw, 0, v.preType⟩

/-- The line `print_rate` writes: one for each of five formats, of which the first has no guard
interval and no streams. -/
inductive Line where
  | cck (mcs pre : ℕ)
  | ofdm (mcs : ℕ)
  | ht (bw gi mcs : ℕ)
  | vht (bw gi mcs nss : ℕ)
  | he (bw gi mcs nss : ℕ)
  | heMu (ru gi mcs nss : ℕ)
  deriving DecidableEq

/-- `print_rate`. -/
def printRate (r : Rate) : Line :=
  if r.format < FORMATMOD_HT_MF then
    if r.mcs < 4 then .cck r.mcs r.pre else .ofdm (r.mcs-4)
  else if r.format < FORMATMOD_VHT then .ht r.bw r.gi (r.mcs+r.nss*8)
  else if r.format = FORMATMOD_VHT then .vht r.bw r.gi r.mcs r.nss
  else if r.format = FORMATMOD_HE_SU then .he r.bw r.gi r.mcs r.nss
  else .heMu r.bw r.gi r.mcs r.nss

/-- The rate of an entry is that of the frame. -/
def Shows (idx : ℕ) (v : RxVector1) : Prop :=
  printRate (rateOfCfg (idxToRateCfg idx).1 (idxToRateCfg idx).2) = printRate (rateOf v)

instance (idx : ℕ) (v : RxVector1) : Decidable (Shows idx v) :=
  inferInstanceAs (Decidable (_ = _))

/-! ## The table and its three users -/

/-- Adds one to an `int`. -/
def incr (n : ℤ) : ℤ := (n+1).bmod (2^32)

/-- Where `rwnx_rx_statistic` is: with the index of the frame, behind the check of the index, behind
`rate_cnt`, and behind the entry. -/
inductive Rx where
  | idle
  | begun (v : RxVector1) (idx : ℕ)
  | checked (v : RxVector1) (idx : ℕ)
  | tested (v : RxVector1) (idx : ℕ)
  | counted
  deriving DecidableEq

/-- Where `rwnx_dbgfs_last_rx_write` is: behind the `memset`, and behind `cpt`. -/
inductive Reset where
  | idle | cleared | cptCleared
  deriving DecidableEq

/-- Where `rwnx_rc_stat_work` is: behind each of its statements with the table, when it registers
and when it unregisters. -/
inductive Work where
  | idle
  | made (size : ℕ) | sized | cptSet
  | freed | unsized | cptCleared
  deriving DecidableEq

/-- `struct rwnx_rx_rate_stats` and the directory of the station. `oops` says that the table was
accessed outside what is allocated; `entries` are the frames counted so far with their entries. -/
structure State where
  table : Option (List ℤ)
  size : ℕ
  cpt : ℤ
  rateCnt : ℤ
  dir : Bool
  rx : Rx
  reset : Reset
  work : Work
  oops : Bool
  entries : List (RxVector1 × ℕ)

def init : State where
  table := none
  size := 0
  cpt := 0
  rateCnt := 0
  dir := false
  rx := .idle
  reset := .idle
  work := .idle
  oops := false
  entries := []

/-- `ht_on`, `vht_on` and `he_on`. -/
structure ModParams where
  htOn : Bool
  vhtOn : Bool
  heOn : Bool
  deriving DecidableEq

def nbRxRate (p : ModParams) : ℕ :=
  N_CCK+N_OFDM+(if p.htOn then N_HT else 0)+(if p.vhtOn then N_VHT else 0)+
    if p.heOn then N_HE_SU+N_HE_MU else 0

namespace State
variable (s : State)

/-- `rwnx_rx_statistic` up to the index. -/
def beginRx (v : RxVector1) : State :=
  if s.size = 0 then s else { s with rx := .begun v (rateIdx v) }

/-- The next statement of `rwnx_rx_statistic`. -/
def stepRx : Option State :=
  match s.rx with
  | .idle => none
  | .begun v idx => some { s with rx := if idx < s.size then .checked v idx else .idle }
  | .checked v idx =>
    match s.table with
    | none => some { s with oops := true }
    | some table =>
      if h : idx < table.length then
        some { s with
          rateCnt := if table[idx] = 0 then incr s.rateCnt else s.rateCnt
          rx := .tested v idx }
      else some { s with oops := true }
  | .tested v idx =>
    match s.table with
    | none => some { s with oops := true }
    | some table =>
      if h : idx < table.length then
        some { s with
          table := some (table.set idx (incr table[idx]))
          entries := s.entries++[(v, idx)]
          rx := .counted }
      else some { s with oops := true }
  | .counted => some { s with
    cpt := incr s.cpt
    rx := .idle }

/-- The `memset` of `rwnx_dbgfs_last_rx_write`. -/
def beginReset : State :=
  if s.size = 0 then { s with reset := .cleared }
  else
    match s.table with
    | none => { s with oops := true }
    | some table =>
      if s.size ≤ table.length then
        { s with
          table := some (blank s.size++table.drop s.size)
          reset := .cleared }
      else { s with oops := true }

def stepReset : Option State :=
  match s.reset with
  | .idle => none
  | .cleared => some { s with
    cpt := 0
    reset := .cptCleared }
  | .cptCleared => some { s with
    rateCnt := 0
    reset := .idle }

/-- `rwnx_rc_stat_work` for a station without a directory, up to the `kzalloc`. Without the
directory, a file of it or the table nothing else changes. -/
def beginRegister (p : ModParams) (ok : Bool) : State :=
  if ok then
    { s with
      dir := true
      table := some (blank (nbRxRate p))
      work := .made (nbRxRate p) }
  else s

/-- `rwnx_rc_stat_work` for a station with a directory, up to the `kfree`. -/
def beginUnregister : State :=
  { s with
    table := none
    work := .freed }

/-- The next statement of `rwnx_rc_stat_work`. -/
def stepWork : Option State :=
  match s.work with
  | .idle => none
  | .made size => some { s with
    size := size
    work := .sized }
  | .sized => some { s with
    cpt := 0
    work := .cptSet }
  | .cptSet => some { s with
    rateCnt := 0
    work := .idle }
  | .freed => some { s with
    size := 0
    work := .unsized }
  | .unsized => some { s with
    cpt := 0
    work := .cptCleared }
  | .cptCleared => some { s with
    rateCnt := 0
    dir := false
    work := .idle }

end State

inductive Event where
  | rx (v : RxVector1)
  | stepRx
  | reset
  | stepReset
  | register (p : ModParams) (ok : Bool)
  | unregister
  | stepWork

/-- Each of the three is busy with one call at a time. Nothing follows a wrong access. -/
def step (s : State) (e : Event) : Option State :=
  if s.oops then none
  else match e with
  | .rx v => if s.rx = .idle then some (s.beginRx v) else none
  | .stepRx => s.stepRx
  | .reset => if s.reset = .idle then some s.beginReset else none
  | .stepReset => s.stepReset
  | .register p ok =>
    if s.work = .idle ∧ s.dir = false then some (s.beginRegister p ok) else none
  | .unregister => if s.work = .idle ∧ s.dir = true then some s.beginUnregister else none
  | .stepWork => s.stepWork

end AIC.RxStatistic
