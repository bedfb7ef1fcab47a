import Aic8800.Lib.SlotTable
import Aic8800.Lib.GuardedRun
import Mathlib.Data.List.Nodup
import Mathlib.Tactic.Ring

/-!
# The ring of frames to be confirmed

`rwnx_tx_push` enters a frame that needs a confirmation into `tx_host_id`,
`aicwf_sdio_bus_txdata` may drop it, and `aicwf_sdio_host_tx_cfm_handler` takes
the entry that the firmware names. A frame is an allocated skb. The number of
entries made, with each frame the number of its own, and the frames freed and
confirmed are recorded for the statements.
-/

set_option autoImplicit false

namespace AIC.TxConfirmRing
open Lib.GuardedRun Lib.SlotTable

def SDIO_TXDESC_CNT : ℕ := 64

/-- A frame waits on a txq, or the bus layer and the firmware have it, or it is freed. -/
inductive Life where
  | queued | inFlight | freed
  deriving DecidableEq

/-- `mgmt` is `TXU_CNTRL_MGMT` of the flags, `frameCtl` the first byte behind the headroom. -/
structure Frame where
  mgmt : Bool
  frameCtl : UInt8
  ethertype : ℕ
  life : Life
  seq : ℕ
  deriving DecidableEq

def Frame.needCfm (f : Frame) : Bool :=
  (f.mgmt && (f.frameCtl == 0xd0 || f.frameCtl == 0x10 || f.frameCtl == 0x30)) ||
    f.ethertype == 0x8e88 || f.ethertype == 0xb488

/-- `fault` is a NULL or freed skb dereferenced; nothing runs after it. -/
structure Ring where
  txdescFreeIdx : ℕ
  txdescUsedIdx : ℕ
  txHostId : ℕ → Option ℕ
  frames : List Frame
  pushes : ℕ
  freed : List ℕ
  confirmed : List ℕ
  fault : Bool

def init : Ring where
  txdescFreeIdx := 0
  txdescUsedIdx := 0
  txHostId := fun _ => none
  frames := []
  pushes := 0
  freed := []
  confirmed := []
  fault := false

/-- `union rwnx_hw_txstatus`. -/
abbrev Status := BitVec 32

def retryRequired (status : Status) : Bool := status.getLsbD 1
def swRetryRequired (status : Status) : Bool := status.getLsbD 2

namespace Ring

def setFrame (s : Ring) (k : ℕ) (f : Frame) : Ring := { s with frames := s.frames.set k f }

/-- `consume_skb`. -/
def release (s : Ring) (k : ℕ) (f : Frame) : Ring :=
  { s.setFrame k { f with life := .freed } with freed := s.freed++[k] }

def txdescPush (s : Ring) (hostId : ℕ) : Ring :=
  let next := (s.txdescFreeIdx+1) % 2^32
  { s with
    txHostId := Function.update s.txHostId (s.txdescFreeIdx % SDIO_TXDESC_CNT) (some hostId)
    txdescFreeIdx := if next = 0x80000000 then 0 else next
    pushes := s.pushes+1 }

/-- What `aicwf_sdio_bus_txdata` and the thread behind it do with a frame: without a
confirmation to come it is freed once copied, and a frame that is dropped is freed at once. -/
def busTxdata (s : Ring) (k : ℕ) (f : Frame) (dropped : Bool) : Ring :=
  if dropped || !f.needCfm then s.release k f else s.setFrame k { f with life := .inFlight }

def txPush (s : Ring) (k : ℕ) (dropped : Bool) : Option Ring :=
  match s.frames[k]? with
  | none => none
  | some f =>
    if f.life ≠ .queued then none
    else if f.needCfm then some ((s.txdescPush k).busTxdata k { f with seq := s.pushes } dropped)
    else some (s.busTxdata k f dropped)

/-- `rwnx_txdatacfm` for a status other than zero. `active` is whether the txq still is. -/
def txdatacfm (s : Ring) (k : ℕ) (f : Frame) (status : Status) (busDown active : Bool) : Ring :=
  if !busDown && !f.mgmt && active && (retryRequired status || swRetryRequired status) then
    s.setFrame k { f with life := .queued }
  else { s.release k f with confirmed := s.confirmed++[k] }

/-- The entry is reset before it is looked at; the `break` for an empty one is commented out. -/
def txCfmHandler (s : Ring) (usedIdx : ℕ) (status : Status) (busDown active : Bool) : Ring :=
  let i := usedIdx % SDIO_TXDESC_CNT
  match s.txHostId i with
  | none => { s with txdescUsedIdx := usedIdx, fault := true }
  | some k =>
    let t := { s with txHostId := Function.update s.txHostId i none }
    match s.frames[k]? with
    | none => { t with fault := true }
    | some f =>
      if f.life = .freed then { t with fault := true }
      else if status = 0 then { s with txdescUsedIdx := usedIdx }
      else t.txdatacfm k f status busDown active

end Ring

inductive Act where
  | queue (mgmt : Bool) (frameCtl : UInt8) (ethertype : ℕ)
  | push (k : ℕ) (dropped : Bool)
  | confirm (usedIdx : ℕ) (status : Status) (busDown active : Bool)

def step (s : Ring) (a : Act) : Option Ring :=
  if s.fault then none
  else match a with
    | .queue mgmt frameCtl ethertype =>
      some { s with frames := s.frames++[⟨mgmt, frameCtl, ethertype, .queued, 0⟩] }
    | .push k dropped => s.txPush k dropped
    | .confirm usedIdx status busDown active =>
      some (s.txCfmHandler usedIdx status busDown active)

/-! ## The frames and their entries -/

def HasLife (fs : List Frame) (l : Life) (k : ℕ) : Prop := ∃ f, fs[k]? = some f ∧ f.life = l

theorem hasLife_set {fs : List Frame} {k : ℕ} {f : Frame} (hk : fs[k]? = some f) (g : Frame)
    (l : Life) (j : ℕ) :
    HasLife (fs.set k g) l j ↔ (j = k ∧ g.life = l) ∨ (j ≠ k ∧ HasLife fs l j) := by
  have hlt : k < fs.length := (List.getElem?_eq_some_iff.mp hk).choose
  by_cases hj : j = k
  · subst j
    simp [HasLife, List.getElem?_set_self hlt]
  · simp [HasLife, List.getElem?_set_ne (Ne.symm hj), hj]

theorem hasLife_append {fs : List Frame} {g : Frame} {l : Life} (hg : g.life ≠ l) (j : ℕ) :
    HasLife (fs++[g]) l j ↔ HasLife fs l j := by
  rcases Nat.lt_trichotomy j fs.length with hj | rfl | hj
  · simp only [HasLife, List.getElem?_append_left hj]
  · simp [HasLife, hg]
  · have hnone : (fs++[g])[j]? = none := by
      rw [List.getElem?_eq_none]
      simp only [List.length_append, List.length_singleton]
      omega
    simp [HasLife, hnone, List.getElem?_eq_none (Nat.le_of_lt hj)]

/-- What holds when the property of the ring does, and why the next entry is free. -/
structure Sound (s : Ring) : Prop where
  ok : s.fault = false
  entries : Tracks SDIO_TXDESC_CNT s.txHostId (HasLife s.frames .inFlight)
  seqs : ∀ i < SDIO_TXDESC_CNT, ∀ k, s.txHostId i = some k →
    ∃ f, s.frames[k]? = some f ∧ f.seq % SDIO_TXDESC_CNT = i ∧ f.seq < s.pushes
  index : s.txdescFreeIdx = s.pushes % 2^31
  freed : ∀ k, k ∈ s.freed ↔ HasLife s.frames .freed k
  freedOnce : s.freed.Nodup
  confirmed : ∀ k ∈ s.confirmed, k ∈ s.freed
  confirmedOnce : s.confirmed.Nodup

/-- No frame is entered 64 entries after one that is still in flight, none of those that need a
confirmation is dropped, and a confirmation names a frame in flight. -/
def Kept (s : Ring) : Act → Prop
  | .queue _ _ _ => True
  | .push k dropped => ∀ f, s.frames[k]? = some f → f.needCfm = true →
      dropped = false ∧ ∀ g ∈ s.frames, g.life = .inFlight → s.pushes < g.seq+SDIO_TXDESC_CNT
  | .confirm usedIdx _ _ _ => ∃ g ∈ s.frames, g.life = .inFlight ∧
      g.seq % SDIO_TXDESC_CNT = usedIdx % SDIO_TXDESC_CNT

instance (s : Ring) (a : Act) : Decidable (Kept s a) := by
  cases a <;> dsimp only [Kept] <;> infer_instance

/-- The entry of a frame in flight is the one its number names. -/
theorem Sound.entry_of_mem {s : Ring} (h : Sound s) {g : Frame} (hg : g ∈ s.frames)
    (hlife : g.life = .inFlight) :
    ∃ k, s.frames[k]? = some g ∧ s.txHostId (g.seq % SDIO_TXDESC_CNT) = some k := by
  obtain ⟨k, hk⟩ := List.mem_iff_getElem?.mp hg
  obtain ⟨i, hi, hslot⟩ := h.entries.complete k ⟨g, hk, hlife⟩
  obtain ⟨f, hf, hseq, -⟩ := h.seqs i hi k hslot
  obtain rfl := Option.some.inj (hk.symm.trans hf)
  exact ⟨k, hk, by rw [hseq, hslot]⟩

theorem Sound.next_empty {s : Ring} (h : Sound s)
    (hroom : ∀ g ∈ s.frames, g.life = .inFlight → s.pushes < g.seq+SDIO_TXDESC_CNT) :
    s.txHostId (s.txdescFreeIdx % SDIO_TXDESC_CNT) = none := by
  have hi : s.txdescFreeIdx % SDIO_TXDESC_CNT < SDIO_TXDESC_CNT := Nat.mod_lt _ (by decide)
  cases hslot : s.txHostId (s.txdescFreeIdx % SDIO_TXDESC_CNT) with
  | none => rfl
  | some k =>
    obtain ⟨f, hf, hseq, hlt⟩ := h.seqs _ hi k hslot
    obtain ⟨g, hg, hlife⟩ := h.entries.sound _ hi k hslot
    obtain rfl := Option.some.inj (hf.symm.trans hg)
    have hnear := hroom f (List.mem_of_getElem? hf) hlife
    have hfree := h.index
    simp only [SDIO_TXDESC_CNT] at hseq hnear
    omega

/-! ## A step -/

/-- A frame outside the table is freed. -/
theorem Sound.release {s : Ring} (h : Sound s) {k : ℕ} {f : Frame} (hk : s.frames[k]? = some f)
    (hlife : f.life = .queued) : Sound (s.release k f) := by
  have hset := hasLife_set hk { f with life := .freed }
  have hout : ¬ HasLife s.frames .inFlight k := by
    rintro ⟨g, hg, hgl⟩
    rw [← Option.some.inj (hk.symm.trans hg), hlife] at hgl
    cases hgl
  have hnew : k ∉ s.freed := by
    intro hmem
    obtain ⟨g, hg, hgl⟩ := (h.freed k).mp hmem
    rw [← Option.some.inj (hk.symm.trans hg), hlife] at hgl
    cases hgl
  constructor
  · exact h.ok
  · apply h.entries.congr
    intro j
    apply Iff.trans _ (hset .inFlight j).symm
    by_cases hj : j = k
    · subst j
      simp [hout]
    · simp [hj]
  · intro i hi j hj
    have hne : j ≠ k := by
      rintro rfl
      exact hout (h.entries.sound i hi j hj)
    obtain ⟨g, hg, hseq⟩ := h.seqs i hi j hj
    exact ⟨g, by simp only [Ring.release, Ring.setFrame, List.getElem?_set_ne hne.symm, hg], hseq⟩
  · exact h.index
  · intro j
    apply Iff.trans _ (hset .freed j).symm
    simp only [Ring.release, List.mem_append, List.mem_singleton, h.freed j]
    by_cases hj : j = k <;> simp [hj]
  · exact List.nodup_append.mpr ⟨h.freedOnce, List.nodup_singleton k, by
      intro a ha b hb
      rw [List.mem_singleton.mp hb]
      rintro rfl
      exact hnew ha⟩
  · exact fun j hj => List.mem_append_left _ (h.confirmed j hj)
  · exact h.confirmedOnce

/-- A frame that is not freed changes, and is not freed by that. -/
theorem Sound.freed_set {s : Ring} (h : Sound s) {k : ℕ} {f g : Frame} (hk : s.frames[k]? = some f)
    (hf : f.life ≠ .freed) (hg : g.life ≠ .freed) (j : ℕ) :
    j ∈ s.freed ↔ HasLife (s.frames.set k g) .freed j := by
  rw [h.freed j, hasLife_set hk g .freed j]
  by_cases hj : j = k
  · subst j
    simp [HasLife, hk, hf, hg]
  · simp [hj]

/-- A frame in flight is taken out of the table: it is on a txq again. -/
theorem Sound.take {s : Ring} (h : Sound s) {i k : ℕ} {f : Frame} (hi : i < SDIO_TXDESC_CNT)
    (hslot : s.txHostId i = some k) (hk : s.frames[k]? = some f) (hlife : f.life = .inFlight) :
    Sound ({ s with txHostId := Function.update s.txHostId i none }.setFrame k
      { f with life := .queued }) := by
  have hset := hasLife_set hk { f with life := .queued }
  constructor
  · exact h.ok
  · apply (h.entries.take hi hslot).congr
    intro j
    apply Iff.trans _ (hset .inFlight j).symm
    by_cases hj : j = k <;> simp [hj]
  · intro j hj a ha
    have hji : j ≠ i := by
      rintro rfl
      simp [Ring.setFrame] at ha
    have hold : s.txHostId j = some a := by
      simpa [Ring.setFrame, Function.update_of_ne hji] using ha
    have hne : a ≠ k := by
      rintro rfl
      exact hji (h.entries.single j hj i hi a hold hslot)
    obtain ⟨g, hg, hseq⟩ := h.seqs j hj a hold
    exact ⟨g, by simp only [Ring.setFrame, List.getElem?_set_ne hne.symm, hg], hseq⟩
  · exact h.index
  · exact h.freed_set hk (by simp [hlife]) (by simp)
  · exact h.freedOnce
  · exact h.confirmed
  · exact h.confirmedOnce

/-- A queued frame is entered into the next slot and is in flight. -/
theorem Sound.put {s : Ring} (h : Sound s) {k : ℕ} {f : Frame} (hk : s.frames[k]? = some f)
    (hlife : f.life = .queued)
    (hempty : s.txHostId (s.txdescFreeIdx % SDIO_TXDESC_CNT) = none) :
    Sound ((s.txdescPush k).setFrame k ⟨f.mgmt, f.frameCtl, f.ethertype, .inFlight, s.pushes⟩) := by
  have hset := hasLife_set hk ⟨f.mgmt, f.frameCtl, f.ethertype, .inFlight, s.pushes⟩
  have hi : s.txdescFreeIdx % SDIO_TXDESC_CNT < SDIO_TXDESC_CNT := Nat.mod_lt _ (by decide)
  have hlt : k < s.frames.length := (List.getElem?_eq_some_iff.mp hk).choose
  have hout : ¬ HasLife s.frames .inFlight k := by
    rintro ⟨g, hg, hgl⟩
    rw [← Option.some.inj (hk.symm.trans hg), hlife] at hgl
    cases hgl
  have hfree := h.index
  constructor
  · exact h.ok
  · apply (h.entries.put hi hempty hout).congr
    intro j
    apply Iff.trans _ (hset .inFlight j).symm
    by_cases hj : j = k <;> simp [hj]
  · intro j hj a ha
    by_cases hji : j = s.txdescFreeIdx % SDIO_TXDESC_CNT
    · subst j
      have hak : k = a := by simpa [Ring.setFrame, Ring.txdescPush] using ha
      subst a
      have hget : (s.frames.set k ⟨f.mgmt, f.frameCtl, f.ethertype, .inFlight, s.pushes⟩)[k]? =
          some ⟨f.mgmt, f.frameCtl, f.ethertype, .inFlight, s.pushes⟩ :=
        List.getElem?_set_self hlt
      exact ⟨_, hget, by simp only [SDIO_TXDESC_CNT]; omega, Nat.lt_succ_self _⟩
    · have hold : s.txHostId j = some a := by
        simpa [Ring.setFrame, Ring.txdescPush, Function.update_of_ne hji] using ha
      have hne : a ≠ k := by
        rintro rfl
        exact hout (h.entries.sound j hj a hold)
      obtain ⟨g, hg, hseq, hlast⟩ := h.seqs j hj a hold
      have hget : (s.frames.set k ⟨f.mgmt, f.frameCtl, f.ethertype, .inFlight, s.pushes⟩)[a]? =
          some g := by rw [List.getElem?_set_ne hne.symm, hg]
      exact ⟨g, hget, hseq, Nat.lt_succ_of_lt hlast⟩
  · show (if (s.txdescFreeIdx+1) % 2^32 = 0x80000000 then 0 else (s.txdescFreeIdx+1) % 2^32) =
      (s.pushes+1) % 2^31
    split_ifs <;> omega
  · exact h.freed_set hk (by simp [hlife]) (by simp)
  · exact h.freedOnce
  · exact h.confirmed
  · exact h.confirmedOnce

theorem push_sound {s t : Ring} {k : ℕ} {dropped : Bool} (h : Sound s)
    (hkept : Kept s (.push k dropped)) (ht : s.txPush k dropped = some t) : Sound t := by
  cases hk : s.frames[k]? with
  | none => simp [Ring.txPush, hk] at ht
  | some f =>
    by_cases hlife : f.life = .queued
    · cases hcfm : f.needCfm with
      | false =>
        simp only [Ring.txPush, hk, hlife, ne_eq, not_true, if_false, hcfm, Bool.false_eq_true,
          Ring.busTxdata, Bool.not_false, Bool.or_true, if_true] at ht
        rw [← Option.some.inj ht]
        exact h.release hk hlife
      | true =>
        obtain ⟨rfl, hroom⟩ := hkept f hk hcfm
        have hbus : (s.txdescPush k).busTxdata k { f with seq := s.pushes } false =
            (s.txdescPush k).setFrame k
              ⟨f.mgmt, f.frameCtl, f.ethertype, .inFlight, s.pushes⟩ := by
          have hcfm' : { f with seq := s.pushes }.needCfm = true := hcfm
          simp only [Ring.busTxdata, hcfm', Bool.not_true, Bool.or_false, Bool.false_eq_true,
            if_false]
        have hgo : ¬ f.life ≠ .queued := not_not.mpr hlife
        simp only [Ring.txPush, hk, if_neg hgo, hcfm, if_true, hbus] at ht
        rw [← Option.some.inj ht]
        exact h.put hk hlife (h.next_empty hroom)
    · simp [Ring.txPush, hk, hlife] at ht

theorem confirm_sound {s : Ring} {usedIdx : ℕ} {status : Status} {busDown active : Bool}
    (h : Sound s) (hkept : Kept s (.confirm usedIdx status busDown active)) :
    Sound (s.txCfmHandler usedIdx status busDown active) := by
  obtain ⟨g, hg, hlife, hnumber⟩ := hkept
  obtain ⟨k, hk, hslot⟩ := h.entry_of_mem hg hlife
  rw [hnumber] at hslot
  have hi : usedIdx % SDIO_TXDESC_CNT < SDIO_TXDESC_CNT := Nat.mod_lt _ (by decide)
  have hlt : k < s.frames.length := (List.getElem?_eq_some_iff.mp hk).choose
  have hlive : g.life ≠ .freed := by simp [hlife]
  simp only [Ring.txCfmHandler, hslot, hk, if_neg hlive]
  by_cases hstatus : status = 0
  · rw [if_pos hstatus]
    exact ⟨h.ok, h.entries, h.seqs, h.index, h.freed, h.freedOnce, h.confirmed, h.confirmedOnce⟩
  · rw [if_neg hstatus]
    have htaken := h.take hi hslot hk hlife
    unfold Ring.txdatacfm
    split_ifs
    · exact htaken
    · -- freeing it is taking it out and freeing what is then no longer entered
      have hqueued : ({ s with
          txHostId := Function.update s.txHostId (usedIdx % SDIO_TXDESC_CNT) none }.setFrame k
          { g with life := .queued }).frames[k]? = some { g with life := .queued } :=
        List.getElem?_set_self hlt
      have hfreed := htaken.release hqueued rfl
      simp only [Ring.release, Ring.setFrame, List.set_set] at hfreed
      have hnew : k ∉ s.confirmed := by
        intro hmem
        obtain ⟨f, hf, hfl⟩ := (h.freed k).mp (h.confirmed k hmem)
        rw [← Option.some.inj (hk.symm.trans hf), hlife] at hfl
        cases hfl
      refine ⟨hfreed.ok, hfreed.entries, hfreed.seqs, hfreed.index, hfreed.freed,
        hfreed.freedOnce, ?_, ?_⟩
      · intro j hj
        rcases List.mem_append.mp hj with hj | hj
        · exact List.mem_append_left _ (h.confirmed j hj)
        · exact List.mem_append_right _ hj
      · exact List.nodup_append.mpr ⟨h.confirmedOnce, List.nodup_singleton k, by
          intro a ha b hb
          rw [List.mem_singleton.mp hb]
          rintro rfl
          exact hnew ha⟩

theorem queue_sound {s : Ring} (h : Sound s) (mgmt : Bool) (frameCtl : UInt8) (ethertype : ℕ) :
    Sound { s with frames := s.frames++[⟨mgmt, frameCtl, ethertype, .queued, 0⟩] } := by
  constructor
  · exact h.ok
  · apply h.entries.congr
    exact fun j => (hasLife_append (by simp) j).symm
  · intro i hi k hk
    obtain ⟨f, hf, hseq⟩ := h.seqs i hi k hk
    have hlt : k < s.frames.length := (List.getElem?_eq_some_iff.mp hf).choose
    exact ⟨f, by rw [List.getElem?_append_left hlt, hf], hseq⟩
  · exact h.index
  · exact fun j => (h.freed j).trans (hasLife_append (by simp) j).symm
  · exact h.freedOnce
  · exact h.confirmed
  · exact h.confirmedOnce

theorem step_sound {s t : Ring} {a : Act} (h : Sound s) (hkept : Kept s a)
    (ht : step s a = some t) : Sound t := by
  have hok : ¬ s.fault = true := by simp [h.ok]
  simp only [step, if_neg hok] at ht
  cases a with
  | queue mgmt frameCtl ethertype =>
    rw [← Option.some.inj ht]
    exact queue_sound h mgmt frameCtl ethertype
  | push k dropped => exact push_sound h hkept ht
  | confirm usedIdx status busDown active =>
    rw [← Option.some.inj ht]
    exact confirm_sound h hkept

theorem init_sound : Sound init := by
  constructor
  · rfl
  · exact tracks_empty.congr fun j => by simp [HasLife, init]
  · exact fun _ _ _ h => (Option.some_ne_none _ h.symm).elim
  · rfl
  · exact fun j => by simp [HasLife, init]
  · exact List.nodup_nil
  · exact fun _ h => absurd h List.not_mem_nil
  · exact List.nodup_nil

/-! ## Runs -/

/-- Nothing empty or freed was dereferenced, the entries are the frames in flight, each once (so
that none was overwritten), and a confirmed frame was freed once. -/
structure Confirming (s : Ring) : Prop where
  ok : s.fault = false
  entries : Tracks SDIO_TXDESC_CNT s.txHostId (HasLife s.frames .inFlight)
  freedOnce : s.freed.Nodup
  confirmed : ∀ k ∈ s.confirmed, k ∈ s.freed
  confirmedOnce : s.confirmed.Nodup

theorem run_confirming {as : List Act} {s : Ring} (hm : Meets step Kept init as)
    (h : exec step init as = some s) : Confirming s := by
  have hnext : ∀ s a t, Kept s a → step s a = some t → Sound s → Sound t :=
    fun s a t hkept ht hs => step_sound hs hkept ht
  have hs := exec_invariant hnext init_sound hm h
  exact ⟨hs.ok, hs.entries, hs.freedOnce, hs.confirmed, hs.confirmedOnce⟩

/-- A frame is pushed, to be retried, pushed again and confirmed. -/
def retriedRun : List Act :=
  [.queue false 0x88 0x8e88, .push 0 false, .confirm 0 4 false true, .push 0 false,
    .queue true 0xd0 0, .push 1 false, .confirm 1 9 false true]

theorem run_confirming_retried : ∃ s, exec step init retriedRun = some s ∧ s.confirmed = [0] ∧
    Confirming s := by
  have hrun : exec step init retriedRun =
      some ((exec step init retriedRun).get (by decide +kernel)) := (Option.some_get _).symm
  exact ⟨_, hrun, by decide +kernel, run_confirming (by decide +kernel) hrun⟩

/-- A confirmation that was never asked for; a frame that is dropped; a 65th frame while none of
the others is confirmed. -/
theorem empty_entry_dropped_overwritten :
    (∃ s, exec step init [.confirm 0 1 false true] = some s ∧ ¬ Confirming s) ∧
    (∃ s, exec step init [.queue false 0x88 0x8e88, .push 0 true] = some s ∧ ¬ Confirming s) ∧
    ∃ s, exec step init ((List.range 65).flatMap fun k =>
      [.queue false 0x88 0x8e88, .push k false]) = some s ∧ ¬ Confirming s := by
  refine ⟨⟨_, rfl, fun h => absurd h.ok (by decide)⟩, ⟨_, rfl, ?_⟩, ?_⟩
  · intro h
    obtain ⟨f, hf, hlife⟩ := h.entries.sound 0 (by decide) 0 rfl
    obtain rfl := Option.some.inj hf
    cases hlife
  · have hrun : exec step init ((List.range 65).flatMap fun k =>
        [.queue false 0x88 0x8e88, .push k false]) =
        some ((exec step init ((List.range 65).flatMap fun k =>
          [.queue false 0x88 0x8e88, .push k false])).get (by decide +kernel)) :=
      (Option.some_get _).symm
    refine ⟨_, hrun, ?_⟩
    intro h
    obtain ⟨i, hi, hslot⟩ := h.entries.complete 0 ⟨⟨false, 0x88, 0x8e88, .inFlight, 0⟩,
      by decide +kernel, rfl⟩
    have hnone : ∀ i < SDIO_TXDESC_CNT, ((exec step init ((List.range 65).flatMap fun k =>
      [.queue false 0x88 0x8e88, .push k false])).get (by decide +kernel)).txHostId i ≠ some 0 := by
      decide +kernel
    exact hnone i hi hslot

end AIC.TxConfirmRing
