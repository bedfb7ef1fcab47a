import Aic8800.InterfaceTable
import Aic8800.Lib.GuardedRun
import Aic8800.Lib.Tally

/-!
# Flag, counter and table

An interface is brought up or down by three assignments, and an operation may
return an error between two of them or after all three. Where that does not
happen, and the firmware gives out free indexes, flag, counter and table agree.
-/

set_option autoImplicit false

namespace AIC.InterfaceConsistency
open AIC.ChannelContext (VifId Iftype)
open AIC.InterfaceTable Lib.GuardedRun Lib.Tally

/-- The length of `vif_table`. -/
def vifTableLen : ℕ := ChannelContext.NX_VIRT_DEV_MAX+ChannelContext.NX_REMOTE_STA_MAX

def vifs : List VifId := List.finRange _

/-- The interfaces with `up` set. -/
def ups (s : State) : ℕ := tally Vif.up (fun _ => 1) vifs s.vif true

structure Agrees (s : State) : Prop where
  started : s.vifStarted = ups s
  entry : ∀ i v, s.vifTable i = some v ↔ (s.vif v).up = true ∧ (s.vif v).vifIndex = i
  inside : ∀ v, (s.vif v).up = true → (s.vif v).vifIndex < vifTableLen

structure Consistent (m : Machine) : Prop where
  agrees : Agrees m.now
  /-- A failed operation changes neither the counter nor another interface's entries. -/
  failed : m.ret ≠ 0 → m.now.vifStarted = m.before.vifStarted ∧
    ∀ i v, m.who ≠ some v → (m.now.vifTable i = some v ↔ m.before.vifTable i = some v)

/-! ## The condition -/

def Free (s : State) (i : ℕ) : Prop := i < vifTableLen ∧ s.vifTable i = none

/-- The index that comes with a status of 0. -/
def inst : AddIf → Option ℕ
  | some (0, i) => some i
  | _ => none

def Opens (s : State) (v : VifId) (i : ℕ) : Prop := (s.vif v).up = false ∧ Free s i

/-- The open of `v` finds the P2P device down. -/
def BringsP2p (s : State) (v : VifId) : Prop :=
  s.isP2p v = true ∧ s.isP2pAlive = false ∧ ∃ d ∈ s.p2pDevVif, (s.vif d).up = false

def OpenOk (s : State) (v : VifId) (o : OpenReply) : Prop :=
  s.vifStarted = 0 ∧ o.start = true ∨
    ((s.vif v).iftype = .apVlan → Opens s v v) ∧
    ((s.vif v).iftype = .monitor → o.monitor = false) ∧
    ((s.vif v).iftype ≠ .apVlan → ¬ BringsP2p s v → ∀ j ∈ inst o.add, Opens s v j) ∧
    (BringsP2p s v → ∀ i ∈ inst o.p2p, Free s i ∧ ∃ j ∈ inst o.add, Opens s v j ∧ j ≠ i)

def ChangeOk (s : State) (v : VifId) (cancel remove : Bool) (add : AddIf) : Prop :=
  (s.vif v).up = true → ¬ (s.scanRequest = some v ∧ cancel = true) → remove = false →
    ∃ i ∈ inst add, i < vifTableLen ∧ (s.vifTable i = none ∨ i = (s.vif v).vifIndex)

/-- The operation finds the P2P device `v` down. -/
def Down (s : State) (v : VifId) : Prop := s.p2pDevVif = some v ∧ (s.vif v).up = false

def Completes (m : Machine) : Act → Prop
  | .openVif v o => OpenOk m.now v o
  | .changeIface v type cancel remove add => type ≠ .apVlan → ChangeOk m.now v cancel remove add
  | .scan v req wildcard add ie =>
    req = false → wildcard = true → Down m.now v → ∀ i ∈ inst add, Free m.now i ∧ ie = false
  | .remainOnChannel v busy add elem roc =>
    busy = false → Down m.now v → m.now.isP2pAlive = false →
      ∀ i ∈ inst add, Free m.now i ∧ elem = false ∧ roc = some 0
  | _ => True

instance (s : State) (i : ℕ) : Decidable (Free s i) := inferInstanceAs (Decidable (_ ∧ _))

instance (s : State) (v : VifId) (i : ℕ) : Decidable (Opens s v i) :=
  inferInstanceAs (Decidable (_ ∧ _))

instance (s : State) (v : VifId) : Decidable (BringsP2p s v) :=
  inferInstanceAs (Decidable (_ ∧ _ ∧ ∃ d ∈ s.p2pDevVif, (s.vif d).up = false))

instance (s : State) (v : VifId) : Decidable (Down s v) := inferInstanceAs (Decidable (_ ∧ _))

instance (s : State) (v : VifId) (o : OpenReply) : Decidable (OpenOk s v o) := by
  unfold OpenOk
  infer_instance

instance (s : State) (v : VifId) (cancel remove : Bool) (add : AddIf) :
    Decidable (ChangeOk s v cancel remove add) := by
  unfold ChangeOk
  infer_instance

instance (m : Machine) (a : Act) : Decidable (Completes m a) := by
  cases a <;> dsimp only [Completes] <;> infer_instance

/-! ## Up and down -/

section Agrees
variable {s t : State} {u v : VifId} {i : ℕ}

theorem ups_setVif (s : State) (v : VifId) (x : Vif) :
    ups (s.setVif v x)+(if (s.vif v).up = true then 1 else 0) =
      ups s+(if x.up = true then 1 else 0) :=
  tally_put (List.nodup_finRange _) (List.mem_finRange v)

theorem ups_le (s : State) : ups s ≤ 36 := by
  have h : ups s ≤ vifs.length*1 := tally_le fun _ _ => Nat.le_refl 1
  rwa [vifs, List.length_finRange] at h

/-- Nothing that counts has changed. -/
theorem Agrees.still (h : Agrees s) (hup : ∀ v, (t.vif v).up = (s.vif v).up)
    (hindex : ∀ v, (t.vif v).vifIndex = (s.vif v).vifIndex) (htable : t.vifTable = s.vifTable)
    (hstarted : t.vifStarted = s.vifStarted) : Agrees t where
  started := by
    have hups : ups t = ups s := tally_congr fun v _ => by simp only [share, hup]
    rw [hstarted, hups, h.started]
  entry i v := by rw [htable, hup, hindex, h.entry]
  inside v hv := by
    rw [hindex]
    exact h.inside v (hup v ▸ hv)

theorem bringUp_agrees (h : Agrees s) (hv : (s.vif v).up = false) (hi : Free s i) :
    Agrees (s.bringUp v i) := by
  have hups : ups (s.bringUp v i) = ups s+1 := by
    have hsum := ups_setVif s v { s.vif v with up := true, vifIndex := i }
    rw [show ups (s.bringUp v i) = ups (s.setVif v _) from rfl]
    simpa [hv] using hsum
  have hle := ups_le s
  constructor
  · rw [hups, State.bringUp, h.started]
    exact Nat.mod_eq_of_lt (by omega)
  · intro j u
    by_cases huv : u = v
    · subst huv
      by_cases hji : j = i
      · simp [State.bringUp, State.setTable, State.setVif, hji]
      · have hno : ¬ s.vifTable j = some u := by simp [h.entry, hv]
        simp [State.bringUp, State.setTable, State.setVif, hji, Ne.symm hji, hno]
    · by_cases hji : j = i
      · have hno : ¬ ((s.vif u).up = true ∧ (s.vif u).vifIndex = i) := by
          rw [← h.entry, hi.2]
          simp
        simp [State.bringUp, State.setTable, State.setVif, hji, huv, Ne.symm huv, hno]
      · simp [State.bringUp, State.setTable, State.setVif, hji, huv, h.entry]
  · intro u hu
    by_cases huv : u = v
    · subst huv
      simpa [State.bringUp, State.setTable, State.setVif] using hi.1
    · simp only [State.bringUp, State.setTable, State.setVif, Function.update_of_ne huv] at hu ⊢
      exact h.inside u hu

theorem bringDown_agrees (h : Agrees s) (hv : (s.vif v).up = true) : Agrees (s.bringDown v) := by
  have hups : ups (s.bringDown v)+1 = ups s := by
    have hsum := ups_setVif s v { s.vif v with up := false }
    rw [show ups (s.bringDown v) = ups (s.setVif v _) from rfl]
    simpa [hv] using hsum
  have hle := ups_le s
  have hentry : s.vifTable (s.vif v).vifIndex = some v := (h.entry _ _).mpr ⟨hv, rfl⟩
  constructor
  · rw [show (s.bringDown v).vifStarted = (s.vifStarted+2^8-1)%2^8 from rfl, h.started]
    omega
  · intro j u
    by_cases hj : j = (s.vif v).vifIndex
    · have hno : u ≠ v → ¬ ((s.vif u).up = true ∧ (s.vif u).vifIndex = (s.vif v).vifIndex) := by
        intro huv hu
        rw [← h.entry, hentry] at hu
        exact huv (Option.some.inj hu).symm
      by_cases huv : u = v
      · simp [State.bringDown, State.setTable, State.setVif, hj, huv]
      · simpa [State.bringDown, State.setTable, State.setVif, hj, huv] using hno huv
    · by_cases huv : u = v
      · have hno : ¬ s.vifTable j = some v := by
          rw [h.entry]
          exact fun hu => hj hu.2.symm
        simp [State.bringDown, State.setTable, State.setVif, hj, huv, hno]
      · simp [State.bringDown, State.setTable, State.setVif, hj, huv, h.entry]
  · intro u hu
    by_cases huv : u = v
    · subst huv
      simp [State.bringDown, State.setTable, State.setVif] at hu
    · simp only [State.bringDown, State.setTable, State.setVif, Function.update_of_ne huv] at hu ⊢
      exact h.inside u hu

/-- The entry moves to another index. -/
theorem reindex_agrees (h : Agrees s) (hv : (s.vif v).up = true) (hi : i < vifTableLen)
    (hfree : s.vifTable i = none ∨ i = (s.vif v).vifIndex) : Agrees (s.reindex v i) := by
  have hentry : s.vifTable (s.vif v).vifIndex = some v := (h.entry _ _).mpr ⟨hv, rfl⟩
  constructor
  · have hsum := ups_setVif s v { s.vif v with vifIndex := i }
    rw [show ups (s.reindex v i) = ups (s.setVif v _) from rfl]
    simp only [Nat.add_right_cancel_iff] at hsum
    rw [hsum]
    exact h.started
  · intro j u
    by_cases huv : u = v
    · subst huv
      by_cases hji : j = i
      · simp [State.reindex, State.clearEntry, State.setTable, State.setVif, hji, hv]
      · have hno : Function.update s.vifTable (s.vif u).vifIndex none j ≠ some u := by
          by_cases hj : j = (s.vif u).vifIndex
          · simp [hj]
          · rw [Function.update_of_ne hj, Ne, h.entry]
            exact fun hu => hj hu.2.symm
        simp [State.reindex, State.clearEntry, State.setTable, State.setVif, hji, Ne.symm hji, hno]
    · have hno : (s.vif u).up = true → (s.vif u).vifIndex ≠ (s.vif v).vifIndex := by
        intro hu hsame
        have hother := (h.entry _ u).mpr ⟨hu, hsame⟩
        rw [hentry] at hother
        exact huv (Option.some.inj hother).symm
      by_cases hji : j = i
      · have hnot : ¬ ((s.vif u).up = true ∧ (s.vif u).vifIndex = i) := by
          rintro ⟨hu, hsame⟩
          rcases hfree with hnone | heq
          · rw [(h.entry i u).mpr ⟨hu, hsame⟩] at hnone
            cases hnone
          · exact hno hu (hsame.trans heq)
        simp [State.reindex, State.clearEntry, State.setTable, State.setVif, hji, huv, Ne.symm huv,
          hnot]
      · by_cases hj : j = (s.vif v).vifIndex
        · subst hj
          simpa [State.reindex, State.clearEntry, State.setTable, State.setVif, hji, huv] using hno
        · simp [State.reindex, State.clearEntry, State.setTable, State.setVif, hji, hj, huv, h.entry]
  · intro u hu
    by_cases huv : u = v
    · subst huv
      simpa [State.reindex, State.clearEntry, State.setTable, State.setVif] using hi
    · simp only [State.reindex, State.clearEntry, State.setTable, State.setVif,
        Function.update_of_ne huv] at hu ⊢
      exact h.inside u hu

end Agrees

/-! ## Operations -/

/-- The P2P device is not opened by the network core, and what is opened is up. -/
structure Fit (s : State) : Prop where
  agrees : Agrees s
  dev : ∀ d ∈ s.p2pDevVif, (s.vif d).iftype = .p2pDevice ∧ (s.vif d).running = false
  opened : ∀ v, (s.vif v).running = true → (s.vif v).up = true

def Untouched (s t : State) (who : Option VifId) : Prop :=
  t.vifStarted = s.vifStarted ∧
    ∀ i v, who ≠ some v → (t.vifTable i = some v ↔ s.vifTable i = some v)

/-- What an operation leaves and returns. -/
structure Done (s : State) (who : Option VifId) (r : ℤ × State) : Prop where
  fit : Fit r.2
  failed : r.1 ≠ 0 → Untouched s r.2 who

section Operations
variable {s t : State} {u v : VifId} {i : ℕ} {who : Option VifId}

theorem Fit.done (h : Fit s) (e : ℤ) : Done s who (e, s) :=
  ⟨h, fun _ => ⟨rfl, fun _ _ _ => Iff.rfl⟩⟩

theorem Fit.ok (h : Fit t) : Done s who (0, t) := ⟨h, fun hne => absurd rfl hne⟩

theorem Fit.still (h : Fit s) (hvif : t.vif = s.vif) (htable : t.vifTable = s.vifTable)
    (hstarted : t.vifStarted = s.vifStarted) (hdev : t.p2pDevVif = s.p2pDevVif) : Fit t where
  agrees := h.agrees.still (fun v => by rw [hvif]) (fun v => by rw [hvif]) htable hstarted
  dev d hd := by
    rw [hvif]
    exact h.dev d (hdev ▸ hd)
  opened v := by
    rw [hvif]
    exact h.opened v

theorem bringUp_fit (h : Fit s) (hv : Opens s v i) : Fit (s.bringUp v i) where
  agrees := bringUp_agrees h.agrees hv.1 hv.2
  dev d hd := by
    have hold := h.dev d hd
    by_cases hdv : d = v
    · subst hdv
      simpa [State.bringUp, State.setTable, State.setVif] using hold
    · simpa [State.bringUp, State.setTable, State.setVif, hdv] using hold
  opened w := by
    by_cases hw : w = v
    · simp [State.bringUp, State.setTable, State.setVif, hw]
    · simpa [State.bringUp, State.setTable, State.setVif, hw] using h.opened w

theorem bringDown_fit (h : Fit s) (hv : (s.vif v).up = true) (hrun : (s.vif v).running = false) :
    Fit (s.bringDown v) where
  agrees := bringDown_agrees h.agrees hv
  dev d hd := by
    have hold := h.dev d hd
    by_cases hdv : d = v
    · subst hdv
      simpa [State.bringDown, State.setTable, State.setVif] using hold
    · simpa [State.bringDown, State.setTable, State.setVif, hdv] using hold
  opened w := by
    by_cases hw : w = v
    · simp [State.bringDown, State.setTable, State.setVif, hw, hrun]
    · simpa [State.bringDown, State.setTable, State.setVif, hw] using h.opened w

theorem setRunning_fit (h : Fit s) {b : Bool} (hup : b = true → (s.vif v).up = true)
    (hdev : b = true → (s.vif v).iftype ≠ .p2pDevice) : Fit (s.setRunning v b) where
  agrees := by
    refine h.agrees.still (t := s.setRunning v b) (fun w => ?_) (fun w => ?_) rfl rfl
    all_goals
      by_cases hw : w = v
      · simp [State.setRunning, State.setVif, hw]
      · simp [State.setRunning, State.setVif, hw]
  dev d hd := by
    have hold := h.dev d hd
    by_cases hdv : d = v
    · subst hdv
      have hb : b = false := by
        by_contra hb
        exact hdev (by simpa using hb) hold.1
      simpa [State.setRunning, State.setVif, hb] using hold.1
    · simpa [State.setRunning, State.setVif, hdv] using hold
  opened w := by
    by_cases hw : w = v
    · subst hw
      simpa [State.setRunning, State.setVif] using hup
    · simpa [State.setRunning, State.setVif, hw] using h.opened w

theorem keepAlive_fit (h : Fit s) : Fit s.keepAlive := h.still rfl rfl rfl rfl

theorem openSelf_done (h : Fit s) {o : OpenReply}
    (hvlan : (s.vif v).iftype = .apVlan → Opens s v v)
    (hmon : (s.vif v).iftype = .monitor → o.monitor = false)
    (hadd : (s.vif v).iftype ≠ .apVlan → ∀ j ∈ inst o.add, Opens s v j) :
    Done s (some v) (s.openSelf v o) := by
  unfold State.openSelf
  by_cases htype : (s.vif v).iftype = .apVlan
  · rw [if_pos htype]
    exact (bringUp_fit h (hvlan htype)).ok
  · rw [if_neg htype]
    split
    · exact h.done _
    case h_2 j hj =>
      have hnot : ¬ ((s.vif v).iftype = .monitor ∧ o.monitor = true) := by
        rintro ⟨hm, ho⟩
        rw [hmon hm] at ho
        cases ho
      rw [if_neg hnot]
      exact (bringUp_fit h (hadd htype j (by rw [hj]; rfl))).ok
    · exact h.done _

/-- The open of a client or group owner that finds the P2P device up, or has none. -/
theorem openP2pDev_plain (hv : s.isP2p v = true) (hno : ¬ BringsP2p s v) (p2p : AddIf) :
    s.openP2pDev p2p = .ok (if s.isP2pAlive then s else s.keepAlive) := by
  unfold State.openP2pDev
  split_ifs with halive
  · rfl
  · cases hdev : s.p2pDevVif with
    | none => rfl
    | some d =>
      have hup : (s.vif d).up = true := by
        by_contra hdown
        exact hno ⟨hv, by simpa using halive, d, by simp [hdev], by simpa using hdown⟩
      simp only [hup, if_true]

theorem isP2p_type (hv : s.isP2p v = true) :
    (s.vif v).iftype ≠ .apVlan ∧ (s.vif v).iftype ≠ .monitor ∧ (s.vif v).iftype ≠ .p2pDevice := by
  simp only [State.isP2p, Bool.or_eq_true, decide_eq_true_eq] at hv
  rcases hv with hv | hv <;> simp [hv]

theorem openP2pDev_brings {d : VifId} (halive : s.isP2pAlive = false) (hd : d ∈ s.p2pDevVif)
    (hdown : (s.vif d).up = false) (p2p : AddIf) :
    (∃ i ∈ inst p2p, s.openP2pDev p2p = .ok (s.bringUp d i).keepAlive) ∨
      s.openP2pDev p2p = .error (-EIO_ERR) := by
  simp only [State.openP2pDev, halive, Option.mem_def.mp hd, hdown, Bool.false_eq_true, if_false]
  split
  case h_1 i => exact Or.inl ⟨i, rfl, rfl⟩
  case h_2 => exact Or.inr rfl

/-- The P2P device comes up, and then the interface itself. -/
theorem brings_done (h : Fit s) {o : OpenReply} (hv : s.isP2p v = true) (hb : BringsP2p s v)
    (hok : ∀ i ∈ inst o.p2p, Free s i ∧ ∃ j ∈ inst o.add, Opens s v j ∧ j ≠ i) :
    Done s (some v) (match s.openP2pDev o.p2p with
      | .error e => (e, s)
      | .ok t => t.openSelf v o) := by
  obtain ⟨-, halive, d, hd, hdown⟩ := hb
  rcases openP2pDev_brings halive hd hdown o.p2p with ⟨i, hi, he⟩ | he <;> rw [he]
  · obtain ⟨hfree, j, hj, hopens, hji⟩ := hok i hi
    obtain ⟨hvlan, hmon, hdev⟩ := isP2p_type hv
    have hvd : v ≠ d := by
      rintro rfl
      exact hdev (h.dev v hd).1
    have hsame : (s.bringUp d i).keepAlive.vif v = s.vif v := by
      simp [State.keepAlive, State.armAlive, State.bringUp, State.setTable, State.setVif, hvd]
    have hopens' : Opens (s.bringUp d i).keepAlive v j := by
      have hnone := hopens.2.2
      refine ⟨by rw [hsame]; exact hopens.1, hopens.2.1, ?_⟩
      simpa [State.keepAlive, State.armAlive, State.bringUp, State.setTable, State.setVif, hji]
        using hnone
    have hadd : o.add = some (0, j) := by
      revert hj
      unfold inst
      split <;> simp_all
    have hself : (s.bringUp d i).keepAlive.openSelf v o =
        (0, (s.bringUp d i).keepAlive.bringUp v j) := by
      simp only [State.openSelf, hsame, hvlan, hadd, hmon, false_and, if_false]
    simp only [hself]
    exact (bringUp_fit (keepAlive_fit (bringUp_fit h ⟨hdown, hfree⟩)) hopens').ok
  · exact h.done _

theorem open_done (h : Fit s) {o : OpenReply} (hok : OpenOk s v o) :
    Done s (some v) (s.rwnxOpen v o) := by
  unfold State.rwnxOpen
  by_cases hstart : s.vifStarted = 0 ∧ o.start = true
  · rw [if_pos hstart]
    exact h.done _
  · rw [if_neg hstart]
    obtain ⟨hvlan, hmon, hadd, hbrings⟩ := hok.resolve_left hstart
    by_cases hv : s.isP2p v = true
    · rw [if_pos hv]
      by_cases hb : BringsP2p s v
      · exact brings_done h hv hb (hbrings hb)
      · obtain ⟨hnvlan, hnmon, -⟩ := isP2p_type hv
        rw [openP2pDev_plain hv hb]
        by_cases halive : s.isP2pAlive = true
        · simp only [halive, if_true]
          exact openSelf_done h hvlan hmon fun htype => hadd htype hb
        · simp only [halive, Bool.false_eq_true, if_false]
          have hdone := openSelf_done (o := o) (keepAlive_fit h) hvlan hmon fun htype => hadd htype hb
          exact ⟨hdone.fit, hdone.failed⟩
    · rw [if_neg hv]
      exact openSelf_done h hvlan hmon fun htype => hadd htype fun hb => hv hb.1

theorem close_done (h : Fit s) (hup : (s.vif v).up = true) (hrun : (s.vif v).running = false)
    (cancel : Bool) :
    Done s (some v) (s.rwnxClose v cancel) := by
  have hscan : Fit { s with scanRequest := none } := h.still rfl rfl rfl rfl
  unfold State.rwnxClose
  split_ifs
  · exact ⟨hscan, fun _ => ⟨rfl, fun _ _ _ => Iff.rfl⟩⟩
  · exact (bringDown_fit hscan hup hrun).ok
  · exact (bringDown_fit h hup hrun).ok

theorem setType_fit (h : Fit s) (hv : (s.vif v).iftype ≠ .p2pDevice) (type : Iftype) :
    Fit (s.setVif v { s.vif v with iftype := type }) where
  agrees := by
    refine h.agrees.still (t := s.setVif v _) (fun w => ?_) (fun w => ?_) rfl rfl
    all_goals
      by_cases hw : w = v
      · simp [State.setVif, hw]
      · simp [State.setVif, hw]
  dev d hd := by
    have hold := h.dev d hd
    have hdv : d ≠ v := by
      rintro rfl
      exact hv hold.1
    simpa [State.setVif, hdv] using hold
  opened w := by
    by_cases hw : w = v
    · subst hw
      simpa [State.setVif] using h.opened w
    · simpa [State.setVif, hw] using h.opened w

theorem readd_done (h : Fit s) (hup : (s.vif v).up = true) {add : AddIf}
    (hadd : ∃ i ∈ inst add, i < vifTableLen ∧ (s.vifTable i = none ∨ i = (s.vif v).vifIndex)) :
    Done t (some v) (s.readdIf v add) := by
  obtain ⟨i, hi, hin, hfree⟩ := hadd
  have hsome : add = some (0, i) := by
    revert hi
    unfold inst
    split <;> simp_all
  subst hsome
  have hfit : Fit (s.reindex v i) := by
    refine ⟨reindex_agrees h.agrees hup hin hfree, fun d hd => ?_, fun w => ?_⟩
    · have hold := h.dev d hd
      by_cases hdv : d = v
      · subst hdv
        simpa [State.reindex, State.clearEntry, State.setTable, State.setVif] using hold
      · simpa [State.reindex, State.clearEntry, State.setTable, State.setVif, hdv] using hold
    · by_cases hw : w = v
      · subst hw
        simpa [State.reindex, State.clearEntry, State.setTable, State.setVif] using h.opened w
      · simpa [State.reindex, State.clearEntry, State.setTable, State.setVif, hw] using h.opened w
  exact hfit.ok

theorem dropScan_same (s : State) (v : VifId) : (s.dropScan v).vif = s.vif ∧
    (s.dropScan v).vifTable = s.vifTable ∧ (s.dropScan v).vifStarted = s.vifStarted ∧
      (s.dropScan v).p2pDevVif = s.p2pDevVif := by
  unfold State.dropScan
  split_ifs <;> exact ⟨rfl, rfl, rfl, rfl⟩

theorem dropScan_fit (h : Fit s) (v : VifId) : Fit (s.dropScan v) := by
  obtain ⟨hvif, htable, hstarted, hdev⟩ := dropScan_same s v
  exact h.still hvif htable hstarted hdev

theorem change_done (h : Fit s) (hdev : (s.vif v).iftype ≠ .p2pDevice) {type : Iftype}
    {cancel remove : Bool} {add : AddIf} (hok : type ≠ .apVlan → ChangeOk s v cancel remove add) :
    Done s (some v) (s.changeIface v type cancel remove add) := by
  unfold State.changeIface
  by_cases htype : type = .apVlan
  · rw [if_pos htype]
    exact h.done _
  · rw [if_neg htype]
    have hset := setType_fit h hdev type
    have hok := hok htype
    have hvif : (s.setVif v { s.vif v with iftype := type }).vif v =
        { s.vif v with iftype := type } := by simp [State.setVif]
    obtain ⟨hvif', htable, hstarted, -⟩ :=
      dropScan_same (s.setVif v { s.vif v with iftype := type }) v
    have hdrop := dropScan_fit hset v
    simp only [hvif]
    split_ifs with hup hcancel hremove
    · exact ⟨hset, fun _ => ⟨rfl, fun _ _ _ => Iff.rfl⟩⟩
    · exact ⟨hdrop, fun _ => ⟨hstarted, fun _ _ _ => by rw [htable]; exact Iff.rfl⟩⟩
    · refine readd_done hdrop (by rw [hvif', hvif]; exact hup) ?_
      rw [hvif', hvif, htable]
      exact hok hup hcancel (by simpa using hremove)
    · exact hset.ok

theorem scanP2p_down (hdown : Down s v) (add : AddIf) :
    (∃ i ∈ inst add, s.scanP2p v add = .ok (s.bringUp v i).keepAlive) ∨
      ∃ e, s.scanP2p v add = .error e := by
  unfold State.scanP2p
  rw [if_pos (show s.p2pDevVif = some v ∧ (s.vif v).up = false from hdown)]
  split
  case h_1 => exact Or.inr ⟨_, rfl⟩
  case h_2 i => exact Or.inl ⟨i, rfl, rfl⟩
  case h_3 => exact Or.inr ⟨_, rfl⟩

theorem scan_done (h : Fit s) {req wildcard : Bool} {add : AddIf} {ie : Bool}
    (hok : req = false → wildcard = true → Down s v → ∀ i ∈ inst add, Free s i ∧ ie = false) :
    Done s (some v) (s.scan v req wildcard add ie) := by
  have hscan : Fit { s with scanRequest := some v } := h.still rfl rfl rfl rfl
  have hsame : ∀ e : ℤ, Done s (some v) (e, { s with scanRequest := some v }) := fun e =>
    ⟨hscan, fun _ => ⟨rfl, fun _ _ _ => Iff.rfl⟩⟩
  unfold State.scan
  by_cases hreq : req = true
  · rw [if_pos hreq]
    exact hsame _
  · rw [if_neg hreq]
    by_cases hwild : wildcard = true
    · simp only [hwild, if_true]
      by_cases hdown : Down s v
      · rcases scanP2p_down (s := { s with scanRequest := some v }) hdown add with
          ⟨i, hi, he⟩ | ⟨e, he⟩ <;> simp only [he]
        · obtain ⟨hfree, hie⟩ := hok (by simpa using hreq) hwild hdown i hi
          rw [hie]
          exact (keepAlive_fit (bringUp_fit hscan ⟨hdown.2, hfree⟩)).ok
        · exact hsame e
      · have hup : ({ s with scanRequest := some v } : State).scanP2p v add =
            .ok ({ s with scanRequest := some v } : State).keepAlive := if_neg hdown
        simp only [hup]
        exact ⟨keepAlive_fit hscan, fun _ => ⟨rfl, fun _ _ _ => Iff.rfl⟩⟩
    · simp only [hwild, Bool.false_eq_true, if_false]
      exact hsame _

theorem rocP2p_cases (s : State) (v : VifId) (add : AddIf) :
    (Down s v ∧ s.isP2pAlive = false ∧ ∃ i ∈ inst add,
        s.rocP2p v add = .ok (s.bringUp v i).keepAlive) ∨
      (∃ e, s.rocP2p v add = .error e) ∨ s.rocP2p v add = .ok s ∨
        s.rocP2p v add = .ok s.armAlive := by
  unfold State.rocP2p
  split_ifs with hdown halive
  · exact Or.inr (Or.inr (Or.inr rfl))
  · split
    case h_1 i => exact Or.inl ⟨hdown, by simpa using halive, i, rfl, rfl⟩
    case h_2 => exact Or.inr (Or.inl ⟨_, rfl⟩)
  · exact Or.inr (Or.inr (Or.inl rfl))

/-- The P2P device was up, so the end of the request does not matter. -/
theorem roc_end (ht : Fit t) (hsame : Untouched s t (some v)) (elem : Bool) (roc : Option ℕ) :
    Done s (some v) (if elem = true then (-ENOMEM, t) else
      match roc with
      | none => (-ENOMEM, t)
      | some status => (if status = 0 then 0 else -EBUSY, t)) := by
  split_ifs
  · exact ⟨ht, fun _ => hsame⟩
  · cases roc with
    | none => exact ⟨ht, fun _ => hsame⟩
    | some status => exact ⟨ht, fun _ => hsame⟩

theorem roc_done (h : Fit s) {busy : Bool} {add : AddIf} {elem : Bool} {roc : Option ℕ}
    (hok : busy = false → Down s v → s.isP2pAlive = false →
      ∀ i ∈ inst add, Free s i ∧ elem = false ∧ roc = some 0) :
    Done s (some v) (s.remainOnChannel v busy add elem roc) := by
  unfold State.remainOnChannel
  by_cases hbusy : busy = true
  · rw [if_pos hbusy]
    exact h.done _
  · rw [if_neg hbusy]
    rcases rocP2p_cases s v add with ⟨hdown, halive, i, hi, he⟩ | ⟨e, he⟩ | he | he <;> rw [he]
    · obtain ⟨hfree, helem, hroc⟩ := hok (by simpa using hbusy) hdown halive i hi
      simp only [helem, hroc, Bool.false_eq_true, if_false, if_true]
      exact (keepAlive_fit (bringUp_fit h ⟨hdown.2, hfree⟩)).ok
    · exact h.done _
    · exact roc_end h ⟨rfl, fun _ _ _ => Iff.rfl⟩ elem roc
    · have harm : Fit s.armAlive := h.still rfl rfl rfl rfl
      exact roc_end (s := s) harm ⟨rfl, fun _ _ _ => Iff.rfl⟩ elem roc

theorem stop_fit (h : Fit s) (v : VifId) : Fit (s.stopP2pDevice v) := by
  have hdrop := dropScan_fit h v
  have hoff : Fit { s.dropScan v with isP2pAlive := false, timer := false } :=
    hdrop.still rfl rfl rfl rfl
  simp only [State.stopP2pDevice]
  split_ifs with hdev hup
  · exact bringDown_fit hoff hup (hoff.dev v hdev).2
  · exact hoff
  · exact hdrop

theorem dropP2pDev_fit (h : Fit s) : Fit s.dropP2pDev := by
  unfold State.dropP2pDev
  split
  case h_1 => exact h
  case h_2 d hd =>
    split_ifs with hup
    · exact bringDown_fit h hup (h.dev d hd).2
    · exact h

theorem countAlive_fit (h : Fit s) : Fit s.countAlive := by
  unfold State.countAlive
  split_ifs
  · exact h.still rfl rfl rfl rfl
  · exact h.still rfl rfl rfl rfl

theorem timeout_fit (h : Fit s) : Fit s.p2pAliveTimeout := by
  have hcount := countAlive_fit h
  simp only [State.p2pAliveTimeout]
  split_ifs
  · exact hcount
  · exact dropP2pDev_fit (hcount.still rfl rfl rfl rfl)

/-- An open that returns 0 leaves its interface up. -/
theorem openSelf_up {o : OpenReply} (hret : (s.openSelf v o).1 = 0) :
    ((s.openSelf v o).2.vif v).up = true := by
  unfold State.openSelf at hret ⊢
  by_cases htype : (s.vif v).iftype = .apVlan
  · simp [htype, State.bringUp, State.setTable, State.setVif]
  · simp only [htype, if_false] at hret ⊢
    split at hret
    case h_1 => simp [ENOMEM] at hret
    case h_2 => simp [State.bringUp, State.setTable, State.setVif]
    case h_3 => simp [EIO_ERR] at hret

theorem openP2pDev_error {p2p : AddIf} {e : ℤ} (he : s.openP2pDev p2p = .error e) :
    e = -EIO_ERR := by
  unfold State.openP2pDev at he
  split_ifs at he
  split at he
  case h_1 => cases he
  case h_2 =>
    split_ifs at he
    split at he
    case h_1 => cases he
    case h_2 => cases he; rfl

theorem open_up {o : OpenReply} (hret : (s.rwnxOpen v o).1 = 0) :
    ((s.rwnxOpen v o).2.vif v).up = true := by
  unfold State.rwnxOpen at hret ⊢
  by_cases hstart : s.vifStarted = 0 ∧ o.start = true
  · simp [hstart, ENOMEM] at hret
  · rw [if_neg hstart] at hret ⊢
    by_cases hp2p : s.isP2p v = true
    · rw [if_pos hp2p] at hret ⊢
      cases he : s.openP2pDev o.p2p with
      | error e =>
        simp only [he, openP2pDev_error he] at hret
        simp [EIO_ERR] at hret
      | ok t =>
        simp only [he] at hret ⊢
        exact openSelf_up hret
    · rw [if_neg hp2p] at hret ⊢
      exact openSelf_up hret

theorem bringUp_iftype (s : State) (u v : VifId) (i : ℕ) :
    ((s.bringUp v i).vif u).iftype = (s.vif u).iftype := by
  by_cases huv : u = v
  · simp [State.bringUp, State.setTable, State.setVif, huv]
  · simp [State.bringUp, State.setTable, State.setVif, huv]

theorem openSelf_iftype (s : State) (u v : VifId) (o : OpenReply) :
    ((s.openSelf v o).2.vif u).iftype = (s.vif u).iftype := by
  unfold State.openSelf
  by_cases htype : (s.vif v).iftype = .apVlan
  · rw [if_pos htype]
    exact bringUp_iftype s u v v
  · rw [if_neg htype]
    split
    case h_1 => rfl
    case h_2 i _ => exact bringUp_iftype s u v i
    case h_3 => rfl

theorem openP2pDev_iftype {p2p : AddIf} (ht : s.openP2pDev p2p = .ok t) (u : VifId) :
    (t.vif u).iftype = (s.vif u).iftype := by
  unfold State.openP2pDev at ht
  split_ifs at ht
  · cases ht; rfl
  split at ht
  case h_1 => cases ht; rfl
  case h_2 d _ =>
    split_ifs at ht
    · cases ht; rfl
    split at ht
    case h_1 i => cases ht; exact bringUp_iftype s u d i
    case h_2 => cases ht

theorem open_iftype (s : State) (u v : VifId) (o : OpenReply) :
    ((s.rwnxOpen v o).2.vif u).iftype = (s.vif u).iftype := by
  unfold State.rwnxOpen
  split_ifs
  · rfl
  · cases he : s.openP2pDev o.p2p with
    | error e => rfl
    | ok t => exact (openSelf_iftype t u v o).trans (openP2pDev_iftype he u)
  · exact openSelf_iftype s u v o

theorem setRunning_up (s : State) (b : Bool) : ((s.setRunning v b).vif v).up = (s.vif v).up := by
  simp [State.setRunning, State.setVif]

theorem opens_done (h : Fit s) {o : OpenReply} (hok : OpenOk s v o)
    (hdev : (s.vif v).iftype ≠ .p2pDevice) :
    Done s (some v) ((s.rwnxOpen v o).1,
      (s.rwnxOpen v o).2.setRunning v (decide ((s.rwnxOpen v o).1 = 0))) := by
  have hdone := open_done h hok
  refine ⟨setRunning_fit hdone.fit (fun hb => open_up (by simpa using hb)) fun _ => ?_,
    hdone.failed⟩
  rwa [open_iftype]

theorem closes_done (h : Fit s) (hrun : (s.vif v).running = true) (cancel : Bool) :
    Done s (some v) ((s.setRunning v false).rwnxClose v cancel) := by
  have hfit : Fit (s.setRunning v false) := by
    refine setRunning_fit h (fun hb => ?_) fun hb => ?_ <;> cases hb
  have hup : ((s.setRunning v false).vif v).up = true := by
    rw [setRunning_up]
    exact h.opened v hrun
  have hoff : ((s.setRunning v false).vif v).running = false := by
    simp [State.setRunning, State.setVif]
  have hdone := close_done hfit hup hoff cancel
  exact ⟨hdone.fit, hdone.failed⟩

/-- One operation that meets the condition. -/
theorem op_done (h : Fit s) {m : Machine} (hm : m.now = s) {a : Act} {r : ℤ × State}
    (hc : Completes m a) (hr : op s a = some r) : Done s (a.who s.p2pDevVif) r := by
  subst hm
  cases a with
  | openVif v o =>
    simp only [op] at hr
    split_ifs at hr with hguard
    cases hr
    exact opens_done h hc hguard.2
  | close v cancel =>
    simp only [op] at hr
    split_ifs at hr with hrun
    cases hr
    exact closes_done h hrun cancel
  | changeIface v type cancel remove add =>
    simp only [op] at hr
    split_ifs at hr with hguard
    cases hr
    exact change_done h hguard.1 hc
  | scan v req wildcard add ie =>
    cases hr
    exact scan_done h hc
  | scanDone =>
    cases hr
    have hfit : Fit { m.now with scanRequest := none } := h.still rfl rfl rfl rfl
    exact hfit.ok
  | remainOnChannel v busy add elem roc =>
    cases hr
    exact roc_done h hc
  | stopP2pDevice v =>
    cases hr
    exact (stop_fit h v).ok
  | aliveTimeout =>
    simp only [op] at hr
    split_ifs at hr
    cases hr
    exact (timeout_fit h).ok

end Operations

/-! ## Runs -/

structure Settled (m : Machine) : Prop where
  fit : Fit m.now
  failed : m.ret ≠ 0 → Untouched m.before m.now m.who

theorem settled_step {m t : Machine} {a : Act} (hc : Completes m a) (ht : step m a = some t)
    (h : Settled m) : Settled t := by
  obtain ⟨r, hr, rfl⟩ := Option.map_eq_some_iff.mp ht
  have hdone := op_done h.fit rfl hc hr
  exact ⟨hdone.fit, hdone.failed⟩

section
variable (iftype : VifId → Iftype) (present : VifId → Bool)
  (dev : Option { v // iftype v = .p2pDevice })

theorem init_settled : Settled (init iftype present dev) where
  fit := by
    refine ⟨⟨?_, fun i v => ?_, fun v hv => ?_⟩, fun d hd => ?_, fun v hv => ?_⟩
    · have hups : ups (initState iftype present dev) = 0 :=
        tally_eq_zero fun v _ hv => by simp [initState] at hv
      exact hups.symm
    · simp [init, initState]
    · simp [init, initState] at hv
    · obtain ⟨⟨w, hw⟩, -, rfl⟩ := Option.map_eq_some_iff.mp hd
      exact ⟨hw, rfl⟩
    · simp [init, initState] at hv
  failed hne := absurd rfl hne

theorem run_consistent {as : List Act} (h : Meets step Completes (init iftype present dev) as) :
    Throughout step Consistent (init iftype present dev) as := by
  refine throughout_of_meets (J := Settled) (fun m a t hc ht hm => settled_step hc ht hm) ?_
    (init_settled iftype present dev) h
  exact fun m hm => ⟨hm.fit.agrees, hm.failed⟩

end

/-- Interface 1 is the P2P device, 2 a group owner, and the others are stations. -/
def sampleType (v : VifId) : Iftype :=
  if v = 1 then .p2pDevice else if v = 2 then .p2pGo else .station

def sampleInit : Machine := init sampleType (fun v => decide (v ≤ 2)) (some ⟨1, rfl⟩)

/-- The P2P device comes up for a scan and for the open of the group owner. -/
def sampleRun : List Act :=
  [.openVif 0 ⟨false, none, some (0, 3), false⟩, .scan 1 false true (some (0, 4)) false,
    .aliveTimeout, .scanDone, .changeIface 0 .ap false false (some (0, 3)), .stopP2pDevice 1,
    .openVif 2 ⟨false, some (0, 4), some (0, 5), false⟩, .close 2 false,
    .remainOnChannel 1 false none false (some 0), .close 0 false]

theorem run_consistent_sample : Throughout step Consistent sampleInit sampleRun :=
  run_consistent sampleType (fun v => decide (v ≤ 2)) (some ⟨1, rfl⟩) (by decide +kernel)

/-- The interface gives up its index and the firmware refuses another. -/
def refusedRun : List Act :=
  [.openVif 0 ⟨false, none, some (0, 3), false⟩, .changeIface 0 .ap false false (some (1, 0))]

/-- The P2P device is up when the scan fails. -/
def scanRun : List Act := [.scan 1 false true (some (0, 4)) true]

/-- The P2P device is up when the open of the group owner fails. -/
def ownerRun : List Act := [.openVif 2 ⟨false, some (0, 4), some (1, 0), false⟩]

theorem tables_wrong :
    ¬ Throughout step Consistent sampleInit refusedRun ∧
      ¬ Throughout step Consistent sampleInit scanRun ∧
      ¬ Throughout step Consistent sampleInit ownerRun := by
  refine ⟨fun h => ?_, fun h => ?_, fun h => ?_⟩
  · have hentry := (h refusedRun List.prefix_rfl _ rfl).agrees.entry 3 0
    exact absurd (hentry.mpr (by decide)) (by decide)
  · have hfailed := (h scanRun List.prefix_rfl _ rfl).failed (by decide)
    exact absurd hfailed.1 (by decide)
  · have hfailed := (h ownerRun List.prefix_rfl _ rfl).failed (by decide)
    exact absurd hfailed.1 (by decide)

end AIC.InterfaceConsistency
