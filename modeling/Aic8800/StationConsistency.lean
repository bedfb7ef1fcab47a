import Aic8800.StationTable
import Aic8800.Lib.GuardedRun

/-!
# When the station table is consistent

Every path that removes a station takes it out of everything. What goes wrong is
around them: an add whose request fails leaves `adding_sta` set, and the slot for
the lost station holds only the last one.
-/

set_option autoImplicit false

namespace AIC.StationTable
open AIC.ChannelContext (Iftype NX_REMOTE_STA_MAX)
open AIC.MeshTables (MacAddr)
open Lib.GuardedRun

/-- The station that the slot leads to. -/
def Slot (s : State) (i : ℕ) : Prop :=
  Serves s s.apmVifIdx ∧ s.findSta s.apmVifIdx s.staMacAddr = some i

/-- The firmware answers to an add, with an index that is free, and the work finds no station named
but the one its slot leads to. -/
def Safe (s : State) : Act → Prop
  | .addAnswer error cfm => s.adding.isSome = true → error = 0 ∧
      (cfm.status = CO_OK → (s.sta cfm.staIdx).linked = false ∧ cfm.staIdx < NX_REMOTE_STA_MAX)
  | .apmStalossWork => s.apmStalossWork = true → ∀ i ∈ s.named, Slot s i
  | _ => True

/-! ## Txqs -/

theorem mem_staTxqs {i k : ℕ} : k ∈ staTxqs i ↔ k / NX_NB_TXQ_PER_STA = i := by
  unfold staTxqs txqStaIdx NX_NB_TXQ_PER_STA
  rw [List.mem_map]
  constructor
  · rintro ⟨tid, htid, rfl⟩
    have hlt : tid < 9 := List.mem_range.mp htid
    omega
  · rintro rfl
    exact ⟨k % 9, List.mem_range.mpr (Nat.mod_lt k (by decide)), by omega⟩

theorem foldl_update {α : Type*} (g : ℕ → α) (ks : List ℕ) (f : ℕ → α) (k : ℕ) :
    ks.foldl (fun t k => Function.update t k (g k)) f k = if k ∈ ks then g k else f k := by
  induction ks generalizing f with
  | nil => simp
  | cons j ks ih =>
    rw [List.foldl_cons, ih]
    by_cases hks : k ∈ ks
    · simp [hks]
    · by_cases hkj : k = j
      · subst hkj
        simp [hks]
      · simp [hks, hkj]

theorem txqStaInit_txq {s : State} {i k : ℕ} :
    (s.txqStaInit i).txq k = if k ∈ staTxqs i then some k else s.txq k :=
  foldl_update some _ _ _

theorem txqStaDeinit_txq {s : State} {i k : ℕ} :
    (s.txqStaDeinit i).txq k = if k ∈ staTxqs i then none else s.txq k :=
  foldl_update (fun _ => none) _ _ _

theorem not_mem_staTxqs {i j k : ℕ} (hij : j ≠ i) (hk : k ∈ staTxqs j) : k ∉ staTxqs i :=
  fun h => hij ((mem_staTxqs.mp hk).symm.trans (mem_staTxqs.mp h))

/-! ## The invariant -/

structure Listed (s : State) (v i : ℕ) : Prop where
  valid : (s.sta i).valid = true
  linked : (s.sta i).linked = true
  vif : (s.sta i).vifIdx = v
  vlan : (s.vifTable (s.sta i).vlanIdx).isSome = true
  index : i < NX_REMOTE_STA_MAX
  serves : Serves s v

structure Free (s : State) (i : ℕ) : Prop where
  valid : (s.sta i).valid = false
  linked : (s.sta i).linked = false
  txq : ∀ k ∈ staTxqs i, s.txq k = none

/-- The pointer of the interface is to a station of an access point that has been moved to it. -/
structure Linked (s : State) (w i : ℕ) : Prop where
  listed : i ∈ s.staList (s.sta i).vifIdx
  vlan : (s.sta i).vlanIdx = w
  is4a : ∃ x ∈ s.vifTable w, x.up = true ∧ x.Is4a

structure Inv (s : State) : Prop where
  sound : s.broken = false
  once : ∀ v, (s.staList v).Nodup
  entry : ∀ v, ∀ i ∈ s.staList v, Listed s v i
  free : ∀ i, (∀ v, i ∉ s.staList v) → Free s i
  link : ∀ w i, s.sta4a w = some i → Linked s w i
  listed : ∀ v i, i ∈ s.staList v ↔ present v i s.log = true
  reordOnce : s.stasReordList.Nodup
  reord : ∀ i ∈ s.gone, (s.sta i).macAddr ∉ s.stasReordList
  adding : ∀ c ∈ s.adding, Serves s c.1
  flag : s.adding.isSome = true → s.addingSta = true

section Actions
variable {s t : State} {v i : ℕ}

theorem Listed.of_same (h : Listed s v i) (hsta : t.sta i = s.sta i)
    (hvif : t.vifTable = s.vifTable) : Listed t v i where
  valid := by rw [hsta, h.valid]
  linked := by rw [hsta, h.linked]
  vif := by rw [hsta, h.vif]
  vlan := by rw [hsta, hvif, h.vlan]
  index := h.index
  serves := by
    unfold Serves
    rw [hvif]
    exact h.serves

theorem Free.of_same (h : Free s i) (hsta : t.sta i = s.sta i)
    (htxq : ∀ k ∈ staTxqs i, t.txq k = s.txq k) : Free t i where
  valid := by rw [hsta, h.valid]
  linked := by rw [hsta, h.linked]
  txq k hk := (htxq k hk).trans (h.txq k hk)

theorem Linked.of_same (h : Linked s v i) (hsta : t.sta i = s.sta i)
    (hvif : t.vifTable = s.vifTable) (hmem : i ∈ t.staList (s.sta i).vifIdx) : Linked t v i where
  listed := by rwa [hsta]
  vlan := by rw [hsta, h.vlan]
  is4a := by
    rw [hvif]
    exact h.is4a

theorem Inv.right_iff (hi : Inv s) : Right s ↔
    (s.apmStalossWork = false → s.named = []) ∧
      (s.addingSta = true → s.adding.isSome = true) := by
  refine ⟨fun h => ⟨h.lost, h.adding⟩, fun h => ?_⟩
  refine ⟨hi.listed, hi.once, fun v i hmem => (hi.entry v i hmem).valid, fun v i _ hgone => ?_,
    hi.reord, h.1, h.2, hi.sound⟩
  have hfree : Free s i := hi.free i hgone
  exact ⟨hfree.valid, hfree.txq, fun w hw => hgone _ (hi.link w i hw).listed⟩

/-- An access point is no `AP_VLAN` interface. -/
theorem Linked.ne (h : Linked s v i) (hi : Inv s) : (s.sta i).vifIdx ≠ v := by
  intro heq
  obtain ⟨x, hx, hap⟩ := (hi.entry _ i h.listed).serves
  obtain ⟨y, hy, -, hvlan, -⟩ := h.is4a
  rw [heq] at hx
  obtain rfl := Option.some.inj (hx.symm.trans hy)
  rcases hap with htype | htype
  · rw [htype] at hvlan
    cases hvlan
  · rw [htype] at hvlan
    cases hvlan

/-! ## Removing a station -/

theorem leaveVlan_eq (hvlan : (s.vifTable (s.sta i).vlanIdx).isSome = true)
    (hlink : ∀ w, s.sta4a w = some i → (s.sta i).vlanIdx = w ∧ (s.sta i).vifIdx ≠ w ∧
      ∃ x ∈ s.vifTable w, x.up = true ∧ x.Is4a) :
    ∃ f, s.leaveVlan i = { s with sta4a := f } ∧
      ∀ w j, f w = some j → s.sta4a w = some j ∧ j ≠ i := by
  have hkeep : (∀ w, s.sta4a w ≠ some i) →
      ∀ w j, s.sta4a w = some j → s.sta4a w = some j ∧ j ≠ i := by
    intro hno w j hj
    refine ⟨hj, ?_⟩
    rintro rfl
    exact hno w hj
  unfold State.leaveVlan
  dsimp only
  split_ifs with hne
  · obtain ⟨x, hx⟩ := Option.isSome_iff_exists.mp hvlan
    rw [hx]
    dsimp only
    split_ifs with h4a
    · refine ⟨_, rfl, fun w j hj => ?_⟩
      by_cases hw : w = (s.sta i).vlanIdx
      · rw [hw, Function.update_self] at hj
        cases hj
      · rw [Function.update_of_ne hw] at hj
        refine ⟨hj, ?_⟩
        rintro rfl
        exact hw (hlink w hj).1.symm
    · refine ⟨s.sta4a, rfl, hkeep fun w hw => ?_⟩
      obtain ⟨rfl, -, y, hy, hup⟩ := hlink w hw
      obtain rfl := Option.some.inj (hx.symm.trans hy)
      exact h4a hup
  · refine ⟨s.sta4a, rfl, hkeep fun w hw => ?_⟩
    obtain ⟨rfl, hvif, -⟩ := hlink w hw
    exact hne hvif

theorem reordDeinitSta_eq (h : Serves s v) : s.reordDeinitSta v i =
    { s with stasReordList := s.stasReordList.erase (s.sta i).macAddr } := by
  obtain ⟨x, hx, hap⟩ := h
  have hno : ¬ (x.iftype = .station ∨ x.iftype = .p2pClient) := by
    rcases hap with htype | htype <;> rw [htype] <;> decide
  unfold State.reordDeinitSta
  rw [show s.vifTable v = some x from hx]
  dsimp only
  rw [if_neg hno, if_pos hap]

/-- What is left of the entry. -/
def Sta.removed (x : Sta) : Sta := { x with
  valid := false
  psActive := false
  linked := false }

theorem removeSta_eq (hi : Inv s) (hmem : i ∈ s.staList v) : ∃ f,
    (∀ w j, f w = some j → s.sta4a w = some j ∧ j ≠ i) ∧
    s.removeSta v i = { s with
      sta := Function.update s.sta i (s.sta i).removed
      staList := Function.update s.staList v ((s.staList v).erase i)
      sta4a := f
      txq := (s.txqStaDeinit i).txq
      stasReordList := s.stasReordList.erase (s.sta i).macAddr
      log := .removed v i::s.log
      named := s.named.filter (· ≠ i)
      gone := i::s.gone } := by
  have hentry : Listed s v i := hi.entry v i hmem
  have hsta : (s.unlinkSta v i).sta i = (s.sta i).removed := Function.update_self i _ s.sta
  have hvlan : ((s.unlinkSta v i).vifTable ((s.unlinkSta v i).sta i).vlanIdx).isSome = true := by
    rw [hsta]
    exact hentry.vlan
  have hlink : ∀ w, (s.unlinkSta v i).sta4a w = some i →
      ((s.unlinkSta v i).sta i).vlanIdx = w ∧ ((s.unlinkSta v i).sta i).vifIdx ≠ w ∧
        ∃ x ∈ (s.unlinkSta v i).vifTable w, x.up = true ∧ x.Is4a := by
    intro w hw
    have hlinked : Linked s w i := hi.link w i hw
    rw [hsta]
    exact ⟨hlinked.vlan, hlinked.ne hi, hlinked.is4a⟩
  obtain ⟨f, hleave, hf⟩ := leaveVlan_eq hvlan hlink
  refine ⟨f, hf, ?_⟩
  unfold State.removeSta
  have hserves : Serves { s.unlinkSta v i with sta4a := f } v := hentry.serves
  have hmac : ((s.unlinkSta v i).sta i).macAddr = (s.sta i).macAddr := by
    rw [hsta, Sta.removed]
  rw [hleave, reordDeinitSta_eq hserves]
  dsimp only
  rw [hmac]
  rfl

theorem removeSta_inv (hi : Inv s) (hmem : i ∈ s.staList v) : Inv (s.removeSta v i) := by
  obtain ⟨f, hf, heq⟩ := removeSta_eq hi hmem
  have hother : ∀ w, i ∈ s.staList w → w = v := fun w hw =>
    (hi.entry w i hw).vif.symm.trans (hi.entry v i hmem).vif
  have hlist : ∀ w j, j ∈ Function.update s.staList v ((s.staList v).erase i) w ↔
      j ∈ s.staList w ∧ j ≠ i := by
    intro w j
    by_cases hw : w = v
    · subst hw
      rw [Function.update_self, (hi.once w).mem_erase_iff]
      exact and_comm
    · rw [Function.update_of_ne hw]
      refine ⟨fun h => ⟨h, ?_⟩, And.left⟩
      rintro rfl
      exact hw (hother w h)
  have hmac : ∀ j, (Function.update s.sta i (s.sta i).removed j).macAddr = (s.sta j).macAddr := by
    intro j
    by_cases hj : j = i
    · subst hj
      rw [Function.update_self]
      rfl
    · rw [Function.update_of_ne hj]
  rw [heq]
  refine ⟨hi.sound, ?_, ?_, ?_, ?_, ?_, hi.reordOnce.erase _, ?_, hi.adding, hi.flag⟩
  · intro w
    by_cases hw : w = v
    · subst hw
      dsimp only
      rw [Function.update_self]
      exact (hi.once w).erase i
    · dsimp only
      rw [Function.update_of_ne hw]
      exact hi.once w
  · intro w j hj
    obtain ⟨hin, hne⟩ := (hlist w j).mp hj
    have hentry : Listed s w j := hi.entry w j hin
    have hsta : Function.update s.sta i (s.sta i).removed j = s.sta j :=
      Function.update_of_ne hne _ _
    exact hentry.of_same hsta rfl
  · intro j hj
    by_cases hji : j = i
    · subst hji
      refine ⟨?_, ?_, fun k hk => txqStaDeinit_txq.trans (if_pos hk)⟩
      · dsimp only
        rw [Function.update_self]
        rfl
      · dsimp only
        rw [Function.update_self]
        rfl
    · have hfree : Free s j := hi.free j fun w hw => hj w ((hlist w j).mpr ⟨hw, hji⟩)
      have hsta : Function.update s.sta i (s.sta i).removed j = s.sta j :=
        Function.update_of_ne hji _ _
      exact hfree.of_same hsta fun k hk =>
        txqStaDeinit_txq.trans (if_neg (not_mem_staTxqs hji hk))
  · intro w j hj
    obtain ⟨hwas, hne⟩ := hf w j hj
    have hlinked : Linked s w j := hi.link w j hwas
    have hsta : Function.update s.sta i (s.sta i).removed j = s.sta j :=
      Function.update_of_ne hne _ _
    exact hlinked.of_same hsta rfl ((hlist _ j).mpr ⟨hlinked.listed, hne⟩)
  · intro w j
    rw [hlist w j, hi.listed w j, present]
    by_cases hji : j = i
    · subst hji
      by_cases hw : w = v
      · simp [hw]
      · have hno : ¬ present w j s.log = true := fun h => hw (hother w ((hi.listed w j).mpr h))
        simp [hno, Ne.symm hw]
    · have hno : ¬ (v = w ∧ i = j) := fun h => hji h.2.symm
      rw [if_neg hno]
      exact and_iff_left hji
  · intro j hj hmem'
    dsimp only at hmem'
    rw [hmac] at hmem'
    rcases List.mem_cons.mp hj with rfl | hgone
    · exact hi.reordOnce.not_mem_erase hmem'
    · exact hi.reord j hgone (List.mem_of_mem_erase hmem')

/-- The stations, their lists and their history. -/
def State.table (s : State) : State := { s with
  stasReordList := []
  addingSta := false
  adding := none
  staMacAddr := 0
  apmVifIdx := 0
  apmStalossWork := false
  ret := 0
  named := []
  gone := [] }

theorem Serves.of_same (h : Serves s v) (hvif : t.vifTable = s.vifTable) : Serves t v := by
  unfold Serves
  rwa [hvif]

theorem Inv.of_table (hi : Inv s) (h : t.table = s.table) (hr : t.stasReordList.Nodup)
    (hgone : ∀ i ∈ t.gone, (t.sta i).macAddr ∉ t.stasReordList)
    (hadding : ∀ c ∈ t.adding, Serves t c.1)
    (hflag : t.adding.isSome = true → t.addingSta = true) : Inv t := by
  have hfield {α : Type} (f : State → α) : f t.table = f s.table := congrArg f h
  have hvif : t.vifTable = s.vifTable := hfield State.vifTable
  have hlist : t.staList = s.staList := hfield State.staList
  have hsta : ∀ i, t.sta i = s.sta i := congrFun (hfield State.sta)
  have htxq : t.txq = s.txq := hfield State.txq
  have hsta4a : t.sta4a = s.sta4a := hfield State.sta4a
  have hlog : t.log = s.log := hfield State.log
  refine ⟨(hfield State.broken).trans hi.sound, ?_, ?_, ?_, ?_, ?_, hr, hgone, hadding, hflag⟩
  · rw [hlist]
    exact hi.once
  · intro v i hmem
    exact (hi.entry v i (hlist ▸ hmem)).of_same (hsta i) hvif
  · intro i hno
    exact (hi.free i fun v hv => hno v (hlist ▸ hv)).of_same (hsta i) fun k _ => congrFun htxq k
  · intro w i hw
    have hlinked : Linked s w i := hi.link w i (hsta4a ▸ hw)
    exact hlinked.of_same (hsta i) hvif (hlist ▸ hlinked.listed)
  · rw [hlist, hlog]
    exact hi.listed

theorem Inv.begin (hi : Inv s) : Inv { s with gone := [] } :=
  hi.of_table rfl hi.reordOnce (fun _ h => absurd h List.not_mem_nil) hi.adding hi.flag

theorem Inv.return (hi : Inv s) (ret : ℤ) : Inv { s with ret := ret } :=
  hi.of_table rfl hi.reordOnce hi.reord hi.adding hi.flag

/-- What a removal leaves alone. -/
structure Frame (s t : State) : Prop where
  adding : t.adding = s.adding
  flag : t.addingSta = s.addingSta
  work : t.apmStalossWork = s.apmStalossWork
  named : s.named = [] → t.named = []

theorem Frame.trans {u : State} (h : Frame s t) (h' : Frame t u) : Frame s u where
  adding := h'.adding.trans h.adding
  flag := h'.flag.trans h.flag
  work := h'.work.trans h.work
  named hn := h'.named (h.named hn)

theorem Frame.return (h : Frame s t) (ret : ℤ) : Frame s { t with ret := ret } :=
  ⟨h.adding, h.flag, h.work, h.named⟩

theorem removeSta_frame (hi : Inv s) (hmem : i ∈ s.staList v) : Frame s (s.removeSta v i) := by
  obtain ⟨f, -, heq⟩ := removeSta_eq hi hmem
  rw [heq]
  refine ⟨rfl, rfl, rfl, fun hn => ?_⟩
  dsimp only
  rw [hn]
  rfl

theorem removeSta_list (hi : Inv s) (hmem : i ∈ s.staList v) :
    (s.removeSta v i).staList v = (s.staList v).erase i := by
  obtain ⟨f, -, heq⟩ := removeSta_eq hi hmem
  rw [heq]
  exact Function.update_self v _ s.staList

theorem delEach_inv {error : ℕ → ℤ} {is : List ℕ} (hi : Inv s) (hn : is.Nodup)
    (hsub : ∀ j ∈ is, j ∈ s.staList v) :
    Inv (State.delEach v error is s) ∧ Frame s (State.delEach v error is s) := by
  induction is generalizing s with
  | nil => exact ⟨hi.return 0, rfl, rfl, rfl, id⟩
  | cons i is ih =>
    have hmem : i ∈ s.staList v := hsub i List.mem_cons_self
    have hinv : Inv (s.removeSta v i) := removeSta_inv hi hmem
    have hframe : Frame s (s.removeSta v i) := removeSta_frame hi hmem
    unfold State.delEach
    split_ifs
    · exact ⟨hinv.return (error i), hframe.return (error i)⟩
    · have hrest : ∀ j ∈ is, j ∈ (s.removeSta v i).staList v := by
        intro j hj
        have hne : j ≠ i := fun h => (List.nodup_cons.mp hn).1 (h ▸ hj)
        rw [removeSta_list hi hmem, List.mem_erase_of_ne hne]
        exact hsub j (List.mem_cons_of_mem i hj)
      obtain ⟨hinv', hframe'⟩ := ih hinv (List.nodup_cons.mp hn).2 hrest
      exact ⟨hinv', hframe.trans hframe'⟩

theorem findSta_mem {mac : MacAddr} (h : s.findSta v mac = some i) : i ∈ s.staList v :=
  List.mem_of_find?_eq_some h

theorem delStation_inv (hi : Inv s) (v : ℕ) (mac : Option MacAddr) (error : ℕ → ℤ) :
    Inv (s.delStation v mac error) ∧ Frame s (s.delStation v mac error) := by
  unfold State.delStation
  cases mac with
  | none => exact delEach_inv hi (hi.once v) fun j hj => hj
  | some mac =>
    dsimp only
    cases hfind : s.findSta v mac with
    | none => exact ⟨hi.return (-ENOENT), rfl, rfl, rfl, id⟩
    | some i =>
      refine delEach_inv hi (List.nodup_singleton i) fun j hj => ?_
      rw [List.mem_singleton.mp hj]
      exact findSta_mem hfind

theorem stopLoop_inv (v : ℕ) (error : ℕ → ℤ) (n : ℕ) (hi : Inv s) :
    Inv (State.stopLoop v error n s) ∧ Frame s (State.stopLoop v error n s) := by
  induction n generalizing s with
  | zero => exact ⟨hi, rfl, rfl, rfl, id⟩
  | succ n ih =>
    unfold State.stopLoop
    split_ifs
    · exact ⟨hi, rfl, rfl, rfl, id⟩
    · obtain ⟨hinv, hframe⟩ := delStation_inv hi v none error
      obtain ⟨hinv', hframe'⟩ := ih hinv
      exact ⟨hinv', hframe.trans hframe'⟩

theorem stopAp_inv (hi : Inv s) (v : ℕ) (error : ℕ → ℤ) :
    Inv (s.stopAp v error) ∧ Frame s (s.stopAp v error) := by
  obtain ⟨hinv, hframe⟩ := stopLoop_inv v error (s.staList v).length hi
  exact ⟨hinv.return 0, hframe.return 0⟩

/-- Of a list that is not empty the call removes a station, whatever the firmware says. -/
theorem delEach_length {error : ℕ → ℤ} {is : List ℕ} (hi : Inv s) (hlist : s.staList v = is)
    (hne : is ≠ []) : ((State.delEach v error is s).staList v).length < is.length := by
  induction is generalizing s with
  | nil => exact absurd rfl hne
  | cons i is ih =>
    have hmem : i ∈ s.staList v := hlist ▸ List.mem_cons_self
    have hrest : (s.removeSta v i).staList v = is := by
      rw [removeSta_list hi hmem, hlist, List.erase_cons_head]
    unfold State.delEach
    split_ifs
    · dsimp only
      rw [hrest]
      exact Nat.lt_succ_self _
    · cases is with
      | nil =>
        unfold State.delEach
        dsimp only
        rw [hrest]
        exact Nat.succ_pos _
      | cons j is =>
        have hlt := ih (removeSta_inv hi hmem) hrest (List.cons_ne_nil j is)
        exact hlt.trans (Nat.lt_succ_self _)

theorem stopLoop_empty (v : ℕ) (error : ℕ → ℤ) (n : ℕ) (hi : Inv s)
    (hn : (s.staList v).length ≤ n) : (State.stopLoop v error n s).staList v = [] := by
  induction n generalizing s with
  | zero => exact List.length_eq_zero_iff.mp (Nat.le_zero.mp hn)
  | succ n ih =>
    unfold State.stopLoop
    split_ifs with hempty
    · exact hempty
    · have hlt : ((s.delStation v none error).staList v).length < (s.staList v).length :=
        delEach_length hi rfl hempty
      exact ih (delStation_inv hi v none error).1 (by omega)

/-- An access point that has stopped has no stations. -/
theorem stopAp_empty (hi : Inv s) (v : ℕ) (error : ℕ → ℤ) : (s.stopAp v error).staList v = [] :=
  stopLoop_empty v error _ hi le_rfl

/-! ## Adding a station -/

theorem Inv.unlinked (hi : Inv s) (hfree : (s.sta i).linked = false) (v : ℕ) :
    i ∉ s.staList v := by
  intro hmem
  have hlinked : (s.sta i).linked = true := (hi.entry v i hmem).linked
  rw [hfree] at hlinked
  cases hlinked

theorem enterSta_inv (hi : Inv s) (hgone : s.gone = []) (hserves : Serves s v) {mac : MacAddr}
    {cfm : State.MeStaAddCfm} (hfree : (s.sta cfm.staIdx).linked = false)
    (hindex : cfm.staIdx < NX_REMOTE_STA_MAX) : Inv (s.enterSta v mac cfm) := by
  have hno : ∀ w, cfm.staIdx ∉ s.staList w := hi.unlinked hfree
  have hself : (s.enterSta v mac cfm).sta cfm.staIdx =
      ⟨true, mac, v, v, (s.sta cfm.staIdx).psActive || cfm.pmState, true⟩ :=
    Function.update_self _ _ s.sta
  have hother : ∀ j, j ≠ cfm.staIdx → (s.enterSta v mac cfm).sta j = s.sta j :=
    fun j hj => Function.update_of_ne hj _ s.sta
  have hlist : ∀ w j, j ∈ (s.enterSta v mac cfm).staList w ↔
      j ∈ s.staList w ∨ w = v ∧ j = cfm.staIdx := by
    intro w j
    show j ∈ Function.update s.staList v (s.staList v++[cfm.staIdx]) w ↔ _
    by_cases hw : w = v
    · subst hw
      simp
    · simp [hw]
  have hold : ∀ {w j}, j ∈ s.staList w → j ≠ cfm.staIdx := by
    rintro w j hj rfl
    exact hno w hj
  refine ⟨?_, ?_, ?_, ?_, ?_, ?_, hi.reordOnce, ?_, fun c hc => ?_, hi.flag⟩
  · show (s.broken || (s.sta cfm.staIdx).linked || decide (NX_REMOTE_STA_MAX ≤ cfm.staIdx)) = false
    rw [hi.sound, hfree, decide_eq_false (Nat.not_le.mpr hindex)]
    rfl
  · intro w
    show (Function.update s.staList v (s.staList v++[cfm.staIdx]) w).Nodup
    by_cases hw : w = v
    · subst hw
      rw [Function.update_self, List.nodup_append]
      refine ⟨hi.once w, List.nodup_singleton _, fun j hj k hk => ?_⟩
      rw [List.mem_singleton.mp hk]
      exact hold hj
    · rw [Function.update_of_ne hw]
      exact hi.once w
  · intro w j hj
    rcases (hlist w j).mp hj with hin | ⟨rfl, rfl⟩
    · exact (hi.entry w j hin).of_same (hother j (hold hin)) rfl
    · refine ⟨by rw [hself], by rw [hself], by rw [hself], ?_, hindex, hserves⟩
      obtain ⟨x, hx, -⟩ := hserves
      rw [hself]
      exact Option.isSome_of_mem hx
  · intro j hj
    have hne : j ≠ cfm.staIdx := fun h => hj v ((hlist v j).mpr (.inr ⟨rfl, h⟩))
    have hwas : Free s j := hi.free j fun w hw => hj w ((hlist w j).mpr (.inl hw))
    exact hwas.of_same (hother j hne) fun k hk =>
      txqStaInit_txq.trans (if_neg (not_mem_staTxqs hne hk))
  · intro w j hj
    have hlinked : Linked s w j := hi.link w j hj
    exact hlinked.of_same (hother j (hold hlinked.listed)) rfl
      ((hlist _ j).mpr (.inl hlinked.listed))
  · intro w j
    show _ ↔ present w j (.added v cfm.staIdx::s.log) = true
    rw [hlist w j, hi.listed w j, present]
    by_cases hsame : v = w ∧ cfm.staIdx = j
    · simp [hsame]
    · rw [if_neg hsame]
      refine or_iff_left fun h => hsame ⟨h.1.symm, h.2.symm⟩
  · intro j hj
    rw [show (s.enterSta v mac cfm).gone = s.gone from rfl, hgone] at hj
    exact absurd hj List.not_mem_nil
  · exact (hi.adding c hc).of_same rfl

theorem addStation_inv (hi : Inv s) (hserves : Serves s v) (mac : MacAddr) (tdlsPeer : Bool) :
    Inv (s.addStation v mac tdlsPeer) := by
  unfold State.addStation
  split_ifs
  · exact hi.return 0
  · refine hi.of_table rfl hi.reordOnce hi.reord ?_ fun _ => rfl
    rintro c ⟨⟩
    exact hserves

theorem addStation_right (hi : Inv s) (hr : Right s) (hserves : Serves s v) (mac : MacAddr)
    (tdlsPeer : Bool) : Right (s.addStation v mac tdlsPeer) := by
  rw [(addStation_inv hi hserves mac tdlsPeer).right_iff]
  unfold State.addStation
  split_ifs
  · exact ⟨hr.lost, hr.adding⟩
  · exact ⟨hr.lost, fun _ => rfl⟩

/-- An answer that leaves no interface waiting. -/
theorem Inv.answered (hi : Inv s) (flag : Bool) (ret : ℤ) : Inv { s with
    addingSta := flag
    adding := none
    ret := ret } :=
  hi.of_table rfl hi.reordOnce hi.reord (fun c hc => absurd hc (Option.not_mem_none c)) nofun

theorem addAnswer_inv (hi : Inv s) (hgone : s.gone = []) (hserves : Serves s v) (mac : MacAddr)
    (error : ℤ) {cfm : State.MeStaAddCfm} (hcfm : cfm.status = CO_OK →
      (s.sta cfm.staIdx).linked = false ∧ cfm.staIdx < NX_REMOTE_STA_MAX) :
    Inv (s.addAnswer v mac error cfm) := by
  unfold State.addAnswer
  split_ifs with herror hok
  · exact hi.answered s.addingSta error
  · obtain ⟨hfree, hindex⟩ := hcfm hok
    exact (enterSta_inv hi hgone hserves hfree hindex).answered false 0
  · exact hi.answered false (-EBUSY)

theorem addAnswer_right_iff (hi : Inv s) (hr : Right s) (hgone : s.gone = []) {mac : MacAddr}
    (hadding : s.adding = some (v, mac)) (error : ℤ) (cfm : State.MeStaAddCfm) :
    Right (s.addAnswer v mac error cfm) ↔ error = 0 ∧
      (cfm.status = CO_OK →
        (s.sta cfm.staIdx).linked = false ∧ cfm.staIdx < NX_REMOTE_STA_MAX) := by
  have hserves : Serves s v := hi.adding (v, mac) hadding
  have hflag : s.addingSta = true := hi.flag (by rw [hadding]; rfl)
  unfold State.addAnswer
  split_ifs with herror hok
  · refine iff_of_false (fun h => ?_) fun h => herror h.1
    exact Bool.false_ne_true (h.adding hflag)
  · constructor
    · intro h
      have hsound : (s.broken || (s.sta cfm.staIdx).linked ||
        decide (NX_REMOTE_STA_MAX ≤ cfm.staIdx)) = false := h.sound
      simp only [Bool.or_eq_false_iff, decide_eq_false_iff_not, not_le] at hsound
      exact ⟨not_not.mp herror, fun _ => ⟨hsound.1.2, hsound.2⟩⟩
    · rintro ⟨-, hcfm⟩
      obtain ⟨hfree, hindex⟩ := hcfm hok
      have hinv : Inv (s.enterSta v mac cfm) := enterSta_inv hi hgone hserves hfree hindex
      exact (hinv.answered false 0).right_iff.mpr ⟨hr.lost, nofun⟩
  · refine iff_of_true ?_ ⟨not_not.mp herror, fun h => absurd h hok⟩
    exact (hi.answered false (-EBUSY)).right_iff.mpr ⟨hr.lost, nofun⟩

/-! ## Moves -/

theorem getSta_listed (hi : Inv s) {mac : MacAddr} (h : s.getSta mac = some i) :
    ∃ v, i ∈ s.staList v := by
  by_contra hno
  have hfree : Free s i := hi.free i fun v hv => hno ⟨v, hv⟩
  have hvalid := List.find?_some h
  rw [decide_eq_true_iff, hfree.valid] at hvalid
  exact absurd hvalid.1 (by decide)

theorem moveSta_eq {old new : Vif} {vlan : ℕ} (hold : s.vifTable (s.sta i).vlanIdx = some old)
    (hnew : s.vifTable vlan = some new) : ∃ f,
    (∀ w j, f w = some j → s.sta4a w = some j ∧ ¬ ((s.sta i).vlanIdx = w ∧ old.Is4a) ∨
      w = vlan ∧ j = i ∧ new.Is4a) ∧
    s.moveSta i vlan = { s with
      sta := Function.update s.sta i { s.sta i with vlanIdx := vlan }
      sta4a := f } := by
  unfold State.moveSta
  dsimp only
  rw [hold, hnew]
  refine ⟨_, fun w j hj => ?_, rfl⟩
  have hset : (if new.Is4a then Function.update s.sta4a vlan (some i) else s.sta4a) w = some j →
      s.sta4a w = some j ∨ w = vlan ∧ j = i ∧ new.Is4a := by
    intro h
    split_ifs at h with h4a
    · by_cases hw : w = vlan
      · rw [hw, Function.update_self] at h
        exact .inr ⟨hw, (Option.some.inj h).symm, h4a⟩
      · rw [Function.update_of_ne hw] at h
        exact .inl h
    · exact .inl h
  by_cases h4a : old.Is4a
  · rw [if_pos h4a] at hj
    by_cases hw : w = (s.sta i).vlanIdx
    · rw [hw, Function.update_self] at hj
      cases hj
    · rw [Function.update_of_ne hw] at hj
      exact (hset hj).imp_left fun h => ⟨h, fun hsame => hw hsame.1.symm⟩
  · rw [if_neg h4a] at hj
    exact (hset hj).imp_left fun h => ⟨h, fun hsame => h4a hsame.2⟩

theorem moveSta_inv (hi : Inv s) (hmem : i ∈ s.staList v) {vlan : ℕ} (hvlan : Takes s vlan) :
    Inv (s.moveSta i vlan) := by
  obtain ⟨old, hold⟩ := Option.isSome_iff_exists.mp (hi.entry v i hmem).vlan
  obtain ⟨new, hnew, hup, -⟩ := hvlan
  obtain ⟨f, hf, heq⟩ := moveSta_eq hold hnew
  have hother : ∀ j, j ≠ i → (s.moveSta i vlan).sta j = s.sta j := by
    intro j hj
    rw [heq]
    exact Function.update_of_ne hj _ s.sta
  have hself : (s.moveSta i vlan).sta i = { s.sta i with vlanIdx := vlan } := by
    rw [heq]
    exact Function.update_self i _ s.sta
  have hmac : ∀ j, ((s.moveSta i vlan).sta j).macAddr = (s.sta j).macAddr := by
    intro j
    by_cases hj : j = i
    · rw [hj, hself]
    · rw [hother j hj]
  rw [heq] at hother hself hmac ⊢
  refine ⟨hi.sound, hi.once, ?_, ?_, ?_, hi.listed, hi.reordOnce, ?_, hi.adding, hi.flag⟩
  · intro w j hj
    have hlisted : Listed s w j := hi.entry w j hj
    by_cases hji : j = i
    · subst hji
      refine ⟨?_, ?_, ?_, ?_, hlisted.index, hlisted.serves⟩
      · rw [hself]
        exact hlisted.valid
      · rw [hself]
        exact hlisted.linked
      · rw [hself]
        exact hlisted.vif
      · rw [hself]
        exact Option.isSome_of_mem hnew
    · exact hlisted.of_same (hother j hji) rfl
  · intro j hj
    have hne : j ≠ i := fun h => hj v (h ▸ hmem)
    exact (hi.free j hj).of_same (hother j hne) fun _ _ => rfl
  · intro w j hj
    rcases hf w j hj with ⟨hwas, hleft⟩ | ⟨rfl, rfl, h4a⟩
    · have hlinked : Linked s w j := hi.link w j hwas
      have hji : j ≠ i := by
        rintro rfl
        obtain ⟨x, hx, -, h4a⟩ := hlinked.is4a
        rw [← hlinked.vlan] at hx
        obtain rfl := Option.some.inj (hold.symm.trans hx)
        exact hleft ⟨hlinked.vlan, h4a⟩
      exact hlinked.of_same (hother j hji) rfl hlinked.listed
    · refine ⟨?_, ?_, new, hnew, hup, h4a⟩
      · rw [hself]
        show j ∈ s.staList (s.sta j).vifIdx
        rw [(hi.entry v j hmem).vif]
        exact hmem
      · rw [hself]
  · intro j hj
    rw [hmac]
    exact hi.reord j hj

theorem changeStation_inv (hi : Inv s) (mac : MacAddr) {vlan : ℕ} (hvlan : Takes s vlan) :
    Inv (s.changeStation mac vlan) ∧ Frame s (s.changeStation mac vlan) := by
  unfold State.changeStation
  cases hget : s.getSta mac with
  | none => exact ⟨hi.return (-EINVAL), rfl, rfl, rfl, id⟩
  | some i =>
    obtain ⟨v, hmem⟩ := getSta_listed hi hget
    dsimp only
    split_ifs
    · refine ⟨(moveSta_inv hi hmem hvlan).return 0, ?_⟩
      obtain ⟨old, hold⟩ := Option.isSome_iff_exists.mp (hi.entry v i hmem).vlan
      obtain ⟨new, hnew, -⟩ := hvlan
      obtain ⟨f, -, heq⟩ := moveSta_eq hold hnew
      rw [heq]
      exact ⟨rfl, rfl, rfl, id⟩
    · exact ⟨hi.return 0, rfl, rfl, rfl, id⟩

/-! ## Indications, the work and frames -/

theorem Right.of_frame (hr : Right s) (hi : Inv t) (h : Frame s t) : Right t := by
  rw [hi.right_iff, h.work, h.flag, h.adding]
  exact ⟨fun hwork => h.named (hr.lost hwork), hr.adding⟩

theorem stalossSta_iff : s.stalossSta = some i ↔ Slot s i := by
  unfold State.stalossSta Slot Serves
  cases hvif : s.vifTable s.apmVifIdx with
  | none => simp
  | some w => by_cases hap : w.IsAp <;> simp [hap]

theorem work_inv (hi : Inv s) : Inv s.apmStalossWorkProcess := by
  have hstart : Inv { s with apmStalossWork := false } :=
    hi.of_table rfl hi.reordOnce hi.reord hi.adding hi.flag
  unfold State.apmStalossWorkProcess
  cases hsta : s.stalossSta with
  | none => exact hstart
  | some i => exact removeSta_inv hstart (findSta_mem (stalossSta_iff.mp hsta).2)

theorem work_right_iff (hi : Inv s) (hr : Right s) :
    Right s.apmStalossWorkProcess ↔ ∀ i ∈ s.named, Slot s i := by
  rw [(work_inv hi).right_iff]
  simp only [← stalossSta_iff]
  unfold State.apmStalossWorkProcess
  cases hsta : s.stalossSta with
  | none =>
    refine (and_iff_left hr.adding).trans ⟨fun h i hmem => ?_, fun h _ => ?_⟩
    · have hnil : s.named = [] := h rfl
      rw [hnil] at hmem
      exact absurd hmem List.not_mem_nil
    · exact List.eq_nil_iff_forall_not_mem.mpr fun i hmem => nomatch h i hmem
  | some j =>
    have hstart : Inv { s with apmStalossWork := false } :=
      hi.of_table rfl hi.reordOnce hi.reord hi.adding hi.flag
    obtain ⟨f, -, heq⟩ := removeSta_eq hstart (findSta_mem (stalossSta_iff.mp hsta).2)
    dsimp only
    rw [heq]
    refine (and_iff_left hr.adding).trans ?_
    simp only [forall_const, List.filter_eq_nil_iff, decide_eq_true_eq, not_not, Option.some.injEq]
    exact forall₂_congr fun i _ => eq_comm

theorem staloss_right (hi : Inv s) (hr : Right s) (vifIdx : ℕ) (mac : MacAddr) :
    Inv (s.apmStalossInd vifIdx mac) ∧ Right (s.apmStalossInd vifIdx mac) := by
  have hinv : Inv (s.apmStalossInd vifIdx mac) :=
    hi.of_table rfl hi.reordOnce hi.reord hi.adding hi.flag
  exact ⟨hinv, hinv.right_iff.mpr ⟨nofun, hr.adding⟩⟩

theorem reordSta_right (hi : Inv s) (hr : Right s) (hgone : s.gone = []) (mac : MacAddr)
    (alloc : Bool) : Inv (s.reordSta mac alloc) ∧ Right (s.reordSta mac alloc) := by
  unfold State.reordSta
  split_ifs with hskip
  · exact ⟨hi, hr⟩
  · have hnew : mac ∉ s.stasReordList := fun h => hskip (.inl h)
    have hinv : Inv { s with stasReordList := s.stasReordList++[mac] } := by
      refine hi.of_table rfl ?_ (fun i hmem => ?_) hi.adding hi.flag
      · rw [List.nodup_append]
        refine ⟨hi.reordOnce, List.nodup_singleton mac, fun x hx y hy => ?_⟩
        rintro rfl
        exact hnew (List.mem_singleton.mp hy ▸ hx)
      · change i ∈ s.gone at hmem
        rw [hgone] at hmem
        exact absurd hmem List.not_mem_nil
    exact ⟨hinv, hinv.right_iff.mpr ⟨hr.lost, hr.adding⟩⟩

end Actions

/-! ## Runs -/

theorem act_next {s t : State} {a : Act} (hi : Inv s) (hr : Right s) (hgone : s.gone = [])
    (ha : Safe s a) (ht : act s a = some t) : Inv t ∧ Right t := by
  cases a with
  | addStation v mac tdlsPeer =>
    obtain ⟨⟨-, hserves⟩, ⟨⟩⟩ := Option.ite_none_right_eq_some.mp ht
    exact ⟨addStation_inv hi hserves mac tdlsPeer, addStation_right hi hr hserves mac tdlsPeer⟩
  | addAnswer error cfm =>
    obtain ⟨⟨v, mac⟩, hadding, rfl⟩ := Option.map_eq_some_iff.mp ht
    have hsafe := ha (by rw [hadding]; rfl)
    exact ⟨addAnswer_inv hi hgone (hi.adding _ hadding) mac error hsafe.2,
      (addAnswer_right_iff hi hr hgone hadding error cfm).mpr hsafe⟩
  | delStation v mac error =>
    obtain ⟨-, ⟨⟩⟩ := Option.ite_none_right_eq_some.mp ht
    obtain ⟨hinv, hframe⟩ := delStation_inv hi v mac error
    exact ⟨hinv, hr.of_frame hinv hframe⟩
  | changeStation mac vlan =>
    obtain ⟨⟨-, htakes⟩, ⟨⟩⟩ := Option.ite_none_right_eq_some.mp ht
    obtain ⟨hinv, hframe⟩ := changeStation_inv hi mac htakes
    exact ⟨hinv, hr.of_frame hinv hframe⟩
  | stopAp v error =>
    obtain ⟨-, ⟨⟩⟩ := Option.ite_none_right_eq_some.mp ht
    obtain ⟨hinv, hframe⟩ := stopAp_inv hi v error
    exact ⟨hinv, hr.of_frame hinv hframe⟩
  | apmStalossInd vifIdx mac =>
    obtain rfl := Option.some.inj ht
    exact staloss_right hi hr vifIdx mac
  | apmStalossWork =>
    obtain ⟨hwork, ⟨⟩⟩ := Option.ite_none_right_eq_some.mp ht
    exact ⟨work_inv hi, (work_right_iff hi hr).mpr (ha hwork)⟩
  | rx mac alloc =>
    obtain rfl := Option.some.inj ht
    exact reordSta_right hi hr hgone mac alloc

theorem act_force {s : State} {a : Act} (hi : Inv s) (hr : Right s) (hgone : s.gone = [])
    (h : ∀ t ∈ act s a, Right t) : Safe s a := by
  cases a with
  | addAnswer error cfm =>
    intro hwaits
    obtain ⟨⟨v, mac⟩, hadding⟩ := Option.isSome_iff_exists.mp hwaits
    exact (addAnswer_right_iff hi hr hgone hadding error cfm).mp
      (h _ (Option.map_eq_some_iff.mpr ⟨_, hadding, rfl⟩))
  | apmStalossWork =>
    intro hwork
    exact (work_right_iff hi hr).mp (h _ (if_pos hwork))
  | addStation | delStation | changeStation | stopAp | apmStalossInd | rx => trivial

/-- What a step forgets about the last one plays no part in what is asked of it. -/
theorem safe_begin {s : State} {a : Act} : Safe { s with gone := [] } a ↔ Safe s a := by
  cases a <;> rfl

theorem Right.begin {s : State} (h : Right s) : Right { s with gone := [] } :=
  ⟨h.listed, h.once, h.valid, h.removed, fun _ hmem => absurd hmem List.not_mem_nil, h.lost,
    h.adding, h.sound⟩

theorem init_inv (vifTable : ℕ → Option Vif) : Inv (init vifTable) :=
  ⟨rfl, fun _ => List.nodup_nil, fun _ _ h => absurd h List.not_mem_nil,
    fun _ _ => ⟨rfl, rfl, fun _ _ => rfl⟩, fun _ _ h => absurd h nofun,
    fun _ _ => iff_of_false List.not_mem_nil Bool.false_ne_true, List.nodup_nil,
    fun _ h => absurd h List.not_mem_nil, fun c h => absurd h (Option.not_mem_none c), nofun⟩

theorem init_right (vifTable : ℕ → Option Vif) : Right (init vifTable) :=
  (init_inv vifTable).right_iff.mpr ⟨fun _ => rfl, nofun⟩

/-- One access point. -/
def onePoint : State := init fun v => if v = 0 then some ⟨.ap, true, false⟩ else none

end AIC.StationTable
