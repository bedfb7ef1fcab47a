import Aic8800.FlashUpdate

/-!
# When an update of the flash is right

An upload is a run of requests from the size of the file on, unless a long file follows a size that
was not taken. Every other way behind the loaded file leaves its buffer allocated.
-/

set_option autoImplicit false

namespace AIC.FlashUpdate
open AIC.BtPatchTable (Bytes Word)
open AIC.FirmwareUpload (blockWrite word)
open Lib.ByteText Lib.RequestRun

/-! ## The upload as a run -/

section Upload

variable {dst : Bytes} {ret : ℕ → ℤ} {fuel i k : ℕ}

def dataRequest (b : Bytes) : Request := .write (.block AIC_M2D_OTA_DATA_ADDR b)

/-- The blocks that cover a file from an offset on. -/
structure Cut (dst : Bytes) (i : ℕ) (blocks : List Bytes) : Prop where
  small : ∀ b ∈ blocks, b.length ≤ 1024
  all : blocks.flatten = dst.drop i
  count : blocks.length = (dst.length-i+1023)/1024

theorem blockWrite_inside {size : ℕ} (hsize : size ≤ 1024) (hin : i+size ≤ dst.length) :
    blockWrite dst AIC_M2D_OTA_DATA_ADDR i size =
      some (.block AIC_M2D_OTA_DATA_ADDR ((dst.drop i).take size)) :=
  FirmwareUpload.blockWrite_eq _ hsize hin

theorem otaTail_cons (k : ℕ) (b : Request) (p : ℤ × ℕ × List Request) :
    otaTail dst ret k (p.1, p.2.1, b::p.2.2) =
      (otaTail dst ret (k+1) p).map fun q => (q.1, b::q.2) := by
  obtain ⟨err, i, sent⟩ := p
  have hnumber : k+(sent.length+1) = k+1+sent.length := by omega
  simp only [otaTail, List.length_cons, hnumber]
  split_ifs
  · rw [Option.map_map]
    rfl
  · rfl

theorem cut_last (hi : i < dst.length) (hlast : dst.length ≤ i+1024) : Cut dst i [dst.drop i] where
  small b hb := by
    rw [List.mem_singleton.mp hb, List.length_drop]
    omega
  all := List.append_nil _
  count := by
    rw [List.length_singleton]
    omega

theorem Cut.cons {blocks : List Bytes} (h : Cut dst (i+1024) blocks) (hnext : i+1024 < dst.length) :
    Cut dst i ((dst.drop i).take 1024::blocks) where
  small b hb := by
    rcases List.mem_cons.mp hb with rfl | hb
    · exact List.length_take_le _ _
    · exact h.small b hb
  all := by rw [List.flatten_cons, h.all, ← List.drop_drop, List.take_append_drop]
  count := by
    rw [List.length_cons, h.count]
    omega

theorem otaTail_last (hi : i < dst.length) (hlast : dst.length ≤ i+1024) :
    otaTail dst ret k (0, i, []) = some (run ret k [dataRequest (dst.drop i)]) := by
  have hwhole : (dst.drop i).take (dst.length-i) = dst.drop i := List.take_of_length_le (by simp)
  have hblock := blockWrite_inside (by omega : dst.length-i ≤ 1024) (by omega : i+_ ≤ dst.length)
  rw [hwhole] at hblock
  rw [otaTail, if_pos ⟨rfl, hi⟩, hblock, Option.map_some]
  by_cases hk : ret k = 0
  · rw [run_cons_ok hk]
    exact congrArg (fun r => some (r, _)) hk
  · rw [run_cons_fail hk]
    rfl

/-- A turn of the loop, which forgets the error from before. -/
theorem otaBlocks_next (err : ℤ) (hnext : i+1024 < dst.length) :
    (otaBlocks dst ret (fuel+1) i k err).bind (otaTail dst ret k) =
      if ret k ≠ 0 then some (ret k, [dataRequest ((dst.drop i).take 1024)])
      else ((otaBlocks dst ret fuel (i+1024) (k+1) (ret k)).bind (otaTail dst ret (k+1))).map
        fun q => (q.1, dataRequest ((dst.drop i).take 1024)::q.2) := by
  have hloop : i < dst.length-1024 := by omega
  rw [otaBlocks, if_pos hloop, blockWrite_inside le_rfl hnext.le, Option.bind_some]
  split_ifs with hk
  · rw [Option.bind_some, otaTail, if_neg fun h => hk h.1]
    rfl
  · rw [Option.bind_map, Option.map_bind]
    exact congrArg _ (funext fun p => otaTail_cons k _ p)

variable (ret k) in
theorem otaBlocks_run (err : ℤ) (hi : i < dst.length) (hfuel : dst.length ≤ i+fuel)
    (herr : i+1024 < dst.length ∨ err = 0) :
    ∃ blocks, Cut dst i blocks ∧
      (otaBlocks dst ret fuel i k err).bind (otaTail dst ret k) =
        some (run ret k (blocks.map dataRequest)) := by
  induction fuel generalizing i k err with
  | zero => omega
  | succ fuel ih =>
    by_cases hnext : i+1024 < dst.length
    · by_cases hk : ret k = 0
      · obtain ⟨blocks, hcut, hrun⟩ := ih (k+1) (ret k) hnext (by omega) (.inr hk)
        refine ⟨_, hcut.cons hnext, ?_⟩
        rw [otaBlocks_next err hnext, hrun, if_neg (not_not.mpr hk), List.map_cons, run_cons_ok hk]
        rfl
      · obtain ⟨blocks, hcut, -⟩ := ih (k+1) 0 hnext (by omega) (.inr rfl)
        refine ⟨_, hcut.cons hnext, ?_⟩
        rw [otaBlocks_next err hnext, if_pos hk, List.map_cons, run_cons_fail hk]
    · obtain rfl : err = 0 := herr.resolve_left hnext
      refine ⟨[dst.drop i], cut_last hi (by omega), ?_⟩
      rw [otaBlocks, if_neg (by omega), Option.bind_some, otaTail_last hi (by omega)]
      rfl

/-- Where the sending of a file begins: at `i` only if it is one block. -/
def firstByte (dst : Bytes) (i : ℕ) : ℕ := if 1024 < dst.length then 0 else i

def uploadPlan (dst : Bytes) (blocks : List Bytes) : List Request :=
  .write (otaInfo dst.length)::blocks.map dataRequest

variable (ret k) in
/-- The requests of an upload, unless the size of a long file is refused: they go on then. -/
theorem otaUpload_run (hi : i < dst.length) :
    ∃ blocks, Cut dst (firstByte dst i) blocks ∧
      (¬ (1024 < dst.length ∧ ret k ≠ 0) →
        otaUpload dst ret i k = some (run ret k (uploadPlan dst blocks))) ∧
      (1024 < dst.length → ret k ≠ 0 → ∃ err b sent,
        otaUpload dst ret i k = some (err, .write (otaInfo dst.length)::b::sent)) := by
  unfold firstByte otaUpload
  by_cases hlong : 1024 < dst.length
  · obtain ⟨blocks, hcut, hrun⟩ := otaBlocks_run ret (k+1) (ret k) (by omega : 0 < dst.length)
      (by omega : dst.length ≤ 0+dst.length) (.inl (by omega))
    rw [if_pos hlong, if_pos hlong, hrun]
    refine ⟨blocks, hcut, fun hok => ?_, fun _ hk => ?_⟩
    · have hk : ret k = 0 := not_not.mp fun hk => hok ⟨hlong, hk⟩
      rw [uploadPlan, run_cons_ok hk]
      rfl
    · have hblocks : blocks.map dataRequest ≠ [] := by
        intro hnil
        have hlen := congrArg List.length hnil
        rw [List.length_map, hcut.count] at hlen
        simp only [List.length_nil] at hlen
        omega
      have hany : (run ret (k+1) (blocks.map dataRequest)).2 ≠ [] := run_sent_ne_nil hblocks
      obtain ⟨b, sent, hsent⟩ := List.exists_cons_of_ne_nil hany
      exact ⟨_, b, sent, by rw [Option.map_some, ← hsent]⟩
  · rw [if_neg hlong, if_neg hlong]
    refine ⟨[dst.drop i], cut_last hi (by omega), fun _ => ?_, fun h => absurd h hlong⟩
    rw [Option.bind_some]
    by_cases hk : ret k = 0
    · rw [hk, otaTail_last hi (by omega), uploadPlan, run_cons_ok hk]
      rfl
    · rw [otaTail, if_neg fun h => hk h.1, uploadPlan, run_cons_fail hk]
      rfl

end Upload

/-! ## Handled uploads -/

section Handled

variable {d : Device} {dst : Bytes} {i : ℕ} {reads : List Request} {g : Globals}

/-- The buffer is the file unless its size does not fit. -/
theorem load_file (h : rwnxLoadFirmware d = some dst) (s : ℕ) :
    0 < dst.length ∧ (dst.drop s = d.file ↔ d.file.length < 2^31 ∧ s = 0) := by
  unfold rwnxLoadFirmware at h
  simp only [Option.ite_none_right_eq_some, Option.some.injEq] at h
  obtain ⟨⟨-, hpos⟩, rfl⟩ := h
  rw [BitVec.toInt_eq_toNat_cond, BitVec.toNat_ofNat] at hpos ⊢
  have hcut : d.file.length % 2^32 ≤ d.file.length := Nat.mod_le _ _
  split_ifs at hpos ⊢ with hsmall
  · rw [Int.toNat_natCast, List.length_take]
    refine ⟨by omega, fun hfile => ?_, ?_⟩
    · have hlen := congrArg List.length hfile
      rw [List.length_drop, List.length_take] at hlen
      omega
    · rintro ⟨hfits, rfl⟩
      exact List.take_of_length_le (by omega)
  · omega

theorem load_fits (hloads : d.loads = true) (hpos : 0 < d.file.length)
    (hfits : d.file.length < 2^31) : rwnxLoadFirmware d = some d.file := by
  have hsize : (BitVec.ofNat 32 d.file.length).toInt = d.file.length := by
    rw [BitVec.toInt_eq_toNat_cond, BitVec.toNat_ofNat, if_pos (by omega)]
    omega
  simp only [rwnxLoadFirmware, hsize]
  rw [if_pos ⟨hloads, by omega⟩, Int.toNat_natCast, List.take_length]

theorem filterMap_plan (blocks : List Bytes) : (uploadPlan dst blocks).filterMap Request.write? =
    otaInfo dst.length::blocks.map (.block AIC_M2D_OTA_DATA_ADDR) := by
  induction blocks with
  | nil => rfl
  | cons b blocks ih => exact congrArg _ (congrArg _ (List.cons.inj ih).2)

theorem uploaded_iff {blocks : List Bytes} {s : ℕ} (hplain : reads.filterMap Request.write? = [])
    (hload : rwnxLoadFirmware d = some dst) (hcut : Cut dst s blocks) :
    Uploaded d.file (reads++uploadPlan dst blocks) ↔ d.file.length < 2^31 ∧ s = 0 := by
  unfold Uploaded
  rw [List.filterMap_append, hplain, List.nil_append, filterMap_plan, ← (load_file hload s).2]
  constructor
  · rintro ⟨blocks', -, hall, hsent⟩
    have hmap := (List.cons.inj hsent).2
    have hsame : blocks = blocks' :=
      List.map_injective_iff.mpr (fun a b h => (FirmwareUpload.Request.block.inj h).2) hmap
    rw [← hcut.all, hsame, hall]
  · intro hall
    refine ⟨blocks, hcut.small, hcut.all.trans hall, ?_⟩
    have hsame : dst = d.file := by
      obtain ⟨hfits, rfl⟩ := (load_file hload s).2.mp hall
      exact (List.drop_zero).symm.trans hall
    rw [hsame]

variable (g) in
/-- What an upload needs behind reads that have succeeded. -/
theorem upload_handled_iff (hreads : ∀ j < reads.length, d.ret j = 0)
    (hplain : reads.filterMap Request.write? = []) (hload : rwnxLoadFirmware d = some dst)
    (hi : i < dst.length) :
    ∃ p, otaUpload dst d.ret i reads.length = some p ∧ (finish reads g p).uploads ∧
      (Handled d (finish reads g p) ↔ UploadFine d dst i reads.length) := by
  obtain ⟨blocks, hcut, hrun, hlost⟩ := otaUpload_run d.ret reads.length hi
  by_cases hbad : 1024 < dst.length ∧ d.ret reads.length ≠ 0
  · obtain ⟨err, b, sent, hsent⟩ := hlost hbad.1 hbad.2
    refine ⟨_, hsent, ⟨_, List.mem_append_right _ List.mem_cons_self, rfl⟩,
      iff_of_false (fun h => ?_) fun h => hbad.2 (h.1 hbad.1)⟩
    have hlast := (h.stops reads.length (by simp [finish]) hbad.2).1
    simp [finish] at hlast
  · have hcount : (uploadPlan dst blocks).length = (dst.length+1023)/1024+1 := by
      rw [uploadPlan, List.length_cons, List.length_map, hcut.count, firstByte]
      split_ifs <;> omega
    have hfirst : firstByte dst i = 0 ↔ 1024 < dst.length ∨ i = 0 := by
      unfold firstByte
      split_ifs with hlong <;> simp [hlong]
    have hsuccess : (run d.ret reads.length (uploadPlan dst blocks)).1 = 0 ↔ _ :=
      run_success_iff reads.length (uploadPlan dst blocks)
    refine ⟨_, hrun hbad, ⟨_, List.mem_append_right _ (mem_run_head _ _ _), rfl⟩, ?_, ?_⟩
    · intro h
      refine ⟨fun hlong => not_not.mp fun hk => hbad ⟨hlong, hk⟩, ?_⟩
      by_cases hok : (run d.ret reads.length (uploadPlan dst blocks)).1 = 0
      · have hall := h.whole hok
        simp only [finish, run_complete _ _ hok] at hall
        have hfile := (uploaded_iff hplain hload hcut).mp hall
        exact .inl ⟨hfile.1, hfirst.mp hfile.2⟩
      · rw [hsuccess] at hok
        push Not at hok
        obtain ⟨j, hj, hfail⟩ := hok
        exact .inr ⟨j, by omega, hfail⟩
    · rintro ⟨-, hfine⟩
      refine ⟨rfl, fun j hj hfail => ?_, fun hok => ?_⟩
      · simp only [finish, List.length_append] at hj ⊢
        exact run_fails_last hreads (List.cons_ne_nil _ _) hj hfail
      · have hdone : (run d.ret reads.length (uploadPlan dst blocks)).1 = 0 := hok
        have hall := hsuccess.mp hdone
        rcases hfine with ⟨hfits, hstart⟩ | ⟨j, hj, hfail⟩
        · simp only [finish, run_complete _ _ hdone]
          exact (uploaded_iff hplain hload hcut).mpr ⟨hfits, hfirst.mpr hstart⟩
        · exact absurd (hall j (by omega)) hfail

variable (reads g) in
/-- Without an upload nothing may be left allocated, and the first error is the result. -/
theorem handled_unloaded {err : ℤ} (herr : err ≠ 0)
    (hstops : ∀ j < reads.length, d.ret j ≠ 0 → j+1 = reads.length ∧ err = d.ret j) :
    Handled d ⟨err, reads, false, 0, g⟩ :=
  ⟨rfl, hstops, fun h => absurd h herr⟩

theorem not_handled_kept {err : ℤ} : ¬ Handled d ⟨err, reads, true, 0, g⟩ :=
  fun h => absurd h.released (by simp)

theorem handled_globals {o : Outcome} (g : Globals) :
    Handled d { o with globals := g } ↔ Handled d o :=
  ⟨fun h => ⟨h.released, h.stops, h.whole⟩, fun h => ⟨h.released, h.stops, h.whole⟩⟩

end Handled

/-! ## The update -/

section Android

variable {d : Device} {g : Globals}

theorem first_fine (h0 : d.ret 0 = 0) : ∀ j < [Request.read MEM_ADDR].length, d.ret j = 0 := by
  intro j hj
  obtain rfl := Nat.lt_one_iff.mp hj
  exact h0

theorem first_fails (h0 : d.ret 0 ≠ 0) :
    Handled d ⟨d.ret 0, [.read MEM_ADDR], false, 0, g⟩ := by
  refine handled_unloaded _ g h0 fun j hj _ => ?_
  obtain rfl := Nat.lt_one_iff.mp hj
  exact ⟨rfl, rfl⟩

theorem android_right_iff : AndroidRight d g ↔ AndroidFine d := by
  unfold AndroidRight AndroidFine rwnxPlatM2dFlashOtaAndroid
  by_cases h0 : d.ret 0 ≠ 0
  · exact iff_of_true ⟨_, if_pos h0, first_fails h0⟩ (.inl h0)
  have hreads := first_fine (not_not.mp h0)
  have hquiet : ∀ j < [Request.read MEM_ADDR].length, d.ret j ≠ 0 →
      j+1 = [Request.read MEM_ADDR].length ∧ (-1 : ℤ) = d.ret j :=
    fun j hj hfail => absurd (hreads j hj) hfail
  by_cases hinvalid : d.flashInvalid = true
  · exact iff_of_true
      ⟨_, (if_neg h0).trans (if_pos hinvalid), handled_unloaded _ g (by decide) hquiet⟩
      (.inr (.inl hinvalid))
  simp only [if_neg h0, if_neg hinvalid]
  cases hload : rwnxLoadFirmware d with
  | none =>
    exact iff_of_true ⟨_, rfl, handled_unloaded _ g (by decide) hquiet⟩ (.inr (.inr (.inl rfl)))
  | some dst =>
    obtain ⟨p, hp, -, hiff⟩ := upload_handled_iff g hreads rfl hload (load_file hload 0).1
    have hone : [Request.read MEM_ADDR].length = 1 := rfl
    rw [hone] at hp hiff
    simp only [hp, Option.map_some, h0, hinvalid, false_or, reduceCtorEq, Option.some.injEq,
      exists_eq_left']
    exact (handled_globals _).trans hiff

end Android

section Check

variable {lzma : Bool} {d : Device} {g : Globals} {o : Outcome} {dst : Bytes}

theorem not_uploads {err : ℤ} {reads : List Request} {loaded : Bool} {freed : ℕ}
    (hplain : reads.filterMap Request.write? = []) :
    ¬ Outcome.uploads ⟨err, reads, loaded, freed, g⟩ := by
  rintro ⟨r, hr, hwrite⟩
  rw [List.filterMap_eq_nil_iff.mp hplain r hr] at hwrite
  exact absurd hwrite (by decide)

theorem headReads_plain (lzma : Bool) : (headReads lzma).filterMap Request.write? = [] := by
  cases lzma <;> rfl

theorem headReads_fine (h0 : d.ret 0 = 0) (h1 : d.ret 1 = 0) (h2 : ¬ (lzma = false ∧ d.ret 2 ≠ 0)) :
    ∀ j < (headReads lzma).length, d.ret j = 0 := by
  intro j hj
  cases lzma with
  | true =>
    have hj2 : j < 2 := hj
    interval_cases j <;> assumption
  | false =>
    have hj3 : j < 3 := hj
    have h2 : d.ret 2 = 0 := not_not.mp fun h => h2 ⟨rfl, h⟩
    interval_cases j <;> assumption

variable {addr : Word} {n i k : ℕ}

def readAt (addr : Word) (i : ℕ) : Word := addr+BitVec.ofNat 32 (i*4)

theorem readFlash_ok (h : ∀ j < n, d.ret (k+j) = 0) :
    readFlash d addr n i k = (0, (List.range' i n).map fun i => .read (readAt addr i),
      (List.range' i n).map fun i => d.flash (readAt addr i)) := by
  induction n generalizing i k with
  | zero => rfl
  | succ n ih =>
    have hk : d.ret k = 0 := h 0 (Nat.succ_pos n)
    have hrest : ∀ j < n, d.ret (k+1+j) = 0 := fun j hj => by
      have hnext := h (j+1) (Nat.succ_lt_succ hj)
      rwa [Nat.add_assoc, Nat.add_comm 1 j]
    rw [readFlash, if_neg (not_not.mpr hk), ih hrest]
    rfl

theorem readFlash_fails (h : ¬ ∀ j < n, d.ret (k+j) = 0) : (readFlash d addr n i k).1 ≠ 0 := by
  induction n generalizing i k with
  | zero => exact absurd (fun j hj => absurd hj (Nat.not_lt_zero j)) h
  | succ n ih =>
    rw [readFlash]
    by_cases hk : d.ret k ≠ 0
    · rwa [if_pos hk]
    · rw [if_neg hk]
      refine ih fun hrest => h fun j hj => ?_
      cases j with
      | zero => exact not_not.mp hk
      | succ j =>
        have hnext := hrest j (Nat.lt_of_succ_lt_succ hj)
        rwa [Nat.add_assoc, Nat.add_comm 1 j] at hnext

theorem word_inside {w : Word} (h : word dst i = some w) : 4*i+4 ≤ dst.length := by
  by_contra hout
  rw [FirmwareUpload.word_of_lt (by omega)] at h
  cases h

/-- An upload that should be made is right exactly if it is handled. -/
theorem upload_right {reads : List Request} (hreads : ∀ j < reads.length, d.ret j = 0)
    (hplain : reads.filterMap Request.write? = []) (hload : rwnxLoadFirmware d = some dst)
    (hi : i < dst.length) (hdue : UploadDue lzma d) :
    (∃ o, (otaUpload dst d.ret i reads.length).map (finish reads g) = some o ∧ Handled d o ∧
      Decided lzma d o) ↔ UploadFine d dst i reads.length := by
  obtain ⟨p, hp, huploads, hiff⟩ := upload_handled_iff g hreads hplain hload hi
  rw [hp, Option.map_some, ← hiff]
  constructor
  · rintro ⟨o, ho, hhandled, -⟩
    rwa [Option.some.inj ho]
  · exact fun h => ⟨_, rfl, h, fun _ => hdue, fun _ => .inl huploads⟩

/-- A way out that keeps the buffer. -/
theorem kept_wrong {err : ℤ} {reads : List Request} :
    ¬ ∃ o, some (Outcome.mk err reads true 0 g) = some o ∧ Handled d o ∧ Decided lzma d o := by
  rintro ⟨o, ho, hhandled, -⟩
  rw [← Option.some.inj ho] at hhandled
  exact not_handled_kept hhandled

theorem none_wrong {P : Outcome → Prop} : ¬ ∃ o, (none : Option Outcome) = some o ∧ P o := by
  rintro ⟨o, ho, -⟩
  cases ho

theorem old_right (hinvalid : d.flashInvalid = false) (hold : d.oldFormat lzma = true)
    (hreads : ∀ j < (headReads lzma).length, d.ret j = 0)
    (hload : rwnxLoadFirmware d = some dst) :
    (∃ o, checkOld lzma d g dst = some o ∧ Handled d o ∧ Decided lzma d o) ↔
      OldFine lzma d dst := by
  unfold checkOld OldFine CarriesVersion
  cases hstart : word dst (driverCodeStartIdx lzma) with
  | none => exact iff_of_false none_wrong fun h => by obtain ⟨⟨_, h⟩, -⟩ := h; cases h
  | some start =>
    cases hver : word dst (driverSdkVerIdx lzma) with
    | none => exact iff_of_false none_wrong fun h => by obtain ⟨-, ⟨_, h, -⟩, -⟩ := h; cases h
    | some ver =>
      simp only [Option.bind_some, Option.some.injEq, exists_eq', true_and, exists_eq_left']
      by_cases hblank : ver = 0xffffffff
      · rw [if_pos hblank]
        exact iff_of_false kept_wrong fun h => h.1 hblank
      · have hdue : UploadDue lzma d := ⟨hinvalid, dst, hload, ⟨ver, hver, hblank⟩, .inl hold⟩
        rw [if_neg hblank,
          upload_right hreads (headReads_plain lzma) hload (load_file hload 0).1 hdue]
        exact ⟨fun h => ⟨hblank, h⟩, And.right⟩

theorem version_right {reads : List Request} (hinvalid : d.flashInvalid = false)
    (hreads : ∀ j < reads.length, d.ret j = 0) (hplain : reads.filterMap Request.write? = [])
    (hload : rwnxLoadFirmware d = some dst) :
    (∃ o, checkVersion lzma d g dst reads (d.flashVersion lzma) = some o ∧ Handled d o ∧
      Decided lzma d o) ↔
    0 ∈ (d.flashVersion lzma).flatMap bytesOf ∧
    (∃ start ver ws, word dst (driverCodeStartIdx lzma) = some start ∧
      word dst (driverSdkVerIdx lzma) = some ver ∧ ver ≠ 0xffffffff ∧
      driverSdkVerAddrIdx lzma start ver ≠ 0 ∧
      readWords dst (driverSdkVerAddrIdx lzma start ver) 16 = some ws ∧
      0 ∈ ws.flatMap bytesOf ∧ Differs ws (d.flashVersion lzma)) ∧
    UploadFine d dst 16 reads.length := by
  unfold checkVersion Differs
  by_cases hzero : 0 ∈ (d.flashVersion lzma).flatMap bytesOf
  swap
  · rw [if_pos hzero]
    exact iff_of_false none_wrong fun h => hzero h.1
  rw [if_neg (not_not.mpr hzero)]
  cases hstart : word dst (driverCodeStartIdx lzma) with
  | none => exact iff_of_false none_wrong fun h => by obtain ⟨-, ⟨_, _, _, h, -⟩, -⟩ := h; cases h
  | some start =>
    cases hver : word dst (driverSdkVerIdx lzma) with
    | none =>
      exact iff_of_false none_wrong fun h => by obtain ⟨-, ⟨_, _, _, -, h, -⟩, -⟩ := h; cases h
    | some ver =>
      simp only [Option.bind_some, Option.some.injEq, hzero, true_and, exists_and_left,
        exists_eq_left']
      by_cases hblank : ver = 0xffffffff
      · rw [if_pos hblank]
        exact iff_of_false kept_wrong fun h => h.1.1 hblank
      by_cases hidx : driverSdkVerAddrIdx lzma start ver = 0
      · rw [if_neg hblank, if_pos hidx]
        exact iff_of_false kept_wrong fun h => h.1.2.1 hidx
      rw [if_neg hblank, if_neg hidx]
      cases hws : readWords dst (driverSdkVerAddrIdx lzma start ver) 16 with
      | none =>
        exact iff_of_false none_wrong fun h => by obtain ⟨⟨-, -, _, h, -⟩, -⟩ := h; cases h
      | some ws =>
        simp only [Option.bind_some, Option.some.injEq, exists_eq_left']
        by_cases hend : 0 ∈ ws.flatMap bytesOf
        swap
        · rw [if_pos hend]
          exact iff_of_false none_wrong fun h => hend h.1.2.2.1
        by_cases hsame :
          cString (ws.flatMap bytesOf) = cString ((d.flashVersion lzma).flatMap bytesOf)
        · rw [if_neg (not_not.mpr hend), if_pos hsame]
          exact iff_of_false kept_wrong fun h => h.1.2.2.2 hsame
        have hfile : otaVersion lzma dst = some ws := by
          rw [otaVersion, hstart, Option.bind_some, hver, Option.bind_some, hws]
        have hdue : UploadDue lzma d :=
          ⟨hinvalid, dst, hload, ⟨ver, hver, hblank⟩, .inr ⟨ws, hfile, hsame⟩⟩
        have hlong : 16 < dst.length := by
          have hin := word_inside hver
          have hfar : 4 ≤ driverSdkVerIdx lzma := by cases lzma <;> decide
          omega
        rw [if_neg (not_not.mpr hend), if_neg hsame, upload_right hreads hplain hload hlong hdue]
        exact ⟨fun h => ⟨⟨hblank, hidx, hend, hsame⟩, h⟩, And.right⟩

theorem new_right (hinvalid : d.flashInvalid = false)
    (hreads : ∀ j < (headReads lzma).length, d.ret j = 0)
    (hload : rwnxLoadFirmware d = some dst) :
    (∃ o, checkNew lzma d g dst = some o ∧ Handled d o ∧ Decided lzma d o) ↔
      NewFine lzma d dst := by
  unfold checkNew NewFine
  by_cases hall : ∀ j < 16, d.ret ((headReads lzma).length+j) = 0
  · rw [readFlash_ok hall]
    have hflash : (List.range' 0 16).map (fun i => d.flash (readAt (d.sdkVerAddr lzma) i)) =
        d.flashVersion lzma := by
      rw [Device.flashVersion, List.range_eq_range']
      rfl
    have hplain : (headReads lzma++(List.range' 0 16).map fun i =>
        Request.read (readAt (d.sdkVerAddr lzma) i)).filterMap Request.write? = [] := by
      rw [List.filterMap_append, headReads_plain, List.filterMap_map]
      rfl
    have hlen : (headReads lzma++(List.range' 0 16).map fun i =>
        Request.read (readAt (d.sdkVerAddr lzma) i)).length = (headReads lzma).length+16 := by
      rw [List.length_append, List.length_map, List.length_range']
    have hfine : ∀ j < (headReads lzma++(List.range' 0 16).map fun i =>
        Request.read (readAt (d.sdkVerAddr lzma) i)).length, d.ret j = 0 := by
      rw [hlen]
      intro j hj
      by_cases hhead : j < (headReads lzma).length
      · exact hreads j hhead
      · obtain ⟨i, rfl⟩ := Nat.exists_eq_add_of_le (Nat.not_lt.mp hhead)
        exact hall i (by omega)
    simp only [ne_eq, not_true_eq_false, if_false, hflash]
    rw [version_right hinvalid hfine hplain hload, hlen]
    exact ⟨fun h => ⟨hall, h⟩, And.right⟩
  · refine iff_of_false ?_ fun h => hall h.1
    simp only [if_pos (readFlash_fails hall)]
    exact kept_wrong

theorem decided_reads {err : ℤ} {reads : List Request}
    (hplain : reads.filterMap Request.write? = [])
    (h : UploadDue lzma d → ∃ j, j+1 = reads.length ∧ d.ret j ≠ 0) :
    Decided lzma d ⟨err, reads, false, 0, g⟩ :=
  ⟨fun hup => absurd hup (not_uploads hplain), fun hdue => .inr (h hdue)⟩

/-- A request in front of the file fails. -/
theorem fails_right {reads : List Request} {last : ℕ} (hlen : reads.length = last+1)
    (hplain : reads.filterMap Request.write? = []) (hbefore : ∀ j < last, d.ret j = 0)
    (hlast : d.ret last ≠ 0) :
    Handled d ⟨d.ret last, reads, false, 0, g⟩ ∧
      Decided lzma d ⟨d.ret last, reads, false, 0, g⟩ := by
  refine ⟨handled_unloaded _ g hlast fun j hj hfail => ?_,
    decided_reads hplain fun _ => ⟨last, hlen.symm, hlast⟩⟩
  have hge : last ≤ j := Nat.not_lt.mp fun hlt => hfail (hbefore j hlt)
  obtain rfl : j = last := by omega
  exact ⟨hlen.symm, rfl⟩

/-- Every request in front of the file has succeeded, and there is no reason to upload. -/
theorem refused_right {reads : List Request} (hreads : ∀ j < reads.length, d.ret j = 0)
    (hplain : reads.filterMap Request.write? = []) (hdue : ¬ UploadDue lzma d) :
    Handled d ⟨-1, reads, false, 0, g⟩ ∧ Decided lzma d ⟨-1, reads, false, 0, g⟩ :=
  ⟨handled_unloaded _ g (by decide) fun j hj hfail => absurd (hreads j hj) hfail,
    decided_reads hplain fun h => absurd h hdue⟩

theorem check_right_iff : CheckRight lzma d g ↔ CheckFine lzma d := by
  unfold CheckRight CheckFine rwnxPlatM2dFlashOtaCheck
  by_cases h0 : d.ret 0 ≠ 0
  · exact iff_of_true ⟨_, if_pos h0, fails_right rfl rfl (by simp) h0⟩ (.inl h0)
  have hzero : d.ret 0 = 0 := not_not.mp h0
  by_cases hinvalid : d.flashInvalid = true
  · have hdue : ¬ UploadDue lzma d := fun h => absurd hinvalid (by simp [h.1])
    exact iff_of_true ⟨_, (if_neg h0).trans (if_pos hinvalid),
      refused_right (first_fine hzero) rfl hdue⟩ (.inr (.inl hinvalid))
  by_cases h1 : d.ret 1 ≠ 0
  · have hbefore : ∀ j < 1, d.ret j = 0 := fun j hj => Nat.lt_one_iff.mp hj ▸ hzero
    exact iff_of_true ⟨_, (if_neg h0).trans ((if_neg hinvalid).trans (if_pos h1)),
      fails_right rfl rfl hbefore h1⟩ (.inr (.inr (.inl h1)))
  have hone : d.ret 1 = 0 := not_not.mp h1
  by_cases h2 : lzma = false ∧ d.ret 2 ≠ 0
  · obtain ⟨rfl, h2⟩ := h2
    have hbefore : ∀ j < 2, d.ret j = 0 := fun j hj => by interval_cases j <;> assumption
    refine iff_of_true ⟨⟨d.ret 2, headReads false, false, 0, g⟩, ?_,
      fails_right rfl (headReads_plain false) hbefore h2⟩ (.inr (.inr (.inr (.inl ⟨rfl, h2⟩))))
    rw [if_neg h0, if_neg hinvalid, if_neg h1, if_pos ⟨rfl, h2⟩]
  have hreads := headReads_fine hzero hone h2
  simp only [h0, hinvalid, h1, h2, if_false, Bool.false_eq_true, false_or]
  cases hload : rwnxLoadFirmware d with
  | none =>
    have hdue : ¬ UploadDue lzma d := fun h => by
      obtain ⟨-, dst, hdst, -⟩ := h
      rw [hload] at hdst
      cases hdst
    exact iff_of_true ⟨_, rfl, refused_right hreads (headReads_plain lzma) hdue⟩ (.inl rfl)
  | some dst =>
    have hvalid : d.flashInvalid = false := Bool.eq_false_iff.mpr hinvalid
    simp only [reduceCtorEq, false_or, Option.some.injEq, exists_eq_left']
    by_cases hold : d.oldFormat lzma = true
    · simp only [hold, if_true]
      exact old_right hvalid hold hreads hload
    · simp only [hold, if_false, Bool.false_eq_true]
      exact new_right hvalid hreads hload

variable (lzma d g) in
/-- **An update of the flash is right exactly on these runs.** -/
theorem updates_right_iff : (AndroidRight d g ↔ AndroidFine d) ∧
    (CheckRight lzma d g ↔ CheckFine lzma d) :=
  ⟨android_right_iff, check_right_iff⟩

/-- A file of 1025 bytes whose size is not taken. -/
def sizeRefused : Device where
  flash _ := 0
  ret k := if k = 1 then -110 else 0
  file := List.replicate 1025 0
  loads := true

/-- A file of one byte for a flash of the old version. -/
def shortFile : Device where
  flash a := if a = MEM_ADDR then 0 else 0xffffffff
  ret _ := 0
  file := [0]
  loads := true

theorem refused_size_lost : ¬ AndroidRight sizeRefused ⟨3, 3, []⟩ ∧
    ¬ CheckRight false shortFile ⟨0, 0, []⟩ := by
  constructor
  · have hload : rwnxLoadFirmware sizeRefused = some (List.replicate 1025 0) := by
      have hlen : sizeRefused.file.length = 1025 := List.length_replicate
      exact load_fits rfl (by omega) (by omega)
    have hvalid : sizeRefused.flashInvalid = false := by decide
    rw [android_right_iff]
    rintro (h | h | h | ⟨dst, hdst, hsize, -⟩)
    · exact h rfl
    · rw [hvalid] at h
      cases h
    · rw [hload] at h
      cases h
    · obtain rfl := Option.some.inj (hload.symm.trans hdst)
      have hlong : 1024 < (List.replicate 1025 (0 : UInt8)).length := by
        rw [List.length_replicate]
        decide
      exact absurd (hsize hlong) (by decide)
  · have hload : rwnxLoadFirmware shortFile = some [0] := by decide
    have hvalid : shortFile.flashInvalid = false := by decide
    have hold : shortFile.oldFormat false = true := by decide
    rw [check_right_iff]
    rintro (h | h | h | ⟨-, h⟩ | h | ⟨dst, hdst, hfine⟩)
    · exact h rfl
    · rw [hvalid] at h
      cases h
    · exact h rfl
    · exact h rfl
    · rw [hload] at h
      cases h
    · obtain rfl := Option.some.inj (hload.symm.trans hdst)
      rw [if_pos hold] at hfine
      obtain ⟨⟨w, hw⟩, -⟩ := hfine
      cases hw

end Check

end AIC.FlashUpdate
