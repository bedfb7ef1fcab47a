import Aic8800.BtPatchTable
import Aic8800.Lib.RequestRun

/-!
# Uploads of firmware files

An image goes to the chip in blocks of at most 1024 bytes, a patch table as the
block of its description and one request for each pair of words behind it. There
is no result where memory outside the file or the message is touched.
-/

set_option autoImplicit false

namespace AIC.FirmwareUpload
open AIC.BtPatchTable (Bytes Word Firmware le32 words)
open Lib.RequestRun

/-- The bytes that a message for a block write holds. -/
def BLOCK : ℕ := 1024

inductive Request where
  | block (addr : Word) (data : Bytes)
  | word (addr value : Word)
  deriving DecidableEq

/-- `rwnx_send_dbg_mem_block_write_req` up to the message that is sent. -/
def blockWrite (file : Bytes) (addr : Word) (off size : ℕ) : Option Request :=
  if BLOCK < size ∨ file.length < off+size then none
  else some (.block addr ((file.drop off).take size))

/-! ## The image -/

/-- The loop over the blocks of 1024 bytes. `k` counts the requests, and the result has with the
error the offset that the loop has come to. -/
def uploadBlocks (fwAddr : Word) (file : Bytes) (ret : ℕ → ℤ) :
    ℕ → ℕ → ℕ → Option (ℤ × ℕ × List Request)
  | 0, _, _ => none
  | fuel+1, i, k =>
    if i < file.length-1024 then
      (blockWrite file (fwAddr+BitVec.ofNat 32 i) i 1024).bind fun b =>
        if ret k ≠ 0 then some (ret k, i, [b])
        else (uploadBlocks fwAddr file ret fuel (i+1024) (k+1)).map fun (err, i, sent) =>
          (err, i, b::sent)
    else some (0, i, [])

/-- The last block, unless the loop has failed. -/
def uploadTail (fwAddr : Word) (file : Bytes) (ret : ℕ → ℤ) (k : ℕ) :
    ℤ × ℕ × List Request → Option (ℤ × List Request)
  | (err, i, sent) =>
    if err = 0 ∧ i < file.length then
      (blockWrite file (fwAddr+BitVec.ofNat 32 i) i (file.length-i)).map fun b =>
        (ret (k+sent.length), sent++[b])
    else some (err, sent)

/-- The file is empty where it cannot be loaded. -/
def rwnxPlatBinFwUploadAndroid (fwAddr : Word) (file : Bytes) (ret : ℕ → ℤ) :
    Option (ℤ × List Request) :=
  if file = [] then some (-1, [])
  else
    (if 1024 < file.length then uploadBlocks fwAddr file ret file.length 0 0
      else some (0, 0, [])).bind (uploadTail fwAddr file ret 0)

/-! ## The patch table -/

/-- `dst[i]` -/
def word (file : Bytes) (i : ℕ) : Option Word :=
  match file.drop (4*i) with
  | b0::b1::b2::b3::_ => some (le32 b0 b1 b2 b3)
  | _ => none

/-- The loop over the pairs of words, which goes on behind a request that has failed. -/
def uploadPairs (file : Bytes) (ret : ℕ → ℤ) :
    ℕ → ℕ → ℕ → ℤ → Option (ℤ × ℕ × List Request)
  | 0, _, _, _ => none
  | fuel+1, i, k, err =>
    if i < file.length/4 then
      (word file i).bind fun addr =>
        (word file (i+1)).bind fun value =>
          (uploadPairs file ret fuel (i+2) (k+1) (ret k)).map fun (err, i, sent) =>
            (err, i, .word addr value::sent)
    else some (err, i, [])

/-- Behind the loop an error is printed with the word that it has come to. The description is
printed as a string, from a copy without a zero of its own. -/
def aicwfPatchTableLoad (file : Bytes) (ret : ℕ → ℤ) : Option (ℤ × List Request) :=
  if file = [] then some (-1, [])
  else
    (word file 0).bind fun base =>
      (blockWrite file base 0 128).bind fun describe =>
        if 0 ∉ (file.take 128).drop 4 then none
        else if ret 0 ≠ 0 then some (ret 0, [describe])
        else
          (uploadPairs file ret file.length 32 1 0).bind fun (err, i, sent) =>
            if err ≠ 0 then (word file i).map fun _ => (err, describe::sent)
            else some (err, describe::sent)

/-! ## What is right -/

/-- Blocks at consecutive addresses. -/
def Covers : Word → List Request → Bytes → Prop
  | _, [], bs => bs = []
  | a, .block addr data::sent, bs => addr = a ∧ data.length ≤ BLOCK ∧
      ∃ rest, bs = data++rest ∧ Covers (a+BitVec.ofNat 32 data.length) sent rest
  | _, .word _ _::_, _ => False

/-- It stays inside, stops at the first request that fails and returns its error, and succeeds only
with the whole file. -/
def ImageRight (fwAddr : Word) (file : Bytes) (ret : ℕ → ℤ) : Prop :=
  ∃ r sent, rwnxPlatBinFwUploadAndroid fwAddr file ret = some (r, sent) ∧ Reported ret r sent ∧
    (r = 0 → Covers fwAddr sent file)

/-- The description, which begins with its address, and the pairs behind it. -/
def TableCovers (sent : List Request) (file : Bytes) : Prop :=
  128 ≤ file.length ∧ 8 ∣ file.length ∧ ∃ base, word file 0 = some base ∧
    sent = .block base (file.take 128)::(words (file.drop 128)).map fun p => .word p.1 p.2

def TableRight (file : Bytes) (ret : ℕ → ℤ) : Prop :=
  ∃ r sent, aicwfPatchTableLoad file ret = some (r, sent) ∧ Reported ret r sent ∧
    (r = 0 → TableCovers sent file)

/-- The table is not there; or it has a description that is a string, and either that cannot be
written, or whole pairs follow and every one of them can. -/
def Uploadable (file : Bytes) (ret : ℕ → ℤ) : Prop :=
  file = [] ∨ 128 ≤ file.length ∧ 0 ∈ (file.take 128).drop 4 ∧
    (ret 0 ≠ 0 ∨ 8 ∣ file.length ∧ ∀ j < (file.length-128)/8, ret (j+1) = 0)

/-! ## The image is right -/

section Image

variable {fwAddr : Word} {file : Bytes} {ret : ℕ → ℤ} {off size i k fuel : ℕ}

theorem blockWrite_eq (addr : Word) (hsize : size ≤ BLOCK) (hin : off+size ≤ file.length) :
    blockWrite file addr off size = some (.block addr ((file.drop off).take size)) :=
  if_neg (by omega)

theorem uploadTail_cons (k : ℕ) (b : Request) (p : ℤ × ℕ × List Request) :
    uploadTail fwAddr file ret k (p.1, p.2.1, b::p.2.2) =
      (uploadTail fwAddr file ret (k+1) p).map fun q => (q.1, b::q.2) := by
  obtain ⟨err, i, sent⟩ := p
  have hnumber : k+(sent.length+1) = k+1+sent.length := by omega
  simp only [uploadTail, List.length_cons, hnumber]
  split_ifs
  · rw [Option.map_map]
    rfl
  · rfl

theorem address_add (i n : ℕ) :
    fwAddr+BitVec.ofNat 32 (i+n) = fwAddr+BitVec.ofNat 32 i+BitVec.ofNat 32 n := by
  rw [BitVec.ofNat_add, BitVec.add_assoc]

/-- The last block of a file. -/
theorem uploadBlocks_last (hi : i < file.length) (hlast : file.length ≤ i+1024) :
    (uploadBlocks fwAddr file ret (fuel+1) i k).bind (uploadTail fwAddr file ret k) =
      some (run ret k [.block (fwAddr+BitVec.ofNat 32 i) (file.drop i)]) := by
  have hstop : ¬ i < file.length-1024 := by omega
  have hwhole : (file.drop i).take (file.length-i) = file.drop i :=
    List.take_of_length_le (by simp)
  have hsize : file.length-i ≤ BLOCK := by unfold BLOCK; omega
  have hblock := blockWrite_eq (fwAddr+BitVec.ofNat 32 i) hsize (by omega : i+_ ≤ file.length)
  rw [hwhole] at hblock
  rw [uploadBlocks, if_neg hstop, Option.bind_some, uploadTail, if_pos ⟨rfl, hi⟩, hblock,
    Option.map_some]
  by_cases hk : ret k = 0
  · rw [run_cons_ok hk]
    exact congrArg (fun r => some (r, _)) hk
  · rw [run_cons_fail hk]
    rfl

theorem uploadBlocks_next (hnext : i+1024 < file.length) :
    (uploadBlocks fwAddr file ret (fuel+1) i k).bind (uploadTail fwAddr file ret k) =
      if ret k ≠ 0 then
        some (ret k, [.block (fwAddr+BitVec.ofNat 32 i) ((file.drop i).take 1024)])
      else
        ((uploadBlocks fwAddr file ret fuel (i+1024) (k+1)).bind
          (uploadTail fwAddr file ret (k+1))).map fun q =>
            (q.1, .block (fwAddr+BitVec.ofNat 32 i) ((file.drop i).take 1024)::q.2) := by
  have hloop : i < file.length-1024 := by omega
  have hblock := blockWrite_eq (fwAddr+BitVec.ofNat 32 i) (le_refl BLOCK) hnext.le
  rw [uploadBlocks, if_pos hloop, show (1024 : ℕ) = BLOCK from rfl, hblock, Option.bind_some]
  split_ifs with hk
  · rw [Option.bind_some, uploadTail, if_neg fun h => hk h.1]
  · rw [Option.bind_map, Option.map_bind]
    exact congrArg _ (funext fun p => uploadTail_cons k _ p)

variable (fwAddr ret k) in
/-- From an offset inside the file on it is a run of blocks that cover what is left. -/
theorem uploadBlocks_run (hi : i < file.length) (hfuel : file.length ≤ i+fuel) :
    ∃ plan, plan ≠ [] ∧ Covers (fwAddr+BitVec.ofNat 32 i) plan (file.drop i) ∧
      (uploadBlocks fwAddr file ret fuel i k).bind (uploadTail fwAddr file ret k) =
        some (run ret k plan) := by
  induction fuel generalizing i k with
  | zero => omega
  | succ fuel ih =>
    by_cases hnext : i+1024 < file.length
    · obtain ⟨plan, -, hcovers, hrun⟩ := ih (k+1) hnext (by omega)
      have hfull : ((file.drop i).take 1024).length = 1024 := by
        rw [List.length_take, List.length_drop]
        omega
      refine ⟨.block (fwAddr+BitVec.ofNat 32 i) ((file.drop i).take 1024)::plan,
        List.cons_ne_nil _ _, ⟨rfl, hfull.le, file.drop (i+1024), ?_, ?_⟩, ?_⟩
      · rw [← List.drop_drop, List.take_append_drop]
      · rw [hfull, ← address_add]
        exact hcovers
      · rw [uploadBlocks_next hnext, hrun]
        by_cases hk : ret k = 0
        · rw [if_neg (not_not.mpr hk), run_cons_ok hk]
          rfl
        · rw [if_pos hk, run_cons_fail hk]
    · refine ⟨[.block (fwAddr+BitVec.ofNat 32 i) (file.drop i)], List.cons_ne_nil _ _,
        ⟨rfl, ?_, [], (List.append_nil _).symm, rfl⟩, uploadBlocks_last hi (by omega)⟩
      rw [List.length_drop]
      unfold BLOCK
      omega

variable (fwAddr file ret) in
theorem image_right : ImageRight fwAddr file ret := by
  unfold ImageRight rwnxPlatBinFwUploadAndroid
  by_cases hfile : file = []
  · rw [if_pos hfile]
    exact ⟨_, _, rfl, ⟨fun j hj => absurd hj (Nat.not_lt_zero _), fun h => absurd rfl h,
      fun _ => by decide⟩, fun h => absurd h (by decide)⟩
  · have hpos : 0 < file.length := List.length_pos_iff.mpr hfile
    obtain ⟨plan, hplan, hcovers, hrun⟩ := uploadBlocks_run fwAddr ret 0 hpos
      (by omega : file.length ≤ 0+file.length)
    have hsmall : (if 1024 < file.length then uploadBlocks fwAddr file ret file.length 0 0
        else some (0, 0, [])) = uploadBlocks fwAddr file ret file.length 0 0 := by
      split_ifs with hlarge
      · rfl
      · obtain ⟨n, hn⟩ := Nat.exists_eq_succ_of_ne_zero hpos.ne'
        rw [hn, uploadBlocks, if_neg (by omega)]
    rw [if_neg hfile, hsmall, hrun]
    refine ⟨_, _, rfl, run_reported hplan, fun hok => ?_⟩
    rw [run_complete 0 plan hok]
    simpa using hcovers

end Image

/-! ## The table -/

section Table

variable {file : Bytes} {ret : ℕ → ℤ} {i k m r fuel : ℕ} {err : ℤ}

theorem word_of_le (h : 4*i+4 ≤ file.length) : ∃ w, word file i = some w := by
  have hlen : 4 ≤ (file.drop (4*i)).length := by
    rw [List.length_drop]
    omega
  unfold word
  match file.drop (4*i), hlen with
  | b0::b1::b2::b3::_, _ => exact ⟨_, rfl⟩

theorem word_of_lt (h : file.length < 4*i+4) : word file i = none := by
  have hlen : (file.drop (4*i)).length < 4 := by
    rw [List.length_drop]
    omega
  unfold word
  match file.drop (4*i), hlen with
  | [], _ | [_], _ | [_, _], _ | [_, _, _], _ => rfl

/-- A pair that is inside the file. -/
theorem words_next (h : 4*i+8 ≤ file.length) :
    ∃ addr value, word file i = some addr ∧ word file (i+1) = some value ∧
      words (file.drop (4*i)) = (addr, value)::words (file.drop (4*(i+2))) := by
  have hlen : 8 ≤ (file.drop (4*i)).length := by
    rw [List.length_drop]
    omega
  have hvalue : file.drop (4*(i+1)) = (file.drop (4*i)).drop 4 := by
    rw [List.drop_drop]
    rfl
  have hrest : file.drop (4*(i+2)) = (file.drop (4*i)).drop 8 := by
    rw [List.drop_drop]
    rfl
  unfold word
  rw [hvalue, hrest]
  match file.drop (4*i), hlen with
  | a0::a1::a2::a3::v0::v1::v2::v3::bs, _ => exact ⟨_, _, rfl, rfl, rfl⟩

theorem words_short {bs : Bytes} (h : bs.length < 8) : words bs = [] := by
  unfold words
  split
  · simp at h
    omega
  · rfl

theorem uploadPairs_next {addr value : Word} (hi : i < file.length/4)
    (haddr : word file i = some addr) (hvalue : word file (i+1) = some value) :
    uploadPairs file ret (fuel+1) i k err =
      (uploadPairs file ret fuel (i+2) (k+1) (ret k)).map fun p =>
        (p.1, p.2.1, .word addr value::p.2.2) := by
  rw [uploadPairs, if_pos hi, haddr, Option.bind_some, hvalue, Option.bind_some]

/-- Every pair is sent, and the error that is left is that of the last one. -/
theorem uploadPairs_whole (hlen : file.length = 4*i+8*m+r) (hr : r < 4) (hfuel : m < fuel) :
    uploadPairs file ret fuel i k err =
      some (if m = 0 then err else ret (k+m-1), i+2*m,
        (words (file.drop (4*i))).map fun p => .word p.1 p.2) := by
  induction m generalizing i k err fuel with
  | zero =>
    obtain ⟨fuel, rfl⟩ := Nat.exists_eq_succ_of_ne_zero hfuel.ne'
    have hshort : (file.drop (4*i)).length < 8 := by
      rw [List.length_drop]
      omega
    rw [uploadPairs, if_neg (by omega), words_short hshort]
    rfl
  | succ m ih =>
    obtain ⟨fuel, rfl⟩ := Nat.exists_eq_succ_of_ne_zero (by omega : fuel ≠ 0)
    obtain ⟨addr, value, haddr, hvalue, hwords⟩ := words_next (by omega : 4*i+8 ≤ file.length)
    rw [uploadPairs_next (by omega) haddr hvalue,
      ih (by omega : file.length = 4*(i+2)+8*m+r) (by omega), hwords, Option.map_some,
      List.map_cons]
    have herr : (if m = 0 then ret k else ret (k+1+m-1)) = ret (k+(m+1)-1) := by
      split_ifs with hm
      · rw [hm]
        rfl
      · exact congrArg ret (by omega)
    have hend : i+2+2*m = i+2*(m+1) := by omega
    rw [herr, hend, if_neg (Nat.succ_ne_zero m)]

/-- The last pair is cut off behind its address. -/
theorem uploadPairs_cut (hlen : file.length = 4*i+8*m+r) (hr : 4 ≤ r) (hcut : r < 8) :
    uploadPairs file ret fuel i k err = none := by
  induction m generalizing i k err fuel with
  | zero =>
    cases fuel with
    | zero => rfl
    | succ fuel =>
      obtain ⟨addr, haddr⟩ := word_of_le (by omega : 4*i+4 ≤ file.length)
      rw [uploadPairs, if_pos (by omega), haddr, word_of_lt (by omega : file.length < 4*(i+1)+4)]
      rfl
  | succ m ih =>
    cases fuel with
    | zero => rfl
    | succ fuel =>
      obtain ⟨addr, value, haddr, hvalue, -⟩ := words_next (by omega : 4*i+8 ≤ file.length)
      rw [uploadPairs_next (by omega) haddr hvalue,
        ih (by omega : file.length = 4*(i+2)+8*m+r)]
      rfl

theorem words_count (hlen : file.length = 4*i+8*m+r) (hr : r < 8) :
    (words (file.drop (4*i))).length = m := by
  induction m generalizing i with
  | zero =>
    have hshort : (file.drop (4*i)).length < 8 := by
      rw [List.length_drop]
      omega
    rw [words_short hshort]
    rfl
  | succ m ih =>
    obtain ⟨addr, value, -, -, hwords⟩ := words_next (by omega : 4*i+8 ≤ file.length)
    rw [hwords, List.length_cons, ih (by omega : file.length = 4*(i+2)+8*m+r)]

/-- All requests of a table that is written to its end. -/
def tableRequests (base : Word) (file : Bytes) : List Request :=
  .block base (file.take 128)::(words (file.drop 128)).map fun p => .word p.1 p.2

theorem load_of_describe {base : Word} (hfile : 128 ≤ file.length)
    (hzero : 0 ∈ (file.take 128).drop 4) (hbase : word file 0 = some base) :
    aicwfPatchTableLoad file ret =
      if ret 0 ≠ 0 then some (ret 0, [.block base (file.take 128)])
      else
        (uploadPairs file ret file.length 32 1 0).bind fun p =>
          if p.1 ≠ 0 then (word file p.2.1).map fun _ => (p.1, .block base (file.take 128)::p.2.2)
          else some (p.1, .block base (file.take 128)::p.2.2) := by
  have hne : file ≠ [] := List.length_pos_iff.mp (by omega)
  have hwrite := blockWrite_eq base (by decide : 128 ≤ BLOCK) (by omega : 0+128 ≤ file.length)
  unfold aicwfPatchTableLoad
  rw [if_neg hne, hbase, Option.bind_some, hwrite, Option.bind_some, if_neg (not_not.mpr hzero)]
  rfl

/-- Behind the description there is a result only if no pair is cut off and the last one does not
fail, whatever the others do. -/
theorem load_pairs {base : Word} (hlen : file.length = 128+8*m+r) (hr : r < 8)
    (hzero : 0 ∈ (file.take 128).drop 4) (hbase : word file 0 = some base) (hok : ret 0 = 0) :
    aicwfPatchTableLoad file ret =
      if r < 4 ∧ ret m = 0 then some (0, tableRequests base file) else none := by
  rw [load_of_describe (by omega) hzero hbase, if_neg (not_not.mpr hok)]
  by_cases hcut : r < 4
  · have hlast : (if m = 0 then (0 : ℤ) else ret (1+m-1)) = ret m := by
      split_ifs with hm
      · rw [hm, hok]
      · exact congrArg ret (by omega)
    rw [uploadPairs_whole (by omega : file.length = 4*32+8*m+r) hcut (by omega), hlast,
      Option.bind_some]
    by_cases hm : ret m = 0
    · rw [if_neg (not_not.mpr hm), if_pos ⟨hcut, hm⟩, hm]
      rfl
    · rw [if_pos hm, if_neg fun h => hm h.2, word_of_lt (by omega : file.length < 4*(32+2*m)+4)]
      rfl
  · rw [uploadPairs_cut (by omega : file.length = 4*32+8*m+r) (by omega) hr,
      if_neg fun h => hcut h.1]
    rfl

theorem load_none (hfile : file ≠ [])
    (h : ¬ (128 ≤ file.length ∧ 0 ∈ (file.take 128).drop 4)) :
    aicwfPatchTableLoad file ret = none := by
  unfold aicwfPatchTableLoad
  rw [if_neg hfile]
  cases hbase : word file 0 with
  | none => rfl
  | some base =>
    rw [Option.bind_some]
    by_cases hlen : 128 ≤ file.length
    · rw [blockWrite_eq base (by decide : 128 ≤ BLOCK) (by omega : 0+128 ≤ file.length),
        Option.bind_some, if_pos fun hzero => h ⟨hlen, hzero⟩]
    · rw [blockWrite, if_pos (by omega)]
      rfl

theorem reported_first {x : Request} : Reported ret (ret 0) [x] where
  stops j hj := absurd hj (by simp)
  last _ := rfl
  none hno := absurd hno (List.cons_ne_nil _ _)

theorem reported_table {base : Word} (hlen : file.length = 128+8*m+r) (hr : r < 8)
    (hm : ret m = 0) :
    Reported ret 0 (tableRequests base file) ↔ ∀ j < m, ret j = 0 := by
  have hcount : (tableRequests base file).length = m+1 := by
    have hwords := words_count (by omega : file.length = 4*32+8*m+r) hr
    rw [tableRequests, List.length_cons, List.length_map, hwords]
  constructor
  · intro h j hj
    exact h.stops j (by omega)
  · intro h
    refine ⟨fun j hj => h j (by omega), fun _ => ?_, fun hno => absurd hno (List.cons_ne_nil _ _)⟩
    rw [hcount]
    exact hm.symm

theorem table_right_pairs (hlen : file.length = 128+8*m+r) (hr : r < 8)
    (hzero : 0 ∈ (file.take 128).drop 4) (hok : ret 0 = 0) :
    TableRight file ret ↔ 8 ∣ file.length ∧ ∀ j < m, ret (j+1) = 0 := by
  obtain ⟨base, hbase⟩ := word_of_le (by omega : 4*0+4 ≤ file.length)
  unfold TableRight
  rw [load_pairs hlen hr hzero hbase hok]
  constructor
  · rintro ⟨res, sent, hrun, hreported, hcovers⟩
    split_ifs at hrun with hdone
    obtain ⟨rfl, rfl⟩ := Prod.mk.inj (Option.some.inj hrun)
    refine ⟨(hcovers rfl).2.1, fun j hj => ?_⟩
    by_cases hlast : j+1 = m
    · rw [hlast]
      exact hdone.2
    · exact (reported_table hlen hr hdone.2).mp hreported (j+1) (by omega)
  · rintro ⟨hwhole, hall⟩
    have hr0 : r = 0 := by omega
    have hevery : ∀ j ≤ m, ret j = 0 := fun j hj => by
      cases j with
      | zero => exact hok
      | succ j => exact hall j hj
    refine ⟨0, tableRequests base file, if_pos ⟨by omega, hevery m le_rfl⟩,
      (reported_table hlen hr (hevery m le_rfl)).mpr fun j hj => hevery j hj.le, fun _ => ?_⟩
    exact ⟨by omega, hwhole, base, hbase, rfl⟩

theorem table_right_iff : TableRight file ret ↔ Uploadable file ret := by
  by_cases hfile : file = []
  · refine iff_of_true ⟨-1, [], if_pos hfile, ?_, fun h => absurd h (by decide)⟩ (Or.inl hfile)
    exact ⟨fun j hj => absurd hj (Nat.not_lt_zero _), fun h => absurd rfl h, fun _ => by decide⟩
  by_cases hdescribe : 128 ≤ file.length ∧ 0 ∈ (file.take 128).drop 4
  · obtain ⟨hlen, hzero⟩ := hdescribe
    by_cases hok : ret 0 = 0
    · rw [table_right_pairs (m := (file.length-128)/8) (r := (file.length-128)%8) (by omega)
        (by omega) hzero hok]
      simp only [Uploadable, hfile, hlen, hzero, hok, ne_eq, not_true_eq_false, false_or, true_and]
    · obtain ⟨base, hbase⟩ := word_of_le (by omega : 4*0+4 ≤ file.length)
      refine iff_of_true ⟨ret 0, [.block base (file.take 128)], ?_, reported_first,
        fun h => absurd h hok⟩ (Or.inr ⟨hlen, hzero, Or.inl hok⟩)
      rw [load_of_describe hlen hzero hbase, if_pos hok]
  · refine iff_of_false ?_ ?_
    · rintro ⟨res, sent, hrun, -⟩
      rw [load_none hfile hdescribe] at hrun
      cases hrun
    · rintro (h | ⟨hlen, hzero, -⟩)
      · exact hfile h
      · exact hdescribe ⟨hlen, hzero⟩

end Table

/-- An image is always uploaded right. -/
theorem uploads_right_iff (fwAddr : Word) (image table : Firmware) (ret : ℕ → ℤ) :
    ImageRight fwAddr image.bytes ret ∧ TableRight table.bytes ret ↔
      Uploadable table.bytes ret := by
  rw [and_iff_right (image_right fwAddr image.bytes ret), table_right_iff]

def twoPairs : Firmware := ⟨List.replicate 144 0, by rw [List.length_replicate]; norm_num⟩

/-- The request for the first pair fails. -/
def firstPairFails (k : ℕ) : ℤ := if k = 1 then -1 else 0

theorem failed_pair_lost :
    (∃ sent, aicwfPatchTableLoad twoPairs.bytes firstPairFails = some (0, sent)) ∧
      ¬ (ImageRight 0 twoPairs.bytes firstPairFails ∧
        TableRight twoPairs.bytes firstPairFails) := by
  have hlen : twoPairs.bytes.length = 128+8*2+0 := List.length_replicate
  have hzero : 0 ∈ (twoPairs.bytes.take 128).drop 4 := by
    rw [twoPairs, List.take_replicate, List.drop_replicate]
    exact List.mem_replicate.mpr ⟨by decide, rfl⟩
  have hok : firstPairFails 0 = 0 := rfl
  obtain ⟨base, hbase⟩ := word_of_le (by omega : 4*0+4 ≤ twoPairs.bytes.length)
  refine ⟨⟨tableRequests base twoPairs.bytes, ?_⟩, fun h => ?_⟩
  · rw [load_pairs hlen (by decide) hzero hbase hok]
    rfl
  · have hall := ((table_right_pairs hlen (by decide) hzero hok).mp h.2).2
    exact absurd (hall 0 (by decide)) (by decide)

end AIC.FirmwareUpload
