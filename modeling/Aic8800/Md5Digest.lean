import Aic8800.Md5

/-!
# The digest of an input in parts

A context stands for the bytes that went in. Its counters hold their number of
bits, its state has absorbed the whole blocks and its buffer begins with the
rest. The specification pads the whole message and absorbs it at once.
-/

set_option autoImplicit false

namespace AIC.Md5Digest
open Lib.BlockStream AIC.Md5

/-! ## The specification -/

/-- The bytes of a number, the low ones first. -/
def leBytes (k n : ℕ) : List UInt8 := (List.range k).map fun i => UInt8.ofNat (n/256^i)

/-- Word `i` of a block, the low byte first. -/
def leWord (block : List UInt8) (i : ℕ) : UInt32 :=
  UInt32.ofNat ((List.range 4).map fun j => (block.getD (4*i+j) 0).toNat*256^j).sum

def compress (state : State) (block : List UInt8) : State :=
  state.add ((List.range 64).foldl (round (leWord block)) state)

/-- A one bit, zeros up to eight bytes before the end of a block, and the length in bits. -/
def padded (message : List UInt8) : List UInt8 :=
  message++0x80::List.replicate ((119-message.length % 64) % 64) 0++leBytes 8 (8*message.length)

def digest (message : List UInt8) : List UInt8 :=
  let state := absorb 64 compress initial (padded message)
  leBytes 4 state.a.toNat++leBytes 4 state.b.toNat++leBytes 4 state.c.toNat++
    leBytes 4 state.d.toNat

example : digest [0x61, 0x62, 0x63] =
    [0x90, 0x01, 0x50, 0x98, 0x3c, 0xd2, 0x4f, 0xb0, 0xd6, 0x96, 0x3f, 0x7d, 0x28, 0xe1, 0x7f,
      0x72] := by
  decide +kernel

/-! ## Words and bytes -/

theorem word_sum (p q r s : UInt8) :
    p.toUInt32 ||| (q.toUInt32 <<< 8) ||| (r.toUInt32 <<< 16) ||| (s.toUInt32 <<< 24) =
      UInt32.ofNat (p.toNat+q.toNat*256+r.toNat*256^2+s.toNat*256^3) := by
  have hp := p.toNat_lt
  have hq := q.toNat_lt
  have hr := r.toNat_lt
  have hs := s.toNat_lt
  have hor (x y k : ℕ) (hx : x < 2^k) : x ||| (y <<< k) = x+y*2^k := by
    rw [Nat.or_comm, ← Nat.shiftLeft_add_eq_or_of_lt hx, Nat.shiftLeft_eq, Nat.add_comm]
  have hmod (y k : ℕ) (hy : y < 2^8) (hk : k ≤ 24) : (y <<< k) % 2^32 = y <<< k := by
    refine Nat.mod_eq_of_lt ?_
    rw [Nat.shiftLeft_eq]
    calc y*2^k < 2^8*2^k := Nat.mul_lt_mul_of_pos_right hy (Nat.two_pow_pos k)
      _ ≤ 2^8*2^24 := Nat.mul_le_mul_left _ (Nat.pow_le_pow_right (by decide) hk)
  refine UInt32.toNat_inj.mp ?_
  simp only [UInt32.toNat_or, UInt32.toNat_shiftLeft, UInt8.toNat_toUInt32, UInt32.toNat_ofNat']
  rw [show UInt32.toNat 8 % 32 = 8 from rfl, show UInt32.toNat 16 % 32 = 16 from rfl,
    show UInt32.toNat 24 % 32 = 24 from rfl, hmod _ _ hq (by decide), hmod _ _ hr (by decide),
    hmod _ _ hs (by decide), hor _ _ 8 hp, hor _ _ 16 (by omega), hor _ _ 24 (by omega)]
  omega

theorem sum_four (f : ℕ → ℕ) :
    ((List.range 4).map f).sum = f 0+f 1+f 2+f 3 := by
  simp [List.range_succ, Nat.add_assoc]

theorem md5Decode_eq (block : List UInt8) : md5Decode block = leWord block := by
  funext i
  rw [leWord, sum_four, Nat.pow_zero, Nat.mul_one, Nat.pow_one]
  exact word_sum _ _ _ _

theorem md5Encode_word (w : UInt32) : md5Encode [w] = leBytes 4 w.toNat := by
  have hmask (n : ℕ) : n &&& 255 = n % 256 := Nat.and_two_pow_sub_one_eq_mod n 8
  have hbyte (k : UInt32) (e : ℕ) (hk : k.toNat = 8*e) (he : e < 4) :
      ((w >>> k) &&& 0xFF).toUInt8 = UInt8.ofNat (w.toNat/256^e) := by
    have hk32 : 8*e % 32 = 8*e := Nat.mod_eq_of_lt (by omega)
    refine UInt8.toNat_inj.mp ?_
    rw [UInt32.toNat_toUInt8, UInt32.toNat_and, UInt32.toNat_shiftRight, UInt8.toNat_ofNat', hk,
      hk32, Nat.shiftRight_eq_div_pow, Nat.pow_mul]
    exact (congrArg (· % 256) (hmask _)).trans (Nat.mod_mod _ _)
  have hfirst : (w &&& 0xFF).toUInt8 = UInt8.ofNat (w.toNat/256^0) := by
    rw [← hbyte 0 0 rfl (by decide)]
    simp
  rw [md5Encode, List.flatMap_cons, List.flatMap_nil, List.append_nil, hfirst,
    hbyte 8 1 rfl (by decide), hbyte 16 2 rfl (by decide), hbyte 24 3 rfl (by decide)]
  rfl

theorem md5Encode_cons (w : UInt32) (ws : List UInt32) :
    md5Encode (w::ws) = leBytes 4 w.toNat++md5Encode ws := by
  rw [← md5Encode_word, md5Encode, md5Encode, md5Encode, List.flatMap_cons, List.flatMap_cons,
    List.flatMap_nil, List.append_nil]

/-- Two words side by side are one number. -/
theorem leBytes_pair (lo hi : ℕ) (hlo : lo < 2^32) :
    leBytes 4 lo++leBytes 4 hi = leBytes 8 (lo+2^32*hi) := by
  have hlow (i : ℕ) (hi' : i < 4) : (lo+2^32*hi)/256^i % 256 = lo/256^i % 256 := by
    interval_cases i <;> omega
  have hhigh (i : ℕ) : (lo+2^32*hi)/256^(4+i) = hi/256^i := by
    rw [Nat.pow_add, ← Nat.div_div_eq_div_mul]
    congr 1
    omega
  have hcut : List.range 8 = List.range 4++(List.range 4).map (4+·) := by decide
  unfold leBytes
  rw [hcut, List.map_append, List.map_map]
  refine congrArg₂ _ (List.map_congr_left fun i hi' => ?_) (List.map_congr_left fun i _ => ?_)
  · refine UInt8.toNat_inj.mp ?_
    rw [UInt8.toNat_ofNat', UInt8.toNat_ofNat']
    exact (hlow i (List.mem_range.mp hi')).symm
  · exact congrArg UInt8.ofNat (hhigh i).symm

/-- Eight bytes hold a number up to 2^64. -/
theorem leBytes_mod (n : ℕ) : leBytes 8 (n % 2^64) = leBytes 8 n := by
  refine List.map_congr_left fun i hi => UInt8.toNat_inj.mp ?_
  have hi8 : i < 8 := List.mem_range.mp hi
  rw [UInt8.toNat_ofNat', UInt8.toNat_ofNat']
  interval_cases i <;> omega

theorem md5Transform_eq : md5Transform = compress := by
  funext state block
  rw [md5Transform_rounds, compress, md5Decode_eq]

/-! ## The loop over the blocks -/

theorem readBytes_some {input : List UInt8} {i len : ℕ} (h : i+len ≤ input.length) :
    readBytes input i len = some ((input.drop i).take len) := if_pos h

theorem copyIn_some (buffer : Buffer) (index : ℕ) (bytes : List UInt8)
    (h : index+bytes.length ≤ 64) : ∃ buffer', copyIn buffer index bytes = some buffer' ∧
      buffer'.val =
        buffer.val.take index++bytes++buffer.val.drop (index+bytes.length) := by
  rw [copyIn, dif_pos h]
  exact ⟨_, rfl, rfl⟩

theorem blockLoop_run {input : List UInt8} {inputlen : UInt32}
    (hlen : inputlen.toNat ≤ input.length) (hsize : inputlen.toNat < 2^32-64) (fuel : ℕ)
    (i : UInt32) (state : State) (hi : i.toNat ≤ inputlen.toNat)
    (hfuel : (inputlen.toNat-i.toNat)/64 < fuel) :
    ∃ stop, blockLoop input inputlen fuel i state =
        some (stop, absorb 64 md5Transform state ((input.take inputlen.toNat).drop i.toNat)) ∧
      stop.toNat = inputlen.toNat-(inputlen.toNat-i.toNat) % 64 := by
  induction fuel generalizing i state with
  | zero => omega
  | succ fuel ih =>
    have hnext : (i+64).toNat = i.toNat+64 := by
      rw [UInt32.toNat_add]
      exact Nat.mod_eq_of_lt (show i.toNat+64 < 2^32 by omega)
    have hcond : i+64 ≤ inputlen ↔ i.toNat+64 ≤ inputlen.toNat := by
      rw [UInt32.le_iff_toNat_le, hnext]
    rw [blockLoop]
    by_cases hmore : i.toNat+64 ≤ inputlen.toNat
    · obtain ⟨stop, hrun, hstop⟩ := ih (i+64)
        (md5Transform state ((input.drop i.toNat).take 64)) (by omega) (by omega)
      refine ⟨stop, ?_, by omega⟩
      -- The next block, and what is left behind it.
      have hcut : (input.take inputlen.toNat).drop i.toNat =
          (input.drop i.toNat).take 64++(input.take inputlen.toNat).drop (i.toNat+64) := by
        rw [← List.drop_drop, List.drop_take]
        refine ((List.take_append_drop 64 _).symm).trans ?_
        rw [List.take_take, Nat.min_eq_left (by omega)]
      have hblock : ((input.drop i.toNat).take 64).length = 64 := by
        rw [List.length_take, List.length_drop]
        omega
      rw [if_pos (hcond.mpr hmore), readBytes_some (by omega), Option.bind_some, hrun, hnext, hcut,
        absorb_block (by decide) md5Transform state hblock]
    · refine ⟨i, ?_, by omega⟩
      rw [if_neg fun h => hmore (hcond.mp h), absorb_short]
      rw [List.length_drop, List.length_take]
      omega

/-! ## The context and the bytes it stands for -/

structure Represents (context : Ctx) (message : List UInt8) : Prop where
  count : context.count0.toNat+2^32*context.count1.toNat = 8*message.length % 2^64
  state : context.state = absorb 64 md5Transform initial message
  buffer : context.buffer.val.take (message.length % 64) = rest 64 message

theorem represents_init (context : Ctx) : Represents (md5Init context) [] := ⟨rfl, rfl, rfl⟩

variable {context : Ctx} {message : List UInt8}

theorem Represents.index_eq (h : Represents context message) :
    context.index.toNat = message.length % 64 := by
  have hmask : context.count0.toNat >>> 3 &&& 63 = context.count0.toNat >>> 3 % 64 :=
    Nat.and_two_pow_sub_one_eq_mod _ 6
  have hcount := h.count
  rw [Ctx.index, UInt32.toNat_and, UInt32.toNat_shiftRight]
  refine hmask.trans ?_
  rw [Nat.shiftRight_eq_div_pow]
  omega

/-- The two words count on as one number of 64 bits. -/
theorem counted_sum (context : Ctx) (inputlen : UInt32) :
    (context.counted inputlen).count0.toNat+2^32*(context.counted inputlen).count1.toNat =
      (context.count0.toNat+2^32*context.count1.toNat+8*inputlen.toNat) % 2^64 := by
  have hlow : (inputlen <<< 3).toNat = inputlen.toNat*8 % 2^32 := by
    rw [UInt32.toNat_shiftLeft, Nat.shiftLeft_eq]
    rfl
  have hhigh : (inputlen >>> 29).toNat = inputlen.toNat/2^29 := by
    rw [UInt32.toNat_shiftRight, Nat.shiftRight_eq_div_pow]
    rfl
  have h0 := context.count0.toNat_lt
  have h1 := context.count1.toNat_lt
  have hn := inputlen.toNat_lt
  have hsum : (context.count0+(inputlen <<< 3)).toNat =
      (context.count0.toNat+inputlen.toNat*8 % 2^32) % 2^32 := by
    rw [UInt32.toNat_add, hlow]
  -- The low word has wrapped exactly where it is below what was added.
  have hcarry : context.count0+(inputlen <<< 3) < inputlen <<< 3 ↔
      2^32 ≤ context.count0.toNat+inputlen.toNat*8 % 2^32 := by
    rw [UInt32.lt_iff_toNat_lt, hsum, hlow]
    omega
  simp only [Ctx.counted]
  by_cases h : 2^32 ≤ context.count0.toNat+inputlen.toNat*8 % 2^32
  · rw [if_pos (hcarry.mpr h), hsum, UInt32.toNat_add, UInt32.toNat_add, hhigh, UInt32.toNat_one]
    omega
  · rw [if_neg fun hc => h (hcarry.mp hc), hsum, UInt32.toNat_add, hhigh]
    omega

theorem Represents.counted (h : Represents context message) {input : List UInt8}
    {inputlen : UInt32} (hlen : inputlen.toNat ≤ input.length) :
    (context.counted inputlen).count0.toNat+2^32*(context.counted inputlen).count1.toNat =
      8*(message++input.take inputlen.toNat).length % 2^64 := by
  rw [counted_sum, h.count, List.length_append, List.length_take, Nat.min_eq_left hlen]
  omega

theorem Represents.partlen_eq (h : Represents context message) :
    (64-context.index).toNat = 64-message.length % 64 := by
  have hle : context.index ≤ 64 := by
    rw [UInt32.le_iff_toNat_le, h.index_eq]
    exact Nat.le_of_lt (Nat.mod_lt _ (by decide))
  rw [UInt32.toNat_sub_of_le _ _ hle, h.index_eq]
  rfl

/-- The bytes fit behind what the buffer holds. -/
theorem update_short (h : Represents context message) {input : List UInt8} {inputlen : UInt32}
    (hlen : inputlen.toNat ≤ input.length) (hshort : message.length % 64+inputlen.toNat < 64) :
    ∃ context', md5Update context input inputlen = some context' ∧
      Represents context' (message++input.take inputlen.toNat) := by
  have hneg : ¬ 64-context.index ≤ inputlen := by
    rw [UInt32.le_iff_toNat_le, h.partlen_eq]
    omega
  have htake : (input.take inputlen.toNat).length = inputlen.toNat := by
    rw [List.length_take, Nat.min_eq_left hlen]
  have hrest : (rest 64 message).length = message.length % 64 := rest_length
  obtain ⟨buffer, hcopy, hval⟩ := copyIn_some context.buffer context.index.toNat
    (input.take inputlen.toNat) (by rw [h.index_eq]; omega)
  refine ⟨{ context.counted inputlen with buffer := buffer }, ?_, ?_⟩
  · have hread : readBytes input 0 inputlen.toNat = some (input.take inputlen.toNat) :=
      readBytes_some (by omega)
    simp only [md5Update, if_neg hneg, hread, Option.bind_eq_bind, Option.bind_some, Ctx.counted,
      hcopy]
  · have hnew : rest 64 (message++input.take inputlen.toNat) =
        rest 64 message++input.take inputlen.toNat := by
      rw [rest_carry (by decide), rest_short]
      rw [List.length_append]
      omega
    refine ⟨h.counted hlen, ?_, ?_⟩
    · rw [absorb_append (by decide), absorb_short, ← h.state]
      · rfl
      · rw [List.length_append]
        omega
    · have hlength : (message++input.take inputlen.toNat).length % 64 =
          message.length % 64+inputlen.toNat := by
        rw [List.length_append]
        omega
      rw [hlength, hnew, hval, h.index_eq, h.buffer, List.take_left']
      rw [List.length_append]
      omega

/-- The buffer is filled, the blocks behind it are taken from the input and what is left
goes to the front of the buffer. -/
theorem update_full (h : Represents context message) {input : List UInt8} {inputlen : UInt32}
    (hlen : inputlen.toNat ≤ input.length) (hsize : inputlen.toNat < 2^32-64)
    (hfull : 64 ≤ message.length % 64+inputlen.toNat) :
    ∃ context', md5Update context input inputlen = some context' ∧
      Represents context' (message++input.take inputlen.toNat) := by
  have hpart := h.partlen_eq
  have hpos : 64-context.index ≤ inputlen := by
    rw [UInt32.le_iff_toNat_le, hpart]
    omega
  have hrest : (rest 64 message).length = message.length % 64 := rest_length
  have hmod : message.length % 64 < 64 := Nat.mod_lt _ (by decide)
  have htake : (input.take inputlen.toNat).length = inputlen.toNat := by
    rw [List.length_take, Nat.min_eq_left hlen]
  have hhead : (input.take (64-message.length % 64)).length = 64-message.length % 64 := by
    rw [List.length_take]
    omega
  have hread : readBytes input 0 (64-context.index).toNat =
      some (input.take (64-message.length % 64)) := by
    rw [hpart]
    exact readBytes_some (by omega)
  obtain ⟨buffer, hcopy, hval⟩ := copyIn_some context.buffer context.index.toNat
    (input.take (64-message.length % 64)) (by rw [h.index_eq]; omega)
  have hblock : buffer.val = rest 64 message++input.take (64-message.length % 64) := by
    rw [hval, h.index_eq, h.buffer, List.drop_eq_nil_of_le, List.append_nil]
    have hb := context.buffer.property
    omega
  obtain ⟨stop, hrun, hstop⟩ := blockLoop_run hlen hsize (inputlen.toNat/64+1)
    (64-context.index) (md5Transform context.state buffer.val) (by omega) (by omega)
  rw [hpart] at hrun hstop
  have hleft : (inputlen-stop).toNat = inputlen.toNat-stop.toNat :=
    UInt32.toNat_sub_of_le _ _ (UInt32.le_iff_toNat_le.mpr (by omega))
  have htail : readBytes input stop.toNat (inputlen-stop).toNat =
      some ((input.take inputlen.toNat).drop stop.toNat) := by
    rw [hleft, readBytes_some (by omega), List.drop_take]
  obtain ⟨last, hlast, hlastval⟩ := copyIn_some buffer 0
    ((input.take inputlen.toNat).drop stop.toNat)
    (by rw [List.length_drop, htake]; omega)
  -- The input behind the head.
  have hcut : input.take inputlen.toNat = input.take (64-message.length % 64)++
      (input.take inputlen.toNat).drop (64-message.length % 64) := by
    refine ((List.take_append_drop (64-message.length % 64) _).symm).trans ?_
    rw [List.take_take, Nat.min_eq_left (by omega)]
  have hfirst : (rest 64 message++input.take (64-message.length % 64)).length = 64 := by
    rw [List.length_append]
    omega
  have hdvd : 64 ∣ (rest 64 message++input.take (64-message.length % 64)).length :=
    ⟨1, hfirst⟩
  have hsplit : rest 64 message++input.take inputlen.toNat =
      (rest 64 message++input.take (64-message.length % 64))++
        (input.take inputlen.toNat).drop (64-message.length % 64) := by
    rw [List.append_assoc, ← hcut]
  refine ⟨{ context.counted inputlen with
    state := absorb 64 md5Transform (md5Transform context.state buffer.val)
      ((input.take inputlen.toNat).drop (64-message.length % 64))
    buffer := last }, ?_, h.counted hlen, ?_, ?_⟩
  · simp only [md5Update, if_pos hpos, hread, Option.bind_eq_bind, Option.bind_some, Ctx.counted,
      hcopy, hrun, htail, hlast]
  · rw [absorb_append (by decide), hsplit, absorb_block (by decide) _ _ hfirst, ← h.state, hblock]
  · have hdrop : rest 64 (message++input.take inputlen.toNat) =
        (input.take inputlen.toNat).drop stop.toNat := by
      rw [rest_carry (by decide), hsplit, rest_append (by decide) hdvd, rest,
        List.drop_drop, List.length_drop, htake]
      congr 1
      omega
    have hlength : (message++input.take inputlen.toNat).length % 64 =
        ((input.take inputlen.toNat).drop stop.toNat).length := by
      rw [List.length_append, List.length_drop, htake]
      omega
    rw [hdrop, hlength, hlastval, List.take_zero, List.nil_append, List.take_left']
    rfl

theorem md5Update_represents (h : Represents context message) (input : List UInt8)
    (inputlen : UInt32) (hlen : inputlen.toNat ≤ input.length)
    (hsize : inputlen.toNat < 2^32-64) :
    ∃ context', md5Update context input inputlen = some context' ∧
      Represents context' (message++input.take inputlen.toNat) := by
  by_cases hshort : message.length % 64+inputlen.toNat < 64
  · exact update_short h hlen hshort
  · exact update_full h hlen hsize (by omega)

theorem updates_represents (h : Represents context message) {chunks : List (List UInt8)}
    (hsize : ∀ chunk ∈ chunks, chunk.length < 2^32-64) :
    ∃ context', chunks.foldlM (fun c chunk => md5Update c chunk (UInt32.ofNat chunk.length))
        context = some context' ∧ Represents context' (message++chunks.flatten) := by
  induction chunks generalizing context message with
  | nil => exact ⟨context, rfl, by rwa [List.flatten_nil, List.append_nil]⟩
  | cons chunk chunks ih =>
    have hchunk := hsize chunk List.mem_cons_self
    have hnat : (UInt32.ofNat chunk.length).toNat = chunk.length :=
      UInt32.toNat_ofNat_of_lt' (by change chunk.length < 2^32; omega)
    obtain ⟨next, hrun, hnext⟩ := md5Update_represents h chunk
      (UInt32.ofNat chunk.length) (by omega) (by omega)
    rw [hnat, List.take_length] at hnext
    obtain ⟨last, hall, hlast⟩ := ih hnext fun c hc => hsize c (List.mem_cons_of_mem _ hc)
    refine ⟨last, ?_, by rwa [List.flatten_cons, ← List.append_assoc]⟩
    rw [List.foldlM_cons, hrun]
    exact hall

/-! ## The end of the message -/

theorem padding_take (z : ℕ) (hz : z ≤ 63) :
    padding.take (z+1) = 0x80::List.replicate z 0 := by
  rw [padding, List.take_succ_cons, List.take_replicate, Nat.min_eq_left hz]

theorem represents_final (h : Represents context message) :
    md5Final context = some (digest message) := by
  have hindex := h.index_eq
  have hmod : message.length % 64 < 64 := Nat.mod_lt _ (by decide)
  let padlen : UInt32 := if context.index < 56 then 56-context.index else 120-context.index
  have hpadlen : padlen.toNat = (119-message.length % 64) % 64+1 := by
    by_cases hlow : context.index < 56
    · have hlow' : message.length % 64 < 56 := hindex ▸ UInt32.lt_iff_toNat_lt.mp hlow
      have hval : padlen = 56-context.index := if_pos hlow
      rw [hval, UInt32.toNat_sub_of_le _ _ (UInt32.le_of_lt hlow), hindex]
      change 56-_ = _
      omega
    · have hhigh : 56 ≤ message.length % 64 := by
        rw [UInt32.lt_iff_toNat_lt, hindex] at hlow
        exact Nat.le_of_not_lt hlow
      have hle : context.index ≤ 120 := by
        rw [UInt32.le_iff_toNat_le, hindex]
        change _ ≤ 120
        omega
      have hval : padlen = 120-context.index := if_neg hlow
      rw [hval, UInt32.toNat_sub_of_le _ _ hle, hindex]
      change 120-_ = _
      omega
  have hpad : padding.take padlen.toNat =
      0x80::List.replicate ((119-message.length % 64) % 64) 0 := by
    rw [hpadlen, padding_take _ (by omega)]
  have hbits : md5Encode [context.count0, context.count1] = leBytes 8 (8*message.length) := by
    rw [md5Encode_cons, md5Encode_word, leBytes_pair _ _ context.count0.toNat_lt, h.count,
      leBytes_mod]
  have hpadding : padding.length = 64 := rfl
  obtain ⟨c1, hrun1, h1⟩ := md5Update_represents h padding padlen
    (by omega) (by omega)
  rw [hpad] at h1
  obtain ⟨c2, hrun2, h2⟩ := md5Update_represents h1 (leBytes 8 (8*message.length))
    8 (by rfl) (by decide)
  have height : (leBytes 8 (8*message.length)).take (UInt32.toNat 8) =
      leBytes 8 (8*message.length) := by
    refine List.take_of_length_le ?_
    rw [leBytes, List.length_map, List.length_range]
    rfl
  rw [height] at h2
  have hstate : c2.state = absorb 64 compress initial (padded message) := by
    rw [h2.state, md5Transform_eq]
    rfl
  change (do
    let context' ← md5Update context padding padlen
    let context' ← md5Update context' (md5Encode [context.count0, context.count1]) 8
    some (md5Encode [context'.state.a, context'.state.b, context'.state.c, context'.state.d])) = _
  rw [hbits, hrun1, Option.bind_eq_bind, Option.bind_some, hrun2, Option.bind_some, md5Encode_cons,
    md5Encode_cons, md5Encode_cons, md5Encode_word, hstate, digest, List.append_assoc,
    List.append_assoc]

/-- However a file is cut into the inputs of `MD5Update`, the result is the digest of the
whole file, whatever the memory of the context held before. -/
theorem chunks_digest (context : Ctx) (chunks : List (List UInt8))
    (h : ∀ chunk ∈ chunks, chunk.length < 2^32-64) :
    (chunks.foldlM (fun c chunk => md5Update c chunk (UInt32.ofNat chunk.length))
      (md5Init context)).bind md5Final = some (digest chunks.flatten) := by
  obtain ⟨last, hrun, hlast⟩ := updates_represents (represents_init context) h
  rw [hrun, Option.bind_some]
  exact represents_final hlast

/-- A context before `MD5Init`. -/
def blank : Ctx := ⟨0, 0, ⟨0, 0, 0, 0⟩, ⟨List.replicate 64 0xAA, List.length_replicate⟩⟩

theorem two_chunks :
    ([[0x61], [0x62, 0x63]].foldlM (fun c chunk => md5Update c chunk (UInt32.ofNat chunk.length))
      (md5Init blank)).bind md5Final = some (digest [0x61, 0x62, 0x63]) :=
  chunks_digest blank [[0x61], [0x62, 0x63]] (by simp)

end AIC.Md5Digest
