import Mathlib.Data.List.GetD
import Aic8800.CmdBufferMachine

/-!
# One command at a time

The buffer has no lock of its own. If a call begins only while nothing is on
its way, and the thread looks at `cmd_txstate` only while no call is inside
`cmd_txsema`, then a message passes through the phases below alone and every
frame is one message. Two calls that overlap lose a message.
-/

set_option autoImplicit false

namespace AIC.CmdBufferSafety
open AIC.RxAggregate AIC.TxAggregate AIC.CmdBufferMachine Lib.GuardedRun
open AIC.BusTxMachine (Config txMsgLen)

/-! ## The encoding -/

def Encoded (chipid : ProductId) (m : LmacMsg) (buf : ℕ → UInt8) : Prop :=
  ∀ i < CMD_BUF_MAX, buf i = (m.encoding chipid).getD i 0

/-- A frame on the bus: the message, and zeros as far as the buffer goes. -/
structure Frame (chipid : ProductId) (m : LmacMsg) (bytes : List UInt8) : Prop where
  length : bytes.length = txMsgLen (m.encoding chipid).length
  message : bytes.take (m.encoding chipid).length = m.encoding chipid
  zeros : ∀ i, (m.encoding chipid).length ≤ i → i < CMD_BUF_MAX → bytes.getD i 0 = 0

theorem writeAll_append (ws vs : List Write) (buf : ℕ → UInt8) :
    writeAll (ws++vs) buf = writeAll vs (writeAll ws buf) := List.foldl_append ..

theorem putBytes_apply (l : List UInt8) (i : ℕ) (buf : ℕ → UInt8) (j : ℕ) :
    writeAll (putBytes i l) buf j = if i ≤ j ∧ j < i+l.length then l.getD (j-i) 0 else buf j := by
  induction l generalizing i buf with
  | nil =>
    have hno : ¬ (i ≤ j ∧ j < i+0) := by omega
    rw [List.length_nil, if_neg hno]
    rfl
  | cons v l ih =>
    have hstep : writeAll (putBytes i (v::l)) buf j =
        writeAll (putBytes (i+1) l) (Function.update buf i v) j := rfl
    rw [hstep, ih, List.length_cons]
    by_cases hj : j = i
    · subst j
      rw [if_neg (by omega), if_pos (by omega), Function.update_self, Nat.sub_self]
      rfl
    · by_cases hin : i+1 ≤ j ∧ j < i+1+l.length
      · have hsub : j-i = (j-(i+1))+1 := by omega
        rw [if_pos hin, if_pos (by omega), hsub, List.getD_cons_succ]
      · rw [if_neg hin, if_neg (by omega), Function.update_of_ne hj]

theorem encoding_eq (chipid : ProductId) (m : LmacMsg) : ∃ h0 h1 h2 h3,
    m.encoding chipid = h0::h1::h2::h3::0::0::0::0::m.fields ∧
      h0 = lengthLow (m.len+4) ∧ h1 = lengthHigh (m.len+4) ∧ h2 = 0x11 ∧
      h3 = if chipid.plainHeader then 0 else crc8Ponl107 [h0, h1, h2] :=
  ⟨_, _, _, _, rfl, rfl, rfl, rfl, rfl⟩

theorem encoding_length (chipid : ProductId) (m : LmacMsg) :
    (m.encoding chipid).length = m.param.length+16 := by
  obtain ⟨h0, h1, h2, h3, he, -⟩ := encoding_eq chipid m
  simp [he, LmacMsg.fields, putU16]

theorem encoding_fits (chipid : ProductId) (m : LmacMsg) :
    (m.encoding chipid).length ≤ CMD_BUF_MAX := by
  rw [encoding_length]
  exact m.fits

/-- The writes of a call, on their own, leave the encoding in the buffer. -/
theorem writes_encoded (chipid : ProductId) (m : LmacMsg) (buf : ℕ → UInt8) :
    Encoded chipid m (writeAll (m.writes chipid) buf) := by
  obtain ⟨h0, h1, h2, h3, he, hlow, hhigh, htype, hcheck⟩ := encoding_eq chipid m
  intro j hj
  have hclear : ∀ i < CMD_BUF_MAX, Write.clear.apply buf i = 0 := by
    intro i hi
    simp only [Write.apply, if_pos hi]
  have hfirst : ∀ i, writeAll (putBytes 0 [h0, h1, h2]) (Write.clear.apply buf) i =
      if i < 3 then [h0, h1, h2].getD i 0 else Write.clear.apply buf i := by
    intro i
    rw [putBytes_apply]
    simp
  have hfourth : ∀ i, writeAll (if chipid.plainHeader then [.byte 3 0] else [.crc])
      (writeAll (putBytes 0 [h0, h1, h2]) (Write.clear.apply buf)) i =
      if i = 3 then h3 else writeAll (putBytes 0 [h0, h1, h2]) (Write.clear.apply buf) i := by
    intro i
    cases hplain : chipid.plainHeader <;> rw [hplain] at hcheck <;>
      simp only [hcheck, writeAll, Bool.false_eq_true, if_true, if_false, List.foldl_cons,
        List.foldl_nil, Function.update_apply, Write.apply, putBytes]
    rfl
  have hall : writeAll (m.writes chipid) buf = writeAll (putBytes 8 m.fields)
      (writeAll (if chipid.plainHeader then [.byte 3 0] else [.crc])
        (writeAll (putBytes 0 [h0, h1, h2]) (Write.clear.apply buf))) := by
    rw [← writeAll_append, ← writeAll_append, hlow, hhigh, htype]
    rfl
  rw [hall, putBytes_apply, hfourth, hfirst, he]
  by_cases hfield : 8 ≤ j
  · obtain ⟨k, rfl⟩ := Nat.exists_eq_add_of_le' hfield
    have hget : (h0::h1::h2::h3::0::0::0::0::m.fields).getD (k+8) 0 = m.fields.getD k 0 := rfl
    rw [hget, Nat.add_sub_cancel]
    by_cases hk : k < m.fields.length
    · rw [if_pos (by omega)]
    · rw [if_neg (by omega), if_neg (by omega), if_neg (by omega), hclear _ hj,
        List.getD_eq_default _ _ (not_lt.mp hk)]
  · rw [if_neg (by omega), hclear j hj]
    interval_cases j <;> rfl

/-! ## The padding and the transfer -/

theorem txMsgLen_ge {n : ℕ} (h : n ≤ CMD_BUF_MAX) : n ≤ txMsgLen n := by
  have hn : u16 n = n := by
    simp only [u16, CMD_BUF_MAX] at h ⊢
    omega
  have hround : u16 (roundup n TX_ALIGNMENT) = (n+3)/4*4 := by
    simp only [u16, roundup, TX_ALIGNMENT, CMD_BUF_MAX] at h ⊢
    omega
  by_cases hblock : (n+3)/4*4 % SDIOWIFI_FUNC_BLOCKSIZE = 0
  · simp only [txMsgLen, hn, hround, ne_eq, hblock, not_true, if_false]
    omega
  · simp only [txMsgLen, hn, hround, ne_eq, hblock, not_false_eq_true, if_true]
    simp only [SDIOWIFI_FUNC_BLOCKSIZE, TAIL_LEN, u16, CMD_BUF_MAX] at h ⊢
    omega

/-- The padding of a message writes zeros over zeros. -/
theorem pad_encoded {chipid : ProductId} {m : LmacMsg} {buf : ℕ → UInt8}
    (h : Encoded chipid m buf) :
    Encoded chipid m (padCommand (m.encoding chipid).length buf) := by
  intro i hi
  by_cases hpast : (m.encoding chipid).length ≤ i
  · have hzero := h i hi
    rw [List.getD_eq_default _ _ hpast] at hzero ⊢
    simp only [padCommand, hzero, ite_self]
  · simp only [padCommand, hpast, false_and, if_false]
    exact h i hi

/-- What has been sent of a buffer that nobody writes to. -/
def Copied (buf : ℕ → UInt8) (out : List UInt8) : Prop :=
  out = (List.range out.length).map buf

theorem copied_append {buf : ℕ → UInt8} {out : List UInt8} (h : Copied buf out) (n : ℕ) :
    Copied buf (out++(List.range n).map fun k => buf (out.length+k)) := by
  have hlen : (out++(List.range n).map fun k => buf (out.length+k)).length = out.length+n := by
    simp
  rw [Copied, hlen, List.range_add, List.map_append, List.map_map, ← h]
  rfl

theorem copied_frame {chipid : ProductId} {m : LmacMsg} {buf : ℕ → UInt8} {out : List UInt8}
    (hbuf : Encoded chipid m buf) (hout : Copied buf out)
    (hlen : out.length = txMsgLen (m.encoding chipid).length) : Frame chipid m out := by
  have hfits := encoding_fits chipid m
  have hge := txMsgLen_ge hfits
  have hget : ∀ i < out.length, out.getD i 0 = buf i := by
    intro i hi
    rw [hout, List.getD_eq_getElem?_getD]
    simp [hi]
  constructor
  · exact hlen
  · apply List.ext_getElem
    · rw [List.length_take]
      omega
    · intro i h1 h2
      have hi : i < out.length := by omega
      have hbyte := hget i hi
      rw [hbuf i (by omega)] at hbyte
      rw [List.getElem_take]
      rwa [List.getD_eq_getElem _ _ hi, List.getD_eq_getElem _ _ h2] at hbyte
  · intro i hpast hi
    by_cases hin : i < out.length
    · rw [hget i hin, hbuf i hi, List.getD_eq_default _ _ hpast]
    · exact List.getD_eq_default _ _ (not_lt.mp hin)

/-! ## The phases of a message -/

/-- Where the thread is with a message of `n` bytes that was handed over. -/
def Going (n : ℕ) (s : Chan) : Prop :=
  match s.tx with
  | .idle | .read => s.cmdTxsema = false
  | .pad len => len = n ∧ s.cmdTxsema = false
  | .flow len | .sema len => len = txMsgLen n ∧ s.cmdTxsema = false
  | .sending len out =>
    len = txMsgLen n ∧ s.cmdTxsema = true ∧ Copied s.cmdBuf out ∧ out.length ≤ len
  | .done => False

/-- What is on its way, with everything that is known of the channel meanwhile. -/
inductive Phase (chipid : ProductId) (s : Chan) : List LmacMsg → Prop
  | rest (calls : s.calls = []) (sema : s.cmdTxsema = false) (state : s.cmdTxstate = false)
      (tx : s.tx = .idle) : Phase chipid s []
  | writing (m : LmacMsg) (ws : List Write) (calls : s.calls = [⟨m, .writing ws⟩])
      (sema : s.cmdTxsema = false) (state : s.cmdTxstate = false) (tx : s.tx = .idle)
      (buf : Encoded chipid m (writeAll ws s.cmdBuf)) : Phase chipid s [m]
  | down (m : LmacMsg) (calls : s.calls = [⟨m, .down⟩]) (sema : s.cmdTxsema = false)
      (state : s.cmdTxstate = false) (tx : s.tx = .idle) (buf : Encoded chipid m s.cmdBuf) :
      Phase chipid s [m]
  | state (m : LmacMsg) (calls : s.calls = [⟨m, .state⟩]) (sema : s.cmdTxsema = true)
      (tx : s.tx = .idle) (buf : Encoded chipid m s.cmdBuf) : Phase chipid s [m]
  | length (m : LmacMsg) (calls : s.calls = [⟨m, .length⟩]) (sema : s.cmdTxsema = true)
      (state : s.cmdTxstate = true) (tx : s.tx = .idle) (buf : Encoded chipid m s.cmdBuf) :
      Phase chipid s [m]
  | up (m : LmacMsg) (calls : s.calls = [⟨m, .up⟩]) (sema : s.cmdTxsema = true)
      (state : s.cmdTxstate = true) (tx : s.tx = .idle) (buf : Encoded chipid m s.cmdBuf)
      (len : s.cmdLen = (m.encoding chipid).length) : Phase chipid s [m]
  | handed (m : LmacMsg) (calls : s.calls = []) (state : s.cmdTxstate = true)
      (buf : Encoded chipid m s.cmdBuf) (len : s.cmdLen = (m.encoding chipid).length)
      (going : Going (m.encoding chipid).length s) : Phase chipid s [m]
  | sent (calls : s.calls = []) (tx : s.tx = .done) : Phase chipid s []

/-- Every message passed so far was transmitted once and in full, but for one on its way. -/
structure Carried (chipid : ProductId) (s : Chan) : Prop where
  split : ∃ done flying, s.passed = done++flying ∧ List.Forall₂ (Frame chipid) done s.sent ∧
    Phase chipid s flying

/-- A call begins with nothing on its way, the thread looks at `cmd_txstate` with no call inside
the semaphore, and the transfers succeed. -/
def Exclusive (s : Chan) : Act → Prop
  | .begin _ => s.calls = [] ∧ s.cmdTxstate = false ∧ s.tx = .idle
  | .call _ => True
  | .tx io => (s.tx = .idle → s.cmdTxsema = false) ∧ io.err = false

instance (s : Chan) (a : Act) : Decidable (Exclusive s a) := by
  cases a <;> dsimp only [Exclusive] <;> infer_instance

/-- With no call and no message handed over, nothing is on its way. -/
theorem Phase.settled {chipid : ProductId} {s : Chan} {flying : List LmacMsg}
    (h : Phase chipid s flying) (hcalls : s.calls = []) (hstate : s.cmdTxstate = false) :
    flying = [] ∧ (s.cmdTxsema = false ∨ s.tx = .done) := by
  cases h with
  | rest _ sema => exact ⟨rfl, .inl sema⟩
  | writing m ws calls => simp [calls] at hcalls
  | down m calls => simp [calls] at hcalls
  | state m calls => simp [calls] at hcalls
  | length m calls => simp [calls] at hcalls
  | up m calls => simp [calls] at hcalls
  | handed m _ state => simp [state] at hstate
  | sent _ tx => exact ⟨rfl, .inr tx⟩

theorem Phase.begins {chipid : ProductId} {s : Chan} {flying : List LmacMsg}
    (h : Phase chipid s flying) (hcalls : s.calls = []) (hstate : s.cmdTxstate = false)
    (htx : s.tx = .idle) : flying = [] ∧ s.cmdTxsema = false := by
  obtain ⟨hflying, hsema | hdone⟩ := h.settled hcalls hstate
  · exact ⟨hflying, hsema⟩
  · simp [htx] at hdone

/-- A step of the only call there is. -/
theorem call_phase {cfg : Config} {s t : Chan} {flying : List LmacMsg} {i : ℕ}
    (h : Phase cfg.chipid s flying) (ht : s.callStep cfg i = some t) :
    Phase cfg.chipid t flying ∧ t.passed = s.passed ∧ t.sent = s.sent := by
  have hnone : s.calls = [] → s.callStep cfg i = none := by
    intro hcalls
    simp [Chan.callStep, hcalls]
  have honly : ∀ c, s.calls = [c] → i = 0 := by
    intro c hcalls
    by_contra hi
    have hlen : s.calls[i]? = none := by
      rw [hcalls, List.getElem?_eq_none]
      simp only [List.length_singleton]
      omega
    simp [Chan.callStep, hlen] at ht
  cases h with
  | rest calls => simp [hnone calls] at ht
  | handed m calls => simp [hnone calls] at ht
  | sent calls => simp [hnone calls] at ht
  | writing m ws calls sema state tx buf =>
    obtain rfl := honly _ calls
    cases ws with
    | nil =>
      simp only [Chan.callStep, Chan.setStage, calls, List.getElem?_cons_zero, List.set_cons_zero] at ht
      obtain rfl := Option.some.inj ht
      exact ⟨.down m rfl sema state tx buf, rfl, rfl⟩
    | cons w ws =>
      simp only [Chan.callStep, Chan.setStage, calls, List.getElem?_cons_zero, List.set_cons_zero] at ht
      obtain rfl := Option.some.inj ht
      exact ⟨.writing m ws rfl sema state tx buf, rfl, rfl⟩
  | down m calls sema state tx buf =>
    obtain rfl := honly _ calls
    simp only [Chan.callStep, Chan.setStage, calls, List.getElem?_cons_zero, List.set_cons_zero,
      sema, Bool.false_eq_true, if_false] at ht
    obtain rfl := Option.some.inj ht
    exact ⟨.state m rfl rfl tx buf, rfl, rfl⟩
  | state m calls sema tx buf =>
    obtain rfl := honly _ calls
    simp only [Chan.callStep, Chan.setStage, calls, List.getElem?_cons_zero, List.set_cons_zero] at ht
    obtain rfl := Option.some.inj ht
    exact ⟨.length m rfl sema rfl tx buf, rfl, rfl⟩
  | length m calls sema state tx buf =>
    obtain rfl := honly _ calls
    simp only [Chan.callStep, Chan.setStage, calls, List.getElem?_cons_zero, List.set_cons_zero] at ht
    obtain rfl := Option.some.inj ht
    exact ⟨.up m rfl sema state tx buf rfl, rfl, rfl⟩
  | up m calls sema state tx buf len =>
    obtain rfl := honly _ calls
    simp only [Chan.callStep, calls, List.getElem?_cons_zero, List.eraseIdx_cons_zero] at ht
    obtain rfl := Option.some.inj ht
    exact ⟨.handed m rfl state buf len (by simp only [Going, tx]), rfl, rfl⟩

/-! ## A step of the thread -/

/-- Outside the semaphore and without a message the thread stays outside. -/
theorem idle_step {cfg : Config} {s t : Chan} {io : Io} (htx : s.tx = .idle)
    (hstate : s.cmdTxstate = false) (ht : s.txStep cfg io = some t) : t = s := by
  have hno : ¬ (s.cmdTxstate = true ∧ io.refused = false) := by simp [hstate]
  simp only [Chan.txStep, htx, if_neg hno] at ht
  rw [← htx] at ht
  exact (Option.some.inj ht).symm

/-- The thread with a message that was handed over, up to the end of the transfer. -/
theorem handed_step {cfg : Config} {s t : Chan} {io : Io} {m : LmacMsg} (hcalls : s.calls = [])
    (hstate : s.cmdTxstate = true) (hbuf : Encoded cfg.chipid m s.cmdBuf)
    (hlen : s.cmdLen = (m.encoding cfg.chipid).length)
    (hgoing : Going (m.encoding cfg.chipid).length s) (hok : io.err = false)
    (ht : s.txStep cfg io = some t) :
    (Phase cfg.chipid t [m] ∧ t.sent = s.sent) ∨
      ∃ out, Frame cfg.chipid m out ∧ Phase cfg.chipid t [] ∧ t.sent = s.sent++[out] := by
  have hn : u16 (m.encoding cfg.chipid).length = (m.encoding cfg.chipid).length := by
    have hfits := encoding_fits cfg.chipid m
    simp only [u16, CMD_BUF_MAX] at hfits ⊢
    omega
  cases htx : s.tx with
  | idle =>
    simp only [Going, htx] at hgoing
    simp only [Chan.txStep, htx] at ht
    obtain rfl := Option.some.inj ht
    left
    refine ⟨.handed m hcalls hstate hbuf hlen ?_, rfl⟩
    simp only [Going]
    by_cases hgo : s.cmdTxstate = true ∧ io.refused = false
    · simp only [if_pos hgo, hgoing]
    · simp only [if_neg hgo, hgoing]
  | read =>
    simp only [Going, htx] at hgoing
    simp only [Chan.txStep, htx] at ht
    obtain rfl := Option.some.inj ht
    exact .inl ⟨.handed m hcalls hstate hbuf hlen ⟨by simp only [hlen, hn], hgoing⟩, rfl⟩
  | pad len =>
    simp only [Going, htx] at hgoing
    obtain ⟨rfl, hsema⟩ := hgoing
    simp only [Chan.txStep, htx] at ht
    obtain rfl := Option.some.inj ht
    exact .inl ⟨.handed m hcalls hstate (pad_encoded hbuf) hlen ⟨rfl, hsema⟩, rfl⟩
  | flow len =>
    simp only [Going, htx] at hgoing
    simp only [Chan.txStep, htx] at ht
    obtain rfl := Option.some.inj ht
    left
    refine ⟨.handed m hcalls hstate hbuf hlen ?_, rfl⟩
    simp only [Going]
    split_ifs
    · exact hgoing
    · exact hgoing.2
  | sema len =>
    simp only [Going, htx] at hgoing
    simp only [Chan.txStep, htx, hgoing.2, Bool.false_eq_true, if_false] at ht
    obtain rfl := Option.some.inj ht
    exact .inl ⟨.handed m hcalls hstate hbuf hlen ⟨hgoing.1, rfl, rfl, Nat.zero_le _⟩, rfl⟩
  | sending len out =>
    simp only [Going, htx] at hgoing
    obtain ⟨hfull, hsema, hcopied, hle⟩ := hgoing
    simp only [Chan.txStep, htx, Chan.sendBlock] at ht
    by_cases hmore : out.length < len
    · rw [if_pos hmore] at ht
      obtain rfl := Option.some.inj ht
      refine .inl ⟨.handed m hcalls hstate hbuf hlen ⟨hfull, hsema, copied_append hcopied _, ?_⟩, rfl⟩
      simp only [List.length_append, List.length_map, List.length_range]
      omega
    · rw [if_neg hmore, hok] at ht
      obtain rfl := Option.some.inj ht
      have hall : out.length = txMsgLen (m.encoding cfg.chipid).length := by omega
      exact .inr ⟨out, copied_frame hbuf hcopied hall, .sent hcalls rfl, rfl⟩
  | done => simp only [Going, htx] at hgoing

theorem tx_carried {cfg : Config} {s t : Chan} {io : Io} (h : Carried cfg.chipid s)
    (hex : Exclusive s (.tx io)) (ht : s.txStep cfg io = some t) : Carried cfg.chipid t := by
  obtain ⟨done, flying, hpassed, hsent, hphase⟩ := h.split
  have hstill : s.tx = .idle → s.cmdTxstate = false → Carried cfg.chipid t := by
    intro htx hstate
    rw [idle_step htx hstate ht]
    exact h
  have hpass : t.passed = s.passed := by
    cases htx : s.tx <;> simp only [Chan.txStep, htx, Chan.sendBlock] at ht <;>
      (try split_ifs at ht) <;> rw [← Option.some.inj ht]
  cases hphase with
  | rest calls sema state tx => exact hstill tx state
  | writing m ws calls sema state tx buf => exact hstill tx state
  | down m calls sema state tx buf => exact hstill tx state
  | state m calls sema tx buf =>
    rw [hex.1 tx] at sema
    cases sema
  | length m calls sema state tx buf =>
    rw [hex.1 tx] at sema
    cases sema
  | up m calls sema state tx buf len =>
    rw [hex.1 tx] at sema
    cases sema
  | handed m calls state buf len going =>
    rcases handed_step calls state buf len going hex.2 ht with ⟨hp, hs⟩ | ⟨out, hframe, hp, hs⟩
    · exact ⟨done, [m], by rw [hpass, hpassed], by rw [hs]; exact hsent, hp⟩
    · refine ⟨done++[m], [], by rw [hpass, hpassed, List.append_nil], ?_, hp⟩
      rw [hs]
      exact List.rel_append hsent (.cons hframe .nil)
  | sent calls tx =>
    simp only [Chan.txStep, tx] at ht
    obtain rfl := Option.some.inj ht
    exact ⟨done, [], hpassed, hsent, .rest calls rfl rfl rfl⟩

/-! ## Runs -/

theorem step_carried {cfg : Config} {s t : Chan} {a : Act} (h : Carried cfg.chipid s)
    (hex : Exclusive s a) (ht : step cfg s a = some t) : Carried cfg.chipid t := by
  obtain ⟨done, flying, hpassed, hsent, hphase⟩ := h.split
  cases a with
  | begin m =>
    obtain ⟨hcalls, hstate, htx⟩ := hex
    obtain ⟨rfl, hsema⟩ := hphase.begins hcalls hstate htx
    simp only [step, hcalls, List.nil_append] at ht
    obtain rfl := Option.some.inj ht
    rw [List.append_nil] at hpassed
    refine ⟨done, [m], by rw [hpassed], hsent, ?_⟩
    exact .writing m _ rfl hsema hstate htx (writes_encoded cfg.chipid m s.cmdBuf)
  | call i =>
    obtain ⟨hp, hpass, hs⟩ := call_phase hphase ht
    exact ⟨done, flying, by rw [hpass, hpassed], by rw [hs]; exact hsent, hp⟩
  | tx io => exact tx_carried h hex ht

theorem init_carried (chipid : ProductId) : Carried chipid init :=
  ⟨[], [], rfl, .nil, .rest rfl rfl rfl rfl⟩

/-- Every message passed is transmitted once and in full: at most the last one is still on its
way, and none when no call is open and no command is pending. -/
def Delivered (chipid : ProductId) (s : Chan) : Prop :=
  ∃ done flying, s.passed = done++flying ∧ List.Forall₂ (Frame chipid) done s.sent ∧
    flying.length ≤ 1 ∧ (s.calls = [] → s.cmdTxstate = false → flying = [])

theorem run_delivered {cfg : Config} {as : List Act} {s : Chan}
    (hm : Meets (step cfg) Exclusive init as) (h : exec (step cfg) init as = some s) :
    Delivered cfg.chipid s := by
  have hnext : ∀ s a t, Exclusive s a → step cfg s a = some t → Carried cfg.chipid s →
      Carried cfg.chipid t := fun s a t hex ht hs => step_carried hs hex ht
  obtain ⟨done, flying, hpassed, hsent, hphase⟩ :=
    (exec_invariant hnext (init_carried cfg.chipid) hm h).split
  refine ⟨done, flying, hpassed, hsent, ?_, ?_⟩
  · cases hphase <;> simp
  · intro hcalls hstate
    exact (hphase.settled hcalls hstate).1

def sampleMsg (v : UInt8) : LmacMsg := ⟨5, 1, 100, [v], by simp [CMD_BUF_MAX]⟩

def sendIo : Io := ⟨false, fun _ _ => some 4, false⟩

/-- A call from its beginning to its return, and the thread through `aicwf_sdio_tx_msg`. -/
def callRun (v : UInt8) : List Act := .begin (sampleMsg v)::List.replicate 19 (.call 0)

def txRun : List Act := List.replicate 8 (.tx sendIo)

theorem run_delivered_two : ∃ s, exec (step ⟨.aic8800D80, 32⟩) init
    (callRun 7++txRun++callRun 8++txRun) = some s ∧ s.passed.length = 2 ∧ s.sent.length = 2 ∧
      Delivered .aic8800D80 s := by
  have hrun : exec (step ⟨.aic8800D80, 32⟩) init (callRun 7++txRun++callRun 8++txRun) =
      some ((exec (step ⟨.aic8800D80, 32⟩) init
        (callRun 7++txRun++callRun 8++txRun)).get (by decide +kernel)) :=
    (Option.some_get _).symm
  exact ⟨_, hrun, by decide +kernel, by decide +kernel,
    run_delivered (by decide +kernel) hrun⟩

/-- The second call begins before the first message is sent, and overwrites it. -/
theorem message_overwritten : ∃ s, exec (step ⟨.aic8800D80, 32⟩) init
    (callRun 7++callRun 8++txRun) = some s ∧ ¬ Delivered .aic8800D80 s := by
  have hrun : exec (step ⟨.aic8800D80, 32⟩) init (callRun 7++callRun 8++txRun) =
      some ((exec (step ⟨.aic8800D80, 32⟩) init
        (callRun 7++callRun 8++txRun)).get (by decide +kernel)) :=
    (Option.some_get _).symm
  refine ⟨_, hrun, ?_⟩
  rintro ⟨done, flying, hpassed, hsent, -, hquiet⟩
  have hnone := hquiet (by decide +kernel) (by decide +kernel)
  have hcount := hsent.length_eq
  rw [hnone, List.append_nil] at hpassed
  rw [← hpassed] at hcount
  revert hcount
  decide +kernel

end AIC.CmdBufferSafety
