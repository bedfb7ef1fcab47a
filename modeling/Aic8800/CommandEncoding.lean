import Aic8800.CmdBufferMachine
import Aic8800.TxAggregateFormat

/-!
# The way of a command into the buffer and out of it

`aicwf_set_cmd_tx` and `aicwf_sdio_tx_msg` with a message of any length: which bytes
of the command buffer they touch, how much they transfer, and when.
-/

set_option autoImplicit false

namespace AIC.CommandEncoding
open AIC.RxAggregate AIC.TxAggregate AIC.TxAggregateFormat AIC.CmdBufferMachine
open AIC.BusTxMachine (Config txMsgLen msgCredits msgAccepted aicwfSdioFlowCtrlMsg BUFFER_SIZE)

/-- A message of `rwnx_msg_zalloc`, whose length is a u16. -/
structure Msg where
  id : ℕ
  destId : ℕ
  srcId : ℕ
  param : List UInt8
  word : param.length < 2^16

/-- `sizeof(struct lmac_msg) + param_len`. -/
def Msg.len (m : Msg) : ℕ := 8+m.param.length

def Msg.fields (m : Msg) : List UInt8 :=
  putU16 m.id++putU16 m.destId++putU16 m.srcId++putU16 m.param.length++m.param

/-- The writes of `aicwf_set_cmd_tx`, in order. -/
def Msg.writes (chipid : ProductId) (m : Msg) : List Write :=
  .clear::putBytes 0 [lengthLow (m.len+4), lengthHigh (m.len+4), 0x11]++
    (if chipid.plainHeader then [.byte 3 0] else [.crc])++putBytes 8 m.fields

/-- What `aicwf_bus_txmsg` is given. -/
def Msg.cmdLen (m : Msg) : ℕ := m.len+8

/-- The length of a command in words, `adjust_len`. -/
def adjustLen (cmdLen : ℕ) : ℕ := roundup (u16 cmdLen) TX_ALIGNMENT

/-- The zeros of `aicwf_sdio_tx_msg`: up to a word, and a tail unless that ends on a block. -/
def txMsgWrites (cmdLen : ℕ) : List Write :=
  putBytes (u16 cmdLen) (List.replicate (adjustLen cmdLen-u16 cmdLen) 0)++
    if u16 (adjustLen cmdLen) % SDIOWIFI_FUNC_BLOCKSIZE ≠ 0 then
      putBytes (u16 (adjustLen cmdLen)) (List.replicate TAIL_LEN 0)
    else []

/-- Where the padding and the tail end. -/
def tailEnd (cmdLen : ℕ) : ℕ :=
  if adjustLen cmdLen % SDIOWIFI_FUNC_BLOCKSIZE ≠ 0 then adjustLen cmdLen+TAIL_LEN
  else adjustLen cmdLen

/-- The end of the bytes that an access touches. -/
def reach : Write → ℕ
  | .clear => CMD_BUF_MAX
  | .byte i _ => i+1
  | .crc => 4

/-- In one of its tries the driver reads that there are buffers for so many bytes. -/
def Reported (cfg : Config) (len : ℕ) (regs : ℕ → ℕ → Option UInt8) : Prop :=
  ∃ k ≤ 10, 0 < aicwfSdioFlowCtrlMsg cfg (regs k) ∧
    (len : ℤ) ≤ aicwfSdioFlowCtrlMsg cfg (regs k)*BUFFER_SIZE

/-- What is promised of a command. -/
structure Encodes (cfg : Config) (m : Msg) (regs : ℕ → ℕ → Option UInt8) : Prop where
  written : ∀ w ∈ m.writes cfg.chipid++txMsgWrites m.cmdLen, reach w ≤ CMD_BUF_MAX
  transferred : txMsgLen m.cmdLen ≤ CMD_BUF_MAX
  header : headerLen (lengthLow (m.len+4)) (lengthHigh (m.len+4)) = m.len+4
  blocks : SDIOWIFI_FUNC_BLOCKSIZE ∣ txMsgLen m.cmdLen
  covers : tailEnd m.cmdLen ≤ txMsgLen m.cmdLen
  accepted : Reported cfg (txMsgLen m.cmdLen) regs → msgAccepted cfg.chipid (txMsgLen m.cmdLen)
    (msgCredits cfg (txMsgLen m.cmdLen) regs 10 0) = true

/-- The lengths of parameters whose transfer takes the whole buffer. -/
def Whole (n : ℕ) : Prop := 1001 ≤ n ∧ n ≤ 1004 ∨ 1009 ≤ n ∧ n ≤ 1512 ∨ 1517 ≤ n ∧ n ≤ 1520

/-- The first buffers that the driver reads of are exactly one. -/
def OneBuffer (cfg : Config) (regs : ℕ → ℕ → Option UInt8) : Prop :=
  ∃ k ≤ 10, aicwfSdioFlowCtrlMsg cfg (regs k) = 1 ∧
    ∀ j < k, aicwfSdioFlowCtrlMsg cfg (regs j) ≤ 0

/-- The parameters fit with their headers, their padding and the transfer, and a transfer of the
whole buffer does not find one buffer only. -/
def Fits (cfg : Config) (m : Msg) (regs : ℕ → ℕ → Option UInt8) : Prop :=
  (m.param.length ≤ 1512 ∨ 1517 ≤ m.param.length ∧ m.param.length ≤ 1520) ∧
    ¬ (Whole m.param.length ∧ OneBuffer cfg regs)

/-! ## The bytes -/

/-- The messages of the command machine are written in the same way. -/
theorem writes_ofLmac (chipid : ProductId) (m : LmacMsg) (h : m.param.length < 2^16) :
    (Msg.mk m.id m.destId m.srcId m.param h).writes chipid = m.writes chipid := rfl

theorem putBytes_inside (i n : ℕ) (l : List UInt8) :
    (∀ w ∈ putBytes i l, reach w ≤ n) ↔ l = [] ∨ i+l.length ≤ n := by
  induction l generalizing i with
  | nil => exact iff_of_true (fun w hw => absurd hw List.not_mem_nil) (.inl rfl)
  | cons v l ih =>
    rw [putBytes, List.forall_mem_cons, ih]
    show i+1 ≤ n ∧ _ ↔ _
    cases l with
    | nil => simp
    | cons u l =>
      simp only [reduceCtorEq, false_or, List.length_cons]
      omega

variable {m : Msg}

theorem cmdLen_eq (m : Msg) : m.cmdLen = m.param.length+16 := by
  unfold Msg.cmdLen Msg.len
  omega

theorem fields_length (m : Msg) : m.fields.length = m.cmdLen-8 := by
  unfold Msg.fields Msg.cmdLen Msg.len putU16
  simp only [List.length_append, List.length_cons, List.length_nil]
  omega

theorem writes_inside (chipid : ProductId) (m : Msg) :
    (∀ w ∈ m.writes chipid, reach w ≤ CMD_BUF_MAX) ↔ m.cmdLen ≤ CMD_BUF_MAX := by
  have hlen := fields_length m
  have hcmd := cmdLen_eq m
  have hne : m.fields ≠ [] := fun hno => by
    rw [hno, List.length_nil] at hlen
    omega
  have hcheck : ∀ w ∈ (if chipid.plainHeader then [Write.byte 3 0] else [.crc]), reach w ≤ 1536 := by
    intro w hw
    split at hw <;> rw [List.mem_singleton.mp hw] <;> decide
  have hfirst : ∀ w ∈ putBytes 0 [lengthLow (m.len+4), lengthHigh (m.len+4), 0x11],
      reach w ≤ CMD_BUF_MAX := (putBytes_inside _ _ _).mpr (.inr (by decide : 0+3 ≤ 1536))
  have hfields := putBytes_inside 8 CMD_BUF_MAX m.fields
  unfold Msg.writes
  constructor
  · intro h
    have hin := hfields.mp fun w hw => h w (List.mem_append_right _ hw)
    have hle := hin.resolve_left hne
    omega
  · intro hle w hw
    rcases List.mem_append.mp hw with hw | hw
    · rcases List.mem_append.mp hw with hw | hw
      · rcases List.mem_cons.mp hw with rfl | hw
        · exact le_rfl
        · exact hfirst w hw
      · exact hcheck w hw
    · exact hfields.mpr (.inr (by omega)) w hw

/-- The padding and the tail of what fits stay inside. -/
theorem padding_inside {n : ℕ} (h : n ≤ CMD_BUF_MAX) : ∀ w ∈ txMsgWrites n, reach w ≤ CMD_BUF_MAX := by
  have hle : n ≤ 1536 := h
  have hword : u16 n = n := Nat.mod_eq_of_lt (by omega)
  have hround : adjustLen n = (n+3)/4*4 := by
    rw [adjustLen, hword]
    rfl
  have hadjust : u16 (adjustLen n) = adjustLen n := Nat.mod_eq_of_lt (by omega)
  unfold txMsgWrites
  rw [hword, hadjust]
  refine List.forall_mem_append.mpr ⟨(putBytes_inside _ _ _).mpr (.inr ?_), ?_⟩
  · rw [List.length_replicate, CMD_BUF_MAX]
    omega
  · split
    · rename_i hblock
      have hblock' : adjustLen n % 512 ≠ 0 := hblock
      refine (putBytes_inside _ _ _).mpr (.inr ?_)
      rw [List.length_replicate, CMD_BUF_MAX, TAIL_LEN]
      omega
    · exact fun w hw => absurd hw List.not_mem_nil

/-! ## The lengths -/

theorem txMsgLen_eq {n : ℕ} (h : n ≤ CMD_BUF_MAX) : txMsgLen n =
    if (n+3)/4*4 % 512 ≠ 0 then (((n+3)/4*4+4)/512+1)*512 else (n+3)/4*4 := by
  have hle : n ≤ 1536 := h
  have hword : u16 n = n := Nat.mod_eq_of_lt (by omega)
  have hadjust : u16 (roundup n TX_ALIGNMENT) = (n+3)/4*4 :=
    Nat.mod_eq_of_lt (by unfold roundup TX_ALIGNMENT; omega)
  have htail : u16 ((n+3)/4*4+TAIL_LEN) = (n+3)/4*4+4 :=
    Nat.mod_eq_of_lt (by unfold TAIL_LEN; omega)
  have hblocks : u16 ((((n+3)/4*4+4)/512+1)*512) = (((n+3)/4*4+4)/512+1)*512 :=
    Nat.mod_eq_of_lt (by omega)
  unfold txMsgLen
  rw [hword, hadjust]
  dsimp only
  rw [htail, SDIOWIFI_FUNC_BLOCKSIZE, hblocks]

theorem txMsgLen_fits {n : ℕ} (h : n ≤ CMD_BUF_MAX) :
    txMsgLen n ≤ CMD_BUF_MAX ↔ ¬ (1529 ≤ n ∧ n ≤ 1532) := by
  have hle : n ≤ 1536 := h
  rw [txMsgLen_eq h, CMD_BUF_MAX]
  split <;> omega

theorem txMsgLen_blocks {n : ℕ} (h : n ≤ CMD_BUF_MAX) : SDIOWIFI_FUNC_BLOCKSIZE ∣ txMsgLen n := by
  rw [txMsgLen_eq h, SDIOWIFI_FUNC_BLOCKSIZE]
  split <;> omega

theorem tailEnd_le {n : ℕ} (h : n ≤ CMD_BUF_MAX) : tailEnd n ≤ txMsgLen n := by
  have hle : n ≤ 1536 := h
  have hround : adjustLen n = (n+3)/4*4 := by
    rw [adjustLen, show u16 n = n from Nat.mod_eq_of_lt (by omega)]
    rfl
  rw [txMsgLen_eq h, tailEnd, hround, SDIOWIFI_FUNC_BLOCKSIZE, TAIL_LEN]
  split <;> omega

theorem txMsgLen_whole {n : ℕ} (h : n+16 ≤ CMD_BUF_MAX) :
    txMsgLen (n+16) = CMD_BUF_MAX ↔ Whole n := by
  have hle : n+16 ≤ 1536 := h
  rw [txMsgLen_eq h, CMD_BUF_MAX, Whole]
  split <;> omega

/-! ## The buffers -/

variable {cfg : Config} {regs : ℕ → ℕ → Option UInt8} {len : ℕ}

/-- For what one buffer holds the driver stops asking at the first report of a buffer. -/
theorem first_credits (cfg : Config) (regs : ℕ → ℕ → Option UInt8) (hpos : 0 < len)
    (hlen : len ≤ CMD_BUF_MAX) (left k : ℕ) :
    (∃ j ≤ left, 0 < aicwfSdioFlowCtrlMsg cfg (regs (k+j)) ∧
      (∀ i < j, aicwfSdioFlowCtrlMsg cfg (regs (k+i)) ≤ 0) ∧
      msgCredits cfg len regs left k = aicwfSdioFlowCtrlMsg cfg (regs (k+j))) ∨
    (∀ j ≤ left, aicwfSdioFlowCtrlMsg cfg (regs (k+j)) ≤ 0) := by
  have hless : ∀ c : ℤ, c ≤ 0 ∨ c*BUFFER_SIZE < len ↔ c ≤ 0 := by
    intro c
    have hle : len ≤ 1536 := hlen
    show c ≤ 0 ∨ c*1536 < len ↔ c ≤ 0
    omega
  induction left generalizing k with
  | zero =>
    by_cases hc : aicwfSdioFlowCtrlMsg cfg (regs k) ≤ 0
    · right
      intro j hj
      obtain rfl := Nat.le_zero.mp hj
      exact hc
    · left
      refine ⟨0, le_rfl, not_le.mp hc, fun i hi => absurd hi (Nat.not_lt_zero i), ?_⟩
      unfold msgCredits
      dsimp only
      rw [if_neg (mt (hless _).mp hc)]
      rfl
  | succ left ih =>
    by_cases hc : aicwfSdioFlowCtrlMsg cfg (regs k) ≤ 0
    · have hnext : msgCredits cfg len regs (left+1) k = msgCredits cfg len regs left (k+1) := by
        conv_lhs => unfold msgCredits
        dsimp only
        rw [if_pos ((hless _).mpr hc)]
      have hsucc : ∀ j, k+1+j = k+(j+1) := fun j => by omega
      rcases ih (k+1) with ⟨j, hj, hpos, hbefore, heq⟩ | hnone
      · left
        refine ⟨j+1, Nat.succ_le_succ hj, hsucc j ▸ hpos, ?_, hnext.trans (hsucc j ▸ heq)⟩
        intro i hi
        cases i with
        | zero => exact hc
        | succ i => exact hsucc i ▸ hbefore i (Nat.lt_of_succ_lt_succ hi)
      · right
        intro j hj
        cases j with
        | zero => exact hc
        | succ j => exact hsucc j ▸ hnone j (Nat.le_of_succ_le_succ hj)
    · left
      refine ⟨0, Nat.zero_le _, not_le.mp hc, fun i hi => absurd hi (Nat.not_lt_zero i), ?_⟩
      unfold msgCredits
      dsimp only
      rw [if_neg (mt (hless _).mp hc)]
      rfl

/-- The loop goes on while the report is less than the transfer, and the transfer takes place when
it is more: equality falls between the two. -/
theorem accepted_iff (hchip : cfg.chipid = .aic8801 ∨ cfg.chipid = .aic8800D80) (hpos : 0 < len)
    (hlen : len ≤ CMD_BUF_MAX) :
    (Reported cfg len regs → msgAccepted cfg.chipid len (msgCredits cfg len regs 10 0) = true) ↔
      ¬ (len = CMD_BUF_MAX ∧ OneBuffer cfg regs) := by
  have haccept : ∀ c : ℤ, msgAccepted cfg.chipid len c = true ↔ 0 < c ∧ (len : ℤ) < c*1536 := by
    intro c
    unfold msgAccepted
    rcases hchip with hchip | hchip <;> rw [hchip] <;>
      exact (Bool.and_eq_true_iff).trans (and_congr decide_eq_true_iff decide_eq_true_iff)
  have hle : len ≤ 1536 := hlen
  rw [haccept]
  rcases first_credits cfg regs hpos hlen 10 0 with
    ⟨j, hj, hc, hbefore, heq⟩ | hnone
  · rw [heq]
    simp only [Nat.zero_add] at hc hbefore ⊢
    have hrep : Reported cfg len regs := by
      refine ⟨j, hj, hc, ?_⟩
      show (len : ℤ) ≤ _*1536
      omega
    constructor
    · rintro hall ⟨rfl, k, hk, hone, hfirst⟩
      have hjk : j = k := by
        rcases lt_trichotomy j k with hlt | heq | hlt
        · exact absurd hc (not_lt.mpr (hfirst j hlt))
        · exact heq
        · have hno := hbefore k hlt
          omega
      have hlt := (hall hrep).2
      rw [hjk, hone] at hlt
      exact absurd hlt (by decide)
    · intro hno _
      refine ⟨hc, ?_⟩
      by_cases hone : aicwfSdioFlowCtrlMsg cfg (regs j) = 1
      · have hne : len ≠ 1536 := fun heq => hno ⟨heq, j, hj, hone, hbefore⟩
        omega
      · omega
  · simp only [Nat.zero_add] at hnone
    refine iff_of_true ?_ ?_
    · rintro ⟨k, hk, hc, -⟩
      exact absurd hc (not_lt.mpr (hnone k hk))
    · rintro ⟨-, k, hk, hone, -⟩
      have hno := hnone k hk
      omega

/-! ## Commands -/

theorem written_iff (chipid : ProductId) (m : Msg) :
    (∀ w ∈ m.writes chipid++txMsgWrites m.cmdLen, reach w ≤ CMD_BUF_MAX) ↔
      m.cmdLen ≤ CMD_BUF_MAX := by
  rw [List.forall_mem_append, writes_inside]
  exact and_iff_left_of_imp padding_inside

theorem Encodes.fits (hchip : cfg.chipid = .aic8801 ∨ cfg.chipid = .aic8800D80)
    (h : Encodes cfg m regs) : Fits cfg m regs := by
  have hcmd := cmdLen_eq m
  have hfit := (written_iff cfg.chipid m).mp h.written
  have hle : m.cmdLen ≤ 1536 := hfit
  have hmax := (txMsgLen_fits hfit).mp h.transferred
  refine ⟨by omega, ?_⟩
  rw [hcmd] at hfit
  rintro ⟨hwhole, hone⟩
  have hlen := (txMsgLen_whole hfit).mpr hwhole
  rw [← hcmd] at hlen
  exact (accepted_iff hchip (by rw [hlen]; decide) hlen.le).mp h.accepted ⟨hlen, hone⟩

theorem Fits.encodes (hchip : cfg.chipid = .aic8801 ∨ cfg.chipid = .aic8800D80)
    (h : Fits cfg m regs) : Encodes cfg m regs := by
  obtain ⟨hlen, hone⟩ := h
  have hcmd := cmdLen_eq m
  have hle : m.cmdLen ≤ 1536 := by omega
  have hfit : m.cmdLen ≤ CMD_BUF_MAX := hle
  have hmax : txMsgLen m.cmdLen ≤ CMD_BUF_MAX := (txMsgLen_fits hfit).mpr (by omega)
  have hpos : 0 < txMsgLen m.cmdLen := by
    rw [txMsgLen_eq hfit]
    split <;> omega
  refine ⟨(written_iff cfg.chipid m).mpr hfit, hmax, headerLen_length ?_, txMsgLen_blocks hfit,
    tailEnd_le hfit, (accepted_iff hchip hpos hmax).mpr ?_⟩
  · unfold Msg.cmdLen at hle
    omega
  · rintro ⟨heq, hbuf⟩
    rw [hcmd] at heq hfit
    exact hone ⟨(txMsgLen_whole hfit).mp heq, hbuf⟩

/-- On the chips that ask for buffers, a command is encoded and sent as promised exactly when it
fits in this sense. -/
theorem encodes_iff (hchip : cfg.chipid = .aic8801 ∨ cfg.chipid = .aic8800D80) :
    Encodes cfg m regs ↔ Fits cfg m regs :=
  ⟨Encodes.fits hchip, Fits.encodes hchip⟩

def sampleConfig : Config := ⟨.aic8801, 32⟩

/-- A message whose parameters are `n` zeros. -/
def sampleMsg (n : ℕ) (h : n < 2^16) : Msg where
  id := 5
  destId := 0
  srcId := 100
  param := List.replicate n 0
  word := by rwa [List.length_replicate]

/-- A write of 1024 bytes to the memory of the chip, with two buffers. -/
theorem encodes_iff_memory :
    Encodes sampleConfig (sampleMsg 1032 (by decide)) fun _ _ => some 2 := by
  refine (encodes_iff (.inl rfl)).mpr ⟨.inl ?_, ?_⟩
  · rw [sampleMsg, List.length_replicate]
    decide
  · rintro ⟨-, k, -, hone, -⟩
    have htwo : aicwfSdioFlowCtrlMsg sampleConfig (fun _ => some 2) = 2 := by decide
    exact absurd (htwo.symm.trans hone) (by decide)

/-- The same write with one buffer, which has room for it, is not sent; a message that is a little
shorter than the buffer is sent with what lies behind it; and a longer one is written there. -/
theorem command_refused_overread_overflown :
    ¬ Encodes sampleConfig (sampleMsg 1032 (by decide)) (fun _ _ => some 1) ∧
      ¬ Encodes sampleConfig (sampleMsg 1514 (by decide)) (fun _ _ => some 2) ∧
      ¬ Encodes sampleConfig (sampleMsg 1521 (by decide)) fun _ _ => some 2 := by
  refine ⟨fun h => ?_, fun h => ?_, fun h => ?_⟩ <;> obtain ⟨hlen, hone⟩ := h.fits (.inl rfl) <;>
    rw [sampleMsg, List.length_replicate] at hlen hone
  · have hfirst : aicwfSdioFlowCtrlMsg sampleConfig (fun _ => some 1) = 1 := by decide
    exact hone ⟨.inr (.inl (by decide)), 0, by decide, hfirst, fun j hj => absurd hj (by omega)⟩
  · omega
  · omega

end AIC.CommandEncoding
