import Aic8800.Lib.GuardedRun
import Aic8800.Lib.RingWindow

/-!
# The firmware log

`rwnx_rx_handle_print` appends the messages of the firmware to a ring, and a read of the debugfs
file takes bytes out of it. There is no result where memory outside the ring or the message is
touched.
-/

set_option autoImplicit false

namespace AIC.FirmwareLog
open Lib.FlatMemory Lib.GuardedRun Lib.RingWindow

abbrev Bytes := List UInt8

def FW_LOG_SIZE : ℕ := 10240

/-- `struct rwnx_fw_log_buf`, with `start` and `end` as offsets from `data`. -/
structure FwLogBuf where
  data : ℕ → UInt8
  start : ℕ
  endPos : ℕ
  size : ℕ

/-- The contents of the memory are whatever `kmalloc` has left in it. -/
def rwnxFwLogInit (data : ℕ → UInt8) : FwLogBuf := ⟨data, 0, 0, 0⟩

/-- The message is printed as a string first. Its length is a number of 32 bits, and the two copies
are the only accesses to the ring. -/
def rwnxRxHandlePrint (b : FwLogBuf) (msg : Bytes) : Option FwLogBuf :=
  if 0 ∉ msg then none
  else
    let size := min (b.size+msg.length) FW_LOG_SIZE
    if FW_LOG_SIZE < b.endPos+msg.length then
      let rem := FW_LOG_SIZE-b.endPos
      if FW_LOG_SIZE < msg.length-rem then none
      else some {
        data := store 0 (msg.drop rem) (store b.endPos (msg.take rem) b.data)
        start := b.start
        endPos := msg.length-rem
        size := size }
    else some {
      data := store b.endPos msg b.data
      start := b.start
      endPos := b.endPos+msg.length
      size := size }

/-- What is there up to the end of the ring. -/
def FwLogBuf.available (b : FwLogBuf) : ℕ :=
  if FW_LOG_SIZE ≤ b.start+b.size then FW_LOG_SIZE-b.start else b.size

/-- The count asked for has no part in it. `left` bytes, or all, are left uncopied. -/
def rwnxDbgfsFwLogRead (b : FwLogBuf) (left : ℕ) : Bytes × FwLogBuf :=
  let notCpy := min left b.available
  let nbCpy := b.available-notCpy
  ((cells b.data b.start b.available).take nbCpy,
    { b with
      start := if FW_LOG_SIZE ≤ b.start+b.size then 0 else b.start+b.size-notCpy
      size := b.size-nbCpy })

inductive Event where
  | print (msg : Bytes)
  | read (count left : ℕ)
  deriving DecidableEq

/-- The log with what has been asked of it and what it has returned so far. -/
structure Session where
  buf : FwLogBuf
  ops : List (Op UInt8)
  outs : List Bytes

def Session.init (data : ℕ → UInt8) : Session := ⟨rwnxFwLogInit data, [], []⟩

def step (s : Session) : Event → Option Session
  | .print msg => (rwnxRxHandlePrint s.buf msg).map fun b => ⟨b, s.ops++[.write msg], s.outs⟩
  | .read count left =>
    let r := rwnxDbgfsFwLogRead s.buf left
    some ⟨r.2, s.ops++[.read count], s.outs++[r.1]⟩

/-- The reads have returned what a queue of that size returns. -/
def Session.IsFifo (s : Session) : Prop := ∃ q, Fifo FW_LOG_SIZE s.ops s.outs q

/-- A message is a string that fits in what is free, or brings the end of the ring to the start, and
does not overtake itself. A read asks for what it gets, and copies it all where that ends with the
ring, or nothing of the whole ring. -/
def Fits (s : Session) : Event → Prop
  | .print msg => 0 ∈ msg ∧ s.buf.endPos+msg.length ≤ 2*FW_LOG_SIZE ∧
      FW_LOG_SIZE ∣ s.buf.size+msg.length-FW_LOG_SIZE
  | .read count left => s.buf.available-left ≤ count ∧
      (FW_LOG_SIZE ≤ s.buf.start+s.buf.size → FW_LOG_SIZE ∣ min left s.buf.available)

/-! ## What the ring holds -/

/-- The unread bytes lie around the ring in front of the place of the next write. -/
structure Holds (b : FwLogBuf) (q : Bytes) : Prop where
  start : b.start < FW_LOG_SIZE
  endPos : b.endPos ≤ FW_LOG_SIZE
  size : b.size ≤ FW_LOG_SIZE
  place : (b.start+b.size) % FW_LOG_SIZE = b.endPos % FW_LOG_SIZE
  unread : window FW_LOG_SIZE b.data b.start b.size = q

variable {b : FwLogBuf} {q msg : Bytes} {left : ℕ}

theorem holds_init (data : ℕ → UInt8) : Holds (rwnxFwLogInit data) [] where
  start := show 0 < FW_LOG_SIZE by decide
  endPos := Nat.zero_le _
  size := Nat.zero_le _
  place := rfl
  unread := rfl

theorem Holds.length (h : Holds b q) : q.length = b.size := by
  rw [← h.unread, window_length]

/-- The copy in front of the end of the ring and that behind its start, one after the other. -/
theorem store_around {data : ℕ → UInt8} {pos : ℕ} (hpos : pos ≤ FW_LOG_SIZE)
    (hlow : FW_LOG_SIZE ≤ pos+msg.length) (hhigh : pos+msg.length ≤ 2*FW_LOG_SIZE) :
    window FW_LOG_SIZE (store 0 (msg.drop (FW_LOG_SIZE-pos))
      (store pos (msg.take (FW_LOG_SIZE-pos)) data)) (msg.length-(FW_LOG_SIZE-pos)) FW_LOG_SIZE =
      (window FW_LOG_SIZE data pos FW_LOG_SIZE++msg).rtake FW_LOG_SIZE := by
  have htake : (msg.take (FW_LOG_SIZE-pos)).length = FW_LOG_SIZE-pos := by
    rw [List.length_take]
    omega
  have hfirst := window_store data pos
    (by omega : pos+(msg.take (FW_LOG_SIZE-pos)).length ≤ FW_LOG_SIZE)
  have hturn : window FW_LOG_SIZE (store pos (msg.take (FW_LOG_SIZE-pos)) data)
      (pos+(msg.take (FW_LOG_SIZE-pos)).length) FW_LOG_SIZE =
      window FW_LOG_SIZE (store pos (msg.take (FW_LOG_SIZE-pos)) data) 0 FW_LOG_SIZE := by
    apply window_congr
    rw [htake, Nat.add_sub_cancel' hpos, Nat.mod_self, Nat.zero_mod]
  have hdrop : (msg.drop (FW_LOG_SIZE-pos)).length = msg.length-(FW_LOG_SIZE-pos) :=
    List.length_drop
  have hsecond := window_store (store pos (msg.take (FW_LOG_SIZE-pos)) data) 0
    (by omega : 0+(msg.drop (FW_LOG_SIZE-pos)).length ≤ FW_LOG_SIZE)
  rw [Nat.zero_add, hdrop, ← hturn, hfirst] at hsecond
  rw [hsecond, rtake_write (by simp [window_length]), List.append_assoc, List.take_append_drop,
    Nat.min_eq_right (Nat.le_add_right ..)]

/-- What is written is behind what the ring holds, and the oldest cells give way. -/
theorem print_ring (hzero : 0 ∈ msg) (hend : b.endPos ≤ FW_LOG_SIZE)
    (hroom : b.endPos+msg.length ≤ 2*FW_LOG_SIZE) :
    ∃ b', rwnxRxHandlePrint b msg = some b' ∧ b'.start = b.start ∧
      b'.size = min (b.size+msg.length) FW_LOG_SIZE ∧ b'.endPos ≤ FW_LOG_SIZE ∧
      b'.endPos % FW_LOG_SIZE = (b.endPos+msg.length) % FW_LOG_SIZE ∧
      window FW_LOG_SIZE b'.data b'.endPos FW_LOG_SIZE =
        (window FW_LOG_SIZE b.data b.endPos FW_LOG_SIZE++msg).rtake FW_LOG_SIZE := by
  unfold rwnxRxHandlePrint
  rw [if_neg (not_not.mpr hzero)]
  by_cases hwrap : FW_LOG_SIZE < b.endPos+msg.length
  · rw [if_pos hwrap, if_neg (by omega)]
    refine ⟨_, rfl, rfl, rfl, ?_, ?_, store_around hend hwrap.le hroom⟩
    · change msg.length-(FW_LOG_SIZE-b.endPos) ≤ FW_LOG_SIZE
      omega
    · change (msg.length-(FW_LOG_SIZE-b.endPos)) % FW_LOG_SIZE = _
      have hsum : b.endPos+msg.length = msg.length-(FW_LOG_SIZE-b.endPos)+FW_LOG_SIZE := by omega
      rw [hsum, Nat.add_mod_right]
  · rw [if_neg hwrap]
    have hfit := Nat.le_of_not_lt hwrap
    exact ⟨_, rfl, rfl, rfl, hfit, rfl, window_store b.data b.endPos hfit⟩

theorem Holds.print (h : Holds b q) (hzero : 0 ∈ msg)
    (hroom : b.endPos+msg.length ≤ 2*FW_LOG_SIZE)
    (hexcess : FW_LOG_SIZE ∣ b.size+msg.length-FW_LOG_SIZE) :
    ∃ b', rwnxRxHandlePrint b msg = some b' ∧ Holds b' ((q++msg).rtake FW_LOG_SIZE) := by
  obtain ⟨b', hprint, hstart, hsize, hend, hmod, hring⟩ := print_ring hzero h.endPos hroom
  have hle : b'.size ≤ FW_LOG_SIZE := hsize ▸ Nat.min_le_right ..
  have hplace : (b'.start+b'.size) % FW_LOG_SIZE = b'.endPos % FW_LOG_SIZE := by
    have hall : (b.start+b.size+msg.length) % FW_LOG_SIZE =
        (b.endPos+msg.length) % FW_LOG_SIZE := Nat.ModEq.add_right _ h.place
    have hsum : b.start+b.size+msg.length =
        b'.start+b'.size+(b.size+msg.length-FW_LOG_SIZE) := by
      rw [hstart, hsize]
      omega
    obtain ⟨k, hk⟩ := hexcess
    rw [hmod, ← hall, hsum, hk, Nat.add_mul_mod_self_left]
  refine ⟨b', hprint, hstart ▸ h.start, hend, hle, hplace, ?_⟩
  rw [window_eq_rtake hle hplace, hring, rtake_rtake, Nat.min_eq_left hle, hsize,
    ← rtake_write (by rw [window_length]; exact h.size), ← window_eq_rtake h.size h.place, h.unread]

theorem Holds.available_le (h : Holds b q) : b.available ≤ b.size ∧
    b.start+b.available ≤ FW_LOG_SIZE := by
  have hstart := h.start
  unfold FwLogBuf.available
  split_ifs <;> omega

theorem Holds.read (h : Holds b q)
    (hleft : FW_LOG_SIZE ≤ b.start+b.size → FW_LOG_SIZE ∣ min left b.available) :
    ∃ q', q = (rwnxDbgfsFwLogRead b left).1++q' ∧ Holds (rwnxDbgfsFwLogRead b left).2 q' ∧
      (rwnxDbgfsFwLogRead b left).1.length = b.available-left := by
  obtain ⟨havail, hinside⟩ := h.available_le
  have hstart := h.start
  have hsize := h.size
  generalize hnot : min left b.available = notCpy at hleft
  have hnb : b.available-notCpy ≤ b.size := by omega
  have hout : (rwnxDbgfsFwLogRead b left).1 = q.take (b.available-notCpy) := by
    change (cells b.data b.start b.available).take (b.available-min left b.available) = _
    rw [hnot, ← h.unread, ← window_eq_cells hinside, window_take (Nat.sub_le ..),
      window_take hnb]
  -- the ring comes back to its start with the bytes copied up to its end
  have hnext : (rwnxDbgfsFwLogRead b left).2.start % FW_LOG_SIZE =
      (b.start+(b.available-notCpy)) % FW_LOG_SIZE ∧
      (rwnxDbgfsFwLogRead b left).2.start < FW_LOG_SIZE := by
    change (if FW_LOG_SIZE ≤ b.start+b.size then 0 else b.start+b.size-min left b.available) %
      FW_LOG_SIZE = _ ∧ (if FW_LOG_SIZE ≤ b.start+b.size then 0
        else b.start+b.size-min left b.available) < FW_LOG_SIZE
    rw [hnot]
    unfold FwLogBuf.available at hnb hnot ⊢
    split_ifs at hnb hnot ⊢ with hring
    · refine ⟨?_, by decide⟩
      by_cases hcopied : notCpy = 0
      · rw [hcopied, Nat.sub_zero, Nat.add_sub_cancel' hstart.le, Nat.mod_self, Nat.zero_mod]
      · have hwhole := Nat.le_of_dvd (Nat.pos_of_ne_zero hcopied) (hleft hring)
        have hzero : b.start+(FW_LOG_SIZE-b.start-notCpy) = 0 := by omega
        rw [hzero]
    · refine ⟨congrArg (· % FW_LOG_SIZE) ?_, ?_⟩ <;> omega
  have hrest : (rwnxDbgfsFwLogRead b left).2.size = b.size-(b.available-notCpy) := by
    rw [← hnot]
    rfl
  refine ⟨q.drop (b.available-notCpy), ?_, ?_, ?_⟩
  · rw [hout, List.take_append_drop]
  · refine ⟨hnext.2, h.endPos, ?_, ?_, ?_⟩
    · rw [hrest]
      omega
    · have hplace : ((rwnxDbgfsFwLogRead b left).2.start+(b.size-(b.available-notCpy))) %
          FW_LOG_SIZE = (b.start+(b.available-notCpy)+(b.size-(b.available-notCpy))) %
          FW_LOG_SIZE := Nat.ModEq.add_right _ hnext.1
      have hsum : b.start+(b.available-notCpy)+(b.size-(b.available-notCpy)) =
          b.start+b.size := by omega
      rw [hrest, hplace, hsum, h.place]
      rfl
    · rw [hrest, window_congr hnext.1, ← window_drop hnb]
      exact congrArg (List.drop _) h.unread
  · rw [hout, List.length_take, h.length]
    omega

/-! ## Runs -/

theorem step_holds (s : Session) (e : Event) (hfits : Fits s e)
    (h : ∃ q, Fifo FW_LOG_SIZE s.ops s.outs q ∧ Holds s.buf q) :
    ∃ t, step s e = some t ∧ ∃ q, Fifo FW_LOG_SIZE t.ops t.outs q ∧ Holds t.buf q := by
  obtain ⟨q, hfifo, hholds⟩ := h
  cases e with
  | print msg =>
    obtain ⟨hzero, hroom, hexcess⟩ := hfits
    obtain ⟨b', hprint, hnext⟩ := hholds.print hzero hroom hexcess
    exact ⟨_, Option.map_eq_some_iff.mpr ⟨b', hprint, rfl⟩, _, hfifo.write msg, hnext⟩
  | read count left =>
    obtain ⟨hcount, hleft⟩ := hfits
    obtain ⟨q', hq, hnext, hlen⟩ := hholds.read hleft
    exact ⟨_, rfl, q', (hq ▸ hfifo).read (by omega), hnext⟩

/-- A run in which every message and every read fits is one of a queue, and no access leaves the
ring or the message. -/
theorem run_isFifo (data : ℕ → UInt8) (es : List Event)
    (h : Meets step Fits (.init data) es) :
    ∃ t, exec step (.init data) es = some t ∧ t.IsFifo := by
  obtain ⟨t, hrun, q, hfifo, -⟩ := exec_progress step_holds
    ⟨[], .start, holds_init data⟩ h
  exact ⟨t, hrun, q, hfifo⟩

instance (s : Session) (e : Event) : Decidable (Fits s e) := by
  cases e <;> exact inferInstanceAs (Decidable (_ ∧ _))

theorem two_messages_isFifo :
    ∃ t, exec step (.init fun _ => 0)
      [.print [65, 66, 0], .read 2048 1, .print [67, 0], .read 2048 0] = some t ∧ t.IsFifo :=
  run_isFifo _ _ (by decide)

/-- Two bytes are returned where one was asked for. -/
theorem short_read_overrun :
    ∃ t, exec step (.init fun _ => 0) [.print [65, 0], .read 1 0] = some t ∧ ¬ t.IsFifo := by
  refine ⟨_, rfl, ?_⟩
  rintro ⟨q, hfifo⟩
  exact absurd hfifo.outs_length (by decide)

end AIC.FirmwareLog
