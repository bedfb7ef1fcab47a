import Aic8800.RxAggregateTotal

/-!
# The aggregate format

Records laid out as the firmware sends them, each padded to a word, and what a
list of them is worth to the driver. Both record loops hand on exactly that,
whatever the bus state and the allocations are: they stand at the start of a
record at every turn, one on the bytes left, the other on an offset.
-/

set_option autoImplicit false

namespace AIC.RxAggregateFormat
open AIC.RxAggregate AIC.RxAggregateTotal Lib.LoopRun

/-- A frame behind its hardware header. `body` is what follows the type byte. -/
structure DataRecord where
  type : UInt8
  body : List UInt8
  pad : List UInt8
  kind : type &&& SDIO_TYPE_CFG ≠ SDIO_TYPE_CFG
  long : RX_HWHRD_LEN < body.length+3
  short : body.length+3 ≤ 65532
  padded : (body.length+3+pad.length) % 4 = 0 ∧ pad.length < 4

inductive CfgType where
  | cmdRsp | dataCfm | print

def CfgType.code : CfgType → UInt8
  | .cmdRsp => SDIO_TYPE_CFG_CMD_RSP
  | .dataCfm => SDIO_TYPE_CFG_DATA_CFM
  | .print => SDIO_TYPE_CFG_PRINT

structure ConfigRecord where
  cfg : CfgType
  type : UInt8
  fourth : UInt8
  body : List UInt8
  pad : List UInt8
  kind : type &&& 0x7F = cfg.code
  long : 0 < body.length
  short : body.length ≤ 65528
  padded : (body.length+pad.length) % 4 = 0 ∧ pad.length < 4

inductive Record where
  | data (d : DataRecord)
  | config (c : ConfigRecord)

def lowByte (n : ℕ) : UInt8 := UInt8.ofNat (n % 256)
def highByte (n : ℕ) : UInt8 := UInt8.ofNat (n/256)

def DataRecord.pktLen (d : DataRecord) : ℕ := d.body.length+3-RX_HWHRD_LEN

def DataRecord.bytes (d : DataRecord) : List UInt8 :=
  lowByte d.pktLen::highByte d.pktLen::d.type::d.body

def ConfigRecord.bytes (c : ConfigRecord) : List UInt8 :=
  lowByte c.body.length::highByte c.body.length::c.type::c.fourth::c.body

def Record.encode : Record → List UInt8
  | .data d => d.bytes++d.pad
  | .config c => c.bytes++c.pad

def stream (rs : List Record) : List UInt8 := rs.flatMap Record.encode

def ConfigRecord.dispatch (c : ConfigRecord) : Dispatch :=
  match c.cfg with
  | .cmdRsp => .rwnxRxHandleMsg c.body
  | .dataCfm => .aicwfSdioHostTxCfmHandler c.body
  | .print => .rwnxRxHandlePrint c.body c.body.length

def Record.dispatch : Record → Dispatch
  | .data d => .rwnxRxdataind d.bytes
  | .config c => c.dispatch

/-- With the bus down a command response is dropped. -/
def ConfigRecord.handed (c : ConfigRecord) (busDown : Bool) : List Dispatch :=
  match c.cfg with
  | .cmdRsp => if busDown then [] else [c.dispatch]
  | _ => [c.dispatch]

/-- What the records are worth: a data record without memory is skipped, a
configuration record without memory ends the work. -/
def deliver (busDown alloc : ℕ → Bool) : ℕ → List Record → Ending × List Dispatch
  | _, [] => (.done, [])
  | k, .data d::rs =>
    let (r, out) := deliver busDown alloc (k+1) rs
    (r, (if alloc k then [.rwnxRxdataind d.bytes] else [])++out)
  | k, .config c::rs =>
    if alloc k then
      let (r, out) := deliver busDown alloc (k+1) rs
      (r, c.handed (busDown k)++out)
    else (.ebade, [])

theorem deliver_all {busDown alloc : ℕ → Bool} (hb : ∀ k, busDown k = false)
    (ha : ∀ k, alloc k = true) (k : ℕ) (rs : List Record) :
    deliver busDown alloc k rs = (.done, rs.map Record.dispatch) := by
  induction rs generalizing k with
  | nil => rfl
  | cons r rs ih =>
    cases r with
    | data d => simp [deliver, ih, ha, Record.dispatch]
    | config c => cases hc : c.cfg <;> simp [deliver, ih, ha, hb, Record.dispatch,
        ConfigRecord.handed, hc]

/-! ## One record -/

theorem pktLen_bytes {n : ℕ} (hn : n < 65536) : pktLen (lowByte n) (highByte n) = n := by
  have hl : (lowByte n).toNat = n % 256 := by
    rw [lowByte, UInt8.toNat_ofNat']
    omega
  have hh : (highByte n).toNat = n/256 := by
    rw [highByte, UInt8.toNat_ofNat']
    omega
  rw [pktLen, hl, hh]
  omega

theorem adjustLen_pad {n p : ℕ} (hn : n ≤ 65532) (hp : (n+p) % 4 = 0 ∧ p < 4) :
    adjustLen n = n+p := by
  rw [adjustLen_eq, u16]
  omega

theorem data_pktLen_pos (d : DataRecord) : d.pktLen ≠ 0 := by
  have := d.long
  rw [DataRecord.pktLen]
  omega

theorem data_aggrLen (d : DataRecord) :
    u16 (pktLen (lowByte d.pktLen) (highByte d.pktLen)+RX_HWHRD_LEN) = d.bytes.length := by
  have h1 := d.long
  have h2 := d.short
  have hn : d.pktLen < 65536 := by
    rw [DataRecord.pktLen]
    omega
  rw [pktLen_bytes hn, u16, DataRecord.pktLen]
  simp only [DataRecord.bytes, List.length_cons]
  omega

theorem config_bit {type : UInt8} {t : CfgType} (h : type &&& 0x7F = t.code) :
    type &&& SDIO_TYPE_CFG = SDIO_TYPE_CFG := by
  have hmask : type &&& SDIO_TYPE_CFG = (type &&& 0x7F) &&& SDIO_TYPE_CFG := by
    rw [UInt8.and_assoc]
    rfl
  rw [hmask, h]
  cases t <;> decide

theorem config_handed (c : ConfigRecord) (busDown : Bool) :
    configDispatch busDown c.bytes c.body.length = c.handed busDown := by
  have hbyte : c.bytes.getD 2 0 &&& 0x7F = c.cfg.code := c.kind
  have hdrop : c.bytes.drop 4 = c.body := rfl
  simp only [configDispatch, hbyte, hdrop, ConfigRecord.handed, ConfigRecord.dispatch]
  cases c.cfg <;> cases busDown <;> rfl

section
variable {σ : Type*} (busDown alloc : Bool) (tail : List UInt8) (advance : ℕ → σ)

theorem record_data (d : DataRecord) :
    record busDown alloc (d.bytes++d.pad++tail) advance =
      .next (advance (d.bytes++d.pad).length)
        (if alloc then [.rwnxRxdataind d.bytes] else []) := by
  have hadj : adjustLen d.bytes.length = (d.bytes++d.pad).length := by
    rw [List.length_append]
    exact adjustLen_pad d.short d.padded
  have hlen : ¬ (d.bytes++d.pad++tail).length < d.bytes.length := by
    rw [List.append_assoc, List.length_append]
    omega
  have htake : (d.bytes++d.pad++tail).take d.bytes.length = d.bytes := by
    rw [List.append_assoc, List.take_left]
  have hcons : d.bytes++d.pad++tail =
      lowByte d.pktLen::highByte d.pktLen::d.type::(d.body++d.pad++tail) := rfl
  rw [hcons] at hlen htake ⊢
  simp only [record, if_pos d.kind, data_aggrLen d, hadj, if_neg hlen, htake]
  cases alloc <;> rfl

theorem record_config (c : ConfigRecord) :
    record busDown alloc (c.bytes++c.pad++tail) advance =
      if alloc then .next (advance (c.bytes++c.pad).length) (c.handed busDown)
      else .stop .ebade := by
  have hshort := c.short
  have hn : c.body.length < 65536 := by omega
  have hbytes : c.body.length+4 = c.bytes.length := rfl
  have hadj : adjustLen c.body.length+4 = (c.bytes++c.pad).length := by
    rw [adjustLen_pad (by omega) c.padded, List.length_append, ← hbytes]
    omega
  have hlen : ¬ (c.bytes++c.pad++tail).length < c.bytes.length := by
    rw [List.append_assoc, List.length_append]
    omega
  have htake : (c.bytes++c.pad++tail).take c.bytes.length = c.bytes := by
    rw [List.append_assoc, List.take_left]
  have hkind : ¬ (c.type &&& SDIO_TYPE_CFG ≠ SDIO_TYPE_CFG) := not_not.mpr (config_bit c.kind)
  have hcons : c.bytes++c.pad++tail = lowByte c.body.length::highByte c.body.length::c.type::
      (c.fourth::c.body++c.pad++tail) := rfl
  rw [hcons] at hlen htake ⊢
  simp only [record, if_neg hkind, pktLen_bytes hn, hbytes, hadj, if_neg hlen, htake,
    config_handed]

end

/-! ## Both loops at the start of a record -/

/-- The first two bytes of a record are a length that is not zero. -/
theorem encode_cons (r : Record) : ∃ lo hi rest, r.encode = lo::hi::rest ∧ pktLen lo hi ≠ 0 := by
  cases r with
  | data d =>
    have hshort := d.short
    have hn : d.pktLen < 65536 := by
      rw [DataRecord.pktLen]
      omega
    exact ⟨_, _, _, rfl, by rw [pktLen_bytes hn]; exact data_pktLen_pos d⟩
  | config c =>
    have hlong := c.long
    have hshort := c.short
    exact ⟨_, _, _, rfl, by rw [pktLen_bytes (by omega)]; omega⟩

theorem encode_aligned (r : Record) : r.encode.length % 4 = 0 := by
  cases r with
  | data d =>
    have hpad := d.padded.1
    simp only [Record.encode, DataRecord.bytes, List.length_append, List.length_cons]
    omega
  | config c =>
    have hpad := c.padded.1
    simp only [Record.encode, ConfigRecord.bytes, List.length_append, List.length_cons]
    omega

theorem skb_at (busDown alloc : ℕ → Bool) (k : ℕ) (r : Record) (tail : List UInt8) :
    skbTurn busDown alloc k (r.encode++tail) =
      record (busDown k) (alloc k) (r.encode++tail) (skbPull (r.encode++tail)) := by
  obtain ⟨lo, hi, rest, hr, hne⟩ := encode_cons r
  have hanother : aicwfAnotherPtk (r.encode++tail) = some true := by
    simp [hr, aicwfAnotherPtk, hne]
  simp only [skbTurn, hanother]

theorem rxbuff_at (busDown alloc : ℕ → Bool) (k : ℕ) (pre : List UInt8) (r : Record)
    (tail : List UInt8) {endAt : ℕ} (hpre : pre.length % 4 = 0) (hend : pre.length < endAt) :
    rxbuffTurn busDown alloc k ⟨pre++(r.encode++tail), pre.length, endAt⟩ =
      record (busDown k) (alloc k) (r.encode++tail)
        (fun n => ⟨pre++(r.encode++tail), pre.length+n, endAt⟩) := by
  obtain ⟨lo, hi, rest, hr, hne⟩ := encode_cons r
  have hdrop : (pre++(r.encode++tail)).drop pre.length = lo::hi::(rest++tail) := by
    rw [List.drop_left, hr]
    rfl
  simp only [rxbuffTurn, hpre, ne_eq, not_true, if_false, if_neg (not_le.mpr hend), hdrop,
    if_neg hne]
  rw [hr]
  rfl

theorem skbPull_append (l tail : List UInt8) : skbPull (l++tail) l.length = tail := by
  rw [skbPull_fits (by simp), List.drop_left]

theorem zeros_last {z : ℕ} (hz : z ≠ 1) : aicwfAnotherPtk (List.replicate z 0) = some false := by
  match z, hz with
  | 0, _ => rfl
  | z+2, _ => rfl

theorem skb_ends (busDown alloc : ℕ → Bool) {z : ℕ} (hz : z ≠ 1) (k : ℕ) (rs : List Record) :
    Ends (skbTurn busDown alloc) k (stream rs++List.replicate z 0)
      (deliver busDown alloc k rs).1 (deliver busDown alloc k rs).2 := by
  induction rs generalizing k with
  | nil => exact .stop (by simp only [skbTurn, stream, List.flatMap_nil, List.nil_append,
      zeros_last hz, deliver])
  | cons r rs ih =>
    have hturn := skb_at busDown alloc k r (stream rs++List.replicate z 0)
    have hsplit : stream (r::rs)++List.replicate z 0 =
        r.encode++(stream rs++List.replicate z 0) := List.append_assoc ..
    rw [hsplit]
    cases r with
    | data d =>
      simp only [Record.encode] at hturn
      rw [record_data, skbPull_append] at hturn
      exact .next hturn (ih (k+1))
    | config c =>
      simp only [Record.encode] at hturn
      rw [record_config, skbPull_append] at hturn
      simp only [deliver]
      cases ha : alloc k with
      | true => exact .next (by rw [ha] at hturn; exact hturn) (ih (k+1))
      | false => exact .stop (by rw [ha] at hturn; exact hturn)

theorem rxbuff_done (busDown alloc : ℕ → Bool) (k : ℕ) {pre : List UInt8} {z : ℕ}
    (rest : List UInt8) (hpre : pre.length % 4 = 0) (hz : z ≠ 1) :
    rxbuffTurn busDown alloc k ⟨pre++(List.replicate z 0++rest), pre.length, pre.length+z⟩ =
      .stop .done := by
  simp only [rxbuffTurn, hpre, ne_eq, not_true, if_false, List.drop_left]
  match z, hz with
  | 0, _ => simp
  | z+2, _ => simp [List.replicate_succ, show pktLen 0 0 = 0 from rfl]

theorem rxbuff_ends (busDown alloc : ℕ → Bool) {z : ℕ} (hz : z ≠ 1) (rest : List UInt8) (k : ℕ)
    (rs : List Record) (pre : List UInt8) (hpre : pre.length % 4 = 0) :
    Ends (rxbuffTurn busDown alloc) k
      ⟨pre++(stream rs++(List.replicate z 0++rest)), pre.length, pre.length+(stream rs).length+z⟩
      (deliver busDown alloc k rs).1 (deliver busDown alloc k rs).2 := by
  induction rs generalizing k pre with
  | nil =>
    exact .stop (rxbuff_done busDown alloc k rest hpre hz)
  | cons r rs ih =>
    have halign := encode_aligned r
    have hlen : (stream (r::rs)).length = r.encode.length+(stream rs).length :=
      List.length_append ..
    have hpos : 0 < r.encode.length := by
      obtain ⟨lo, hi, tl, hr, -⟩ := encode_cons r
      simp [hr]
    have hsplit : stream (r::rs)++(List.replicate z 0++rest) =
        r.encode++(stream rs++(List.replicate z 0++rest)) := List.append_assoc ..
    have hturn := rxbuff_at busDown alloc k pre r (stream rs++(List.replicate z 0++rest)) hpre
      (show pre.length < pre.length+(stream (r::rs)).length+z by omega)
    have hnext := ih (k+1) (pre++r.encode) (by rw [List.length_append]; omega)
    rw [List.append_assoc, List.length_append, Nat.add_assoc pre.length, ← hlen] at hnext
    rw [hsplit]
    cases r with
    | data d =>
      simp only [Record.encode] at hturn hnext ⊢
      rw [record_data] at hturn
      exact .next hturn hnext
    | config c =>
      simp only [Record.encode] at hturn hnext ⊢
      rw [record_config] at hturn
      simp only [deliver]
      cases ha : alloc k with
      | true => exact .next (by rw [ha] at hturn; exact hturn) hnext
      | false => exact .stop (by rw [ha] at hturn; exact hturn)

def sampleResponse : ConfigRecord where
  cfg := .cmdRsp
  type := 0x11
  fourth := 0
  body := [1, 2, 3, 4, 5]
  pad := [0, 0, 0]
  kind := rfl
  long := by decide
  short := by decide
  padded := by decide

def sampleFrame : DataRecord where
  type := 0x01
  body := List.replicate 61 7
  pad := []
  kind := by decide
  long := by decide
  short := by decide
  padded := by decide

theorem sample_faults : Ends (skbTurn (fun _ => false) (fun _ => true)) 0
    (stream [.config sampleResponse]++[0]) .fault [sampleResponse.dispatch] := by
  have hnext : skbTurn (fun _ => false) (fun _ => true) 0 (stream [.config sampleResponse]++[0]) =
      .next [0] [sampleResponse.dispatch] := rfl
  have hstop : skbTurn (fun _ => false) (fun _ => true) 1 [0] = .stop .fault := rfl
  exact .next hnext (.stop hstop)

/-- A response is dropped with the bus down, a frame without memory; one byte
of padding is read as half a length. -/
theorem response_dropped :
    (¬ ∃ fuel, loop (skbTurn (fun _ => true) (fun _ => true)) fuel 0
      (stream [.config sampleResponse]) = (some .done, [sampleResponse.dispatch])) ∧
    (¬ ∃ fuel, loop (rxbuffTurn (fun _ => true) (fun _ => true)) fuel 0
      ⟨stream [.config sampleResponse], 0, 12⟩ = (some .done, [sampleResponse.dispatch])) ∧
    (¬ ∃ fuel, loop (skbTurn (fun _ => false) (fun _ => false)) fuel 0
      (stream [.data sampleFrame]) = (some .done, [.rwnxRxdataind sampleFrame.bytes])) ∧
    ¬ ∃ fuel, loop (skbTurn (fun _ => false) (fun _ => true)) fuel 0
      (stream [.config sampleResponse]++[0]) = (some .done, [sampleResponse.dispatch]) := by
  have hskb := skb_ends (z := 0) (fun _ => true) (fun _ => true) (by decide) 0
    [.config sampleResponse]
  have hrx := rxbuff_ends (z := 0) (fun _ => true) (fun _ => true) (by decide) [] 0
    [.config sampleResponse] [] rfl
  have hmem := skb_ends (z := 0) (fun _ => false) (fun _ => false) (by decide) 0
    [.data sampleFrame]
  refine ⟨?_, ?_, ?_, ?_⟩
  · rintro ⟨fuel, h⟩
    exact absurd (ends_unique hskb (ends_of_loop h)).2 (by decide)
  · rintro ⟨fuel, h⟩
    exact absurd (ends_unique hrx (ends_of_loop h)).2 (by decide)
  · rintro ⟨fuel, h⟩
    exact absurd (ends_unique hmem (ends_of_loop h)).2 (by decide)
  · rintro ⟨fuel, h⟩
    exact absurd (ends_unique sample_faults (ends_of_loop h)).1 (by decide)

/-- Both loops hand on what the records are worth: with the bus up and memory
for each of them, exactly the records, in order and to the handler of their type. -/
theorem loops_deliver (rs : List Record) {z : ℕ} (hz : z ≠ 1) (rest : List UInt8)
    (busDown alloc : ℕ → Bool) :
    (∃ fuel, loop (skbTurn busDown alloc) fuel 0 (stream rs++List.replicate z 0) =
      (some (deliver busDown alloc 0 rs).1, (deliver busDown alloc 0 rs).2)) ∧
    (∃ fuel, loop (rxbuffTurn busDown alloc) fuel 0
        ⟨stream rs++(List.replicate z 0++rest), 0, (stream rs).length+z⟩ =
      (some (deliver busDown alloc 0 rs).1, (deliver busDown alloc 0 rs).2)) ∧
    ((∀ k, busDown k = false) → (∀ k, alloc k = true) →
      deliver busDown alloc 0 rs = (.done, rs.map Record.dispatch)) := by
  have hrx := rxbuff_ends busDown alloc hz rest 0 rs [] rfl
  rw [List.length_nil, Nat.zero_add, List.nil_append] at hrx
  exact ⟨loop_of_ends (skb_ends busDown alloc hz 0 rs), loop_of_ends hrx,
    fun hb ha => deliver_all hb ha 0 rs⟩

theorem loops_deliver_mixed :
    ∃ fuel, loop (rxbuffTurn (fun _ => false) (fun _ => true)) fuel 0
        ⟨stream [.config sampleResponse, .data sampleFrame]++([0, 0, 0, 0]++[9]), 0, 80⟩ =
      (some .done, [sampleResponse.dispatch, .rwnxRxdataind sampleFrame.bytes]) :=
  (loops_deliver [.config sampleResponse, .data sampleFrame] (z := 4) (by decide) [9]
    (fun _ => false) (fun _ => true)).2.1

end AIC.RxAggregateFormat
