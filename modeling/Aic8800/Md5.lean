import Mathlib
import Aic8800.Lib.BlockStream

/-!
# The digest that is printed of a firmware file

`MD5Init`, `MD5Update` and `MD5Final`, with the 64 lines of `MD5Transform` as they
stand. The four registers take turns in the lines. In the rounds of the
specification the register that is written is always the same one.
-/

set_option autoImplicit false

namespace AIC.Md5

/-- The variables of `MD5Transform`. -/
inductive Reg
  | a | b | c | d
deriving DecidableEq

structure State where
  a : UInt32
  b : UInt32
  c : UInt32
  d : UInt32
deriving DecidableEq

def State.get (s : State) : Reg → UInt32
  | .a => s.a
  | .b => s.b
  | .c => s.c
  | .d => s.d

def State.set (s : State) (v : UInt32) : Reg → State
  | .a => { s with a := v }
  | .b => { s with b := v }
  | .c => { s with c := v }
  | .d => { s with d := v }

def State.add (s t : State) : State := ⟨s.a+t.a, s.b+t.b, s.c+t.c, s.d+t.d⟩

/-- The four macros. -/
inductive Func
  | ff | gg | hh | ii
deriving DecidableEq

/-- `F`, `G`, `H` and `I` -/
def Func.mix (x y z : UInt32) : Func → UInt32
  | .ff => (x &&& y) ||| (~~~x &&& z)
  | .gg => (x &&& z) ||| (y &&& ~~~z)
  | .hh => x ^^^ y ^^^ z
  | .ii => y ^^^ (x ||| ~~~z)

def rotateLeft (x n : UInt32) : UInt32 := (x <<< n) ||| (x >>> (32-n))

/-- `FF(a, b, c, d, x[k], s, ac)`, and the same for the other three. -/
structure Line where
  func : Func
  a : Reg
  b : Reg
  c : Reg
  d : Reg
  k : ℕ
  s : UInt32
  ac : UInt32
deriving DecidableEq

def Line.exec (x : ℕ → UInt32) (v : State) (l : Line) : State :=
  let sum := v.get l.a+(l.func.mix (v.get l.b) (v.get l.c) (v.get l.d)+x l.k+l.ac)
  v.set (rotateLeft sum l.s+v.get l.b) l.a

def lines : List Line :=
  [⟨.ff, .a, .b, .c, .d, 0, 7, 0xd76aa478⟩, ⟨.ff, .d, .a, .b, .c, 1, 12, 0xe8c7b756⟩,
   ⟨.ff, .c, .d, .a, .b, 2, 17, 0x242070db⟩, ⟨.ff, .b, .c, .d, .a, 3, 22, 0xc1bdceee⟩,
   ⟨.ff, .a, .b, .c, .d, 4, 7, 0xf57c0faf⟩, ⟨.ff, .d, .a, .b, .c, 5, 12, 0x4787c62a⟩,
   ⟨.ff, .c, .d, .a, .b, 6, 17, 0xa8304613⟩, ⟨.ff, .b, .c, .d, .a, 7, 22, 0xfd469501⟩,
   ⟨.ff, .a, .b, .c, .d, 8, 7, 0x698098d8⟩, ⟨.ff, .d, .a, .b, .c, 9, 12, 0x8b44f7af⟩,
   ⟨.ff, .c, .d, .a, .b, 10, 17, 0xffff5bb1⟩, ⟨.ff, .b, .c, .d, .a, 11, 22, 0x895cd7be⟩,
   ⟨.ff, .a, .b, .c, .d, 12, 7, 0x6b901122⟩, ⟨.ff, .d, .a, .b, .c, 13, 12, 0xfd987193⟩,
   ⟨.ff, .c, .d, .a, .b, 14, 17, 0xa679438e⟩, ⟨.ff, .b, .c, .d, .a, 15, 22, 0x49b40821⟩,
   ⟨.gg, .a, .b, .c, .d, 1, 5, 0xf61e2562⟩, ⟨.gg, .d, .a, .b, .c, 6, 9, 0xc040b340⟩,
   ⟨.gg, .c, .d, .a, .b, 11, 14, 0x265e5a51⟩, ⟨.gg, .b, .c, .d, .a, 0, 20, 0xe9b6c7aa⟩,
   ⟨.gg, .a, .b, .c, .d, 5, 5, 0xd62f105d⟩, ⟨.gg, .d, .a, .b, .c, 10, 9, 0x2441453⟩,
   ⟨.gg, .c, .d, .a, .b, 15, 14, 0xd8a1e681⟩, ⟨.gg, .b, .c, .d, .a, 4, 20, 0xe7d3fbc8⟩,
   ⟨.gg, .a, .b, .c, .d, 9, 5, 0x21e1cde6⟩, ⟨.gg, .d, .a, .b, .c, 14, 9, 0xc33707d6⟩,
   ⟨.gg, .c, .d, .a, .b, 3, 14, 0xf4d50d87⟩, ⟨.gg, .b, .c, .d, .a, 8, 20, 0x455a14ed⟩,
   ⟨.gg, .a, .b, .c, .d, 13, 5, 0xa9e3e905⟩, ⟨.gg, .d, .a, .b, .c, 2, 9, 0xfcefa3f8⟩,
   ⟨.gg, .c, .d, .a, .b, 7, 14, 0x676f02d9⟩, ⟨.gg, .b, .c, .d, .a, 12, 20, 0x8d2a4c8a⟩,
   ⟨.hh, .a, .b, .c, .d, 5, 4, 0xfffa3942⟩, ⟨.hh, .d, .a, .b, .c, 8, 11, 0x8771f681⟩,
   ⟨.hh, .c, .d, .a, .b, 11, 16, 0x6d9d6122⟩, ⟨.hh, .b, .c, .d, .a, 14, 23, 0xfde5380c⟩,
   ⟨.hh, .a, .b, .c, .d, 1, 4, 0xa4beea44⟩, ⟨.hh, .d, .a, .b, .c, 4, 11, 0x4bdecfa9⟩,
   ⟨.hh, .c, .d, .a, .b, 7, 16, 0xf6bb4b60⟩, ⟨.hh, .b, .c, .d, .a, 10, 23, 0xbebfbc70⟩,
   ⟨.hh, .a, .b, .c, .d, 13, 4, 0x289b7ec6⟩, ⟨.hh, .d, .a, .b, .c, 0, 11, 0xeaa127fa⟩,
   ⟨.hh, .c, .d, .a, .b, 3, 16, 0xd4ef3085⟩, ⟨.hh, .b, .c, .d, .a, 6, 23, 0x4881d05⟩,
   ⟨.hh, .a, .b, .c, .d, 9, 4, 0xd9d4d039⟩, ⟨.hh, .d, .a, .b, .c, 12, 11, 0xe6db99e5⟩,
   ⟨.hh, .c, .d, .a, .b, 15, 16, 0x1fa27cf8⟩, ⟨.hh, .b, .c, .d, .a, 2, 23, 0xc4ac5665⟩,
   ⟨.ii, .a, .b, .c, .d, 0, 6, 0xf4292244⟩, ⟨.ii, .d, .a, .b, .c, 7, 10, 0x432aff97⟩,
   ⟨.ii, .c, .d, .a, .b, 14, 15, 0xab9423a7⟩, ⟨.ii, .b, .c, .d, .a, 5, 21, 0xfc93a039⟩,
   ⟨.ii, .a, .b, .c, .d, 12, 6, 0x655b59c3⟩, ⟨.ii, .d, .a, .b, .c, 3, 10, 0x8f0ccc92⟩,
   ⟨.ii, .c, .d, .a, .b, 10, 15, 0xffeff47d⟩, ⟨.ii, .b, .c, .d, .a, 1, 21, 0x85845dd1⟩,
   ⟨.ii, .a, .b, .c, .d, 8, 6, 0x6fa87e4f⟩, ⟨.ii, .d, .a, .b, .c, 15, 10, 0xfe2ce6e0⟩,
   ⟨.ii, .c, .d, .a, .b, 6, 15, 0xa3014314⟩, ⟨.ii, .b, .c, .d, .a, 13, 21, 0x4e0811a1⟩,
   ⟨.ii, .a, .b, .c, .d, 4, 6, 0xf7537e82⟩, ⟨.ii, .d, .a, .b, .c, 11, 10, 0xbd3af235⟩,
   ⟨.ii, .c, .d, .a, .b, 2, 15, 0x2ad7d2bb⟩, ⟨.ii, .b, .c, .d, .a, 9, 21, 0xeb86d391⟩]

/-- `MD5Decode`, word `i` -/
def md5Decode (input : List UInt8) (i : ℕ) : UInt32 :=
  let byte j := (input.getD (4*i+j) 0).toUInt32
  byte 0 ||| (byte 1 <<< 8) ||| (byte 2 <<< 16) ||| (byte 3 <<< 24)

def md5Encode (input : List UInt32) : List UInt8 :=
  input.flatMap fun w : UInt32 =>
    [(w &&& 0xFF).toUInt8, ((w >>> 8) &&& 0xFF).toUInt8, ((w >>> 16) &&& 0xFF).toUInt8,
      ((w >>> 24) &&& 0xFF).toUInt8]

def md5Transform (state : State) (block : List UInt8) : State :=
  state.add (lines.foldl (Line.exec (md5Decode block)) state)

/-! ## The context -/

/-- The buffer of a context. -/
abbrev Buffer := {bytes : List UInt8 // bytes.length = 64}

structure Ctx where
  count0 : UInt32
  count1 : UInt32
  state : State
  buffer : Buffer

def initial : State := ⟨0x67452301, 0xEFCDAB89, 0x98BADCFE, 0x10325476⟩

/-- The buffer stays as it was. -/
def md5Init (context : Ctx) : Ctx := { context with count0 := 0, count1 := 0, state := initial }

/-- The bytes a copy reads. There are none where it goes past the end of the input. -/
def readBytes (input : List UInt8) (i len : ℕ) : Option (List UInt8) :=
  if i+len ≤ input.length then some ((input.drop i).take len) else none

/-- `memcpy(&context->buffer[index], bytes, len)`, inside the buffer. -/
def copyIn (buffer : Buffer) (index : ℕ) (bytes : List UInt8) : Option Buffer :=
  if h : index+bytes.length ≤ 64 then
    some ⟨buffer.val.take index++bytes++buffer.val.drop (index+bytes.length), by
      have hb := buffer.property
      simp only [List.length_append, List.length_take, List.length_drop]
      omega⟩
  else none

/-- `for (i = partlen; i+64 <= inputlen; i += 64)`. The sum is one of 32 bits. With as many
turns as the input has blocks there is no result only where the index went round. -/
def blockLoop (input : List UInt8) (inputlen : UInt32) :
    ℕ → UInt32 → State → Option (UInt32 × State)
  | 0, _, _ => none
  | fuel+1, i, state =>
    if i+64 ≤ inputlen then
      (readBytes input i.toNat 64).bind fun block =>
        blockLoop input inputlen fuel (i+64) (md5Transform state block)
    else some (i, state)

/-- `(context->count[0] >> 3) & 0x3F` -/
def Ctx.index (context : Ctx) : UInt32 := (context.count0 >>> 3) &&& 0x3F

/-- The two counters after the three lines about them. -/
def Ctx.counted (context : Ctx) (inputlen : UInt32) : Ctx :=
  let count0 := context.count0+(inputlen <<< 3)
  let carried := if count0 < inputlen <<< 3 then context.count1+1 else context.count1
  { context with count0 := count0, count1 := carried+(inputlen >>> 29) }

def md5Update (context : Ctx) (input : List UInt8) (inputlen : UInt32) : Option Ctx := do
  let index := context.index
  let partlen := 64-index
  let context := context.counted inputlen
  if partlen ≤ inputlen then
    let head ← readBytes input 0 partlen.toNat
    let buffer ← copyIn context.buffer index.toNat head
    let state := md5Transform context.state buffer.val
    let (i, state) ← blockLoop input inputlen (inputlen.toNat/64+1) partlen state
    let tail ← readBytes input i.toNat (inputlen-i).toNat
    let buffer ← copyIn buffer 0 tail
    some { context with state := state, buffer := buffer }
  else
    let tail ← readBytes input 0 inputlen.toNat
    let buffer ← copyIn context.buffer index.toNat tail
    some { context with buffer := buffer }

def padding : List UInt8 := 0x80::List.replicate 63 0

/-- `MD5Final`, the digest -/
def md5Final (context : Ctx) : Option (List UInt8) := do
  let index := context.index
  let padlen := if index < 56 then 56-index else 120-index
  let bits := md5Encode [context.count0, context.count1]
  let context ← md5Update context padding padlen
  let context ← md5Update context bits 8
  some (md5Encode [context.state.a, context.state.b, context.state.c, context.state.d])

/-! ## The rounds -/

def addends : List UInt32 :=
  [0xd76aa478, 0xe8c7b756, 0x242070db, 0xc1bdceee,
   0xf57c0faf, 0x4787c62a, 0xa8304613, 0xfd469501,
   0x698098d8, 0x8b44f7af, 0xffff5bb1, 0x895cd7be,
   0x6b901122, 0xfd987193, 0xa679438e, 0x49b40821,
   0xf61e2562, 0xc040b340, 0x265e5a51, 0xe9b6c7aa,
   0xd62f105d, 0x02441453, 0xd8a1e681, 0xe7d3fbc8,
   0x21e1cde6, 0xc33707d6, 0xf4d50d87, 0x455a14ed,
   0xa9e3e905, 0xfcefa3f8, 0x676f02d9, 0x8d2a4c8a,
   0xfffa3942, 0x8771f681, 0x6d9d6122, 0xfde5380c,
   0xa4beea44, 0x4bdecfa9, 0xf6bb4b60, 0xbebfbc70,
   0x289b7ec6, 0xeaa127fa, 0xd4ef3085, 0x04881d05,
   0xd9d4d039, 0xe6db99e5, 0x1fa27cf8, 0xc4ac5665,
   0xf4292244, 0x432aff97, 0xab9423a7, 0xfc93a039,
   0x655b59c3, 0x8f0ccc92, 0xffeff47d, 0x85845dd1,
   0x6fa87e4f, 0xfe2ce6e0, 0xa3014314, 0x4e0811a1,
   0xf7537e82, 0xbd3af235, 0x2ad7d2bb, 0xeb86d391]

/-- Which macro a round has. -/
def func (i : ℕ) : Func :=
  match i/16 with
  | 0 => .ff
  | 1 => .gg
  | 2 => .hh
  | _ => .ii

/-- Which word of the block a round adds. -/
def word (i : ℕ) : ℕ :=
  match i/16 with
  | 0 => i % 16
  | 1 => (5*i+1) % 16
  | 2 => (3*i+5) % 16
  | _ => (7*i) % 16

def shifts : List UInt32 := [7, 12, 17, 22, 5, 9, 14, 20, 4, 11, 16, 23, 6, 10, 15, 21]

def shift (i : ℕ) : UInt32 := shifts.getD (4*(i/16)+i % 4) 0

/-- A round writes `b` and moves the registers on by one place. -/
def round (x : ℕ → UInt32) (v : State) (i : ℕ) : State :=
  let sum := v.a+((func i).mix v.b v.c v.d+x (word i)+addends.getD i 0)
  ⟨v.d, rotateLeft sum (shift i)+v.b, v.b, v.c⟩

/-- The line that stands for round `i`. -/
def lineOf (i : ℕ) : Line :=
  match i % 4 with
  | 0 => ⟨func i, .a, .b, .c, .d, word i, shift i, addends.getD i 0⟩
  | 1 => ⟨func i, .d, .a, .b, .c, word i, shift i, addends.getD i 0⟩
  | 2 => ⟨func i, .c, .d, .a, .b, word i, shift i, addends.getD i 0⟩
  | _ => ⟨func i, .b, .c, .d, .a, word i, shift i, addends.getD i 0⟩

/-- The registers as round `i` finds them. -/
def view (i : ℕ) (v : State) : State :=
  match i % 4 with
  | 0 => v
  | 1 => ⟨v.d, v.a, v.b, v.c⟩
  | 2 => ⟨v.c, v.d, v.a, v.b⟩
  | _ => ⟨v.b, v.c, v.d, v.a⟩

theorem lines_eq : lines = (List.range 64).map lineOf := by decide

theorem view_exec (x : ℕ → UInt32) (v : State) (i : ℕ) :
    view (i+1) (Line.exec x v (lineOf i)) = round x (view i v) i := by
  have hturn : i % 4 = 0 ∧ (i+1) % 4 = 1 ∨ i % 4 = 1 ∧ (i+1) % 4 = 2 ∨
      i % 4 = 2 ∧ (i+1) % 4 = 3 ∨ i % 4 = 3 ∧ (i+1) % 4 = 0 := by omega
  unfold view lineOf
  rcases hturn with ⟨hi, hn⟩ | ⟨hi, hn⟩ | ⟨hi, hn⟩ | ⟨hi, hn⟩ <;> rw [hi, hn] <;> rfl

theorem view_lines (x : ℕ → UInt32) (v : State) (n : ℕ) :
    view n (((List.range n).map lineOf).foldl (Line.exec x) v) =
      (List.range n).foldl (round x) v := by
  induction n with
  | zero => rfl
  | succ n ih =>
    rw [List.range_succ, List.map_append, List.foldl_append, List.foldl_append, ← ih]
    exact view_exec x _ n

/-- After 64 lines the registers are back in their places. -/
theorem md5Transform_rounds (state : State) (block : List UInt8) :
    md5Transform state block =
      state.add ((List.range 64).foldl (round (md5Decode block)) state) := by
  rw [md5Transform, lines_eq, ← view_lines]
  rfl

end AIC.Md5
