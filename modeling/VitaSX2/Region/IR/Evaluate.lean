/-
The value of a node, given the values of its operands.

Single-precision arithmetic belongs to the host's floating-point unit and is a
parameter; everything else is a function of bits.
-/
import Mathlib.Algebra.Group.Int.Defs
import Mathlib.Algebra.Group.Nat.Defs
import VitaSX2.Region.IR.Program

namespace VitaSX2.RegionIR

/-- The single-precision operations of the host, on raw words. -/
structure FloatUnit where
  add : BitVec 32 → BitVec 32 → BitVec 32
  sub : BitVec 32 → BitVec 32 → BitVec 32
  mul : BitVec 32 → BitVec 32 → BitVec 32
  div : BitVec 32 → BitVec 32 → BitVec 32
  sqrt : BitVec 32 → BitVec 32
  equal : BitVec 32 → BitVec 32 → Bool
  less : BitVec 32 → BitVec 32 → Bool
  lessEqual : BitVec 32 → BitVec 32 → Bool
  /-- Conversion from a signed word. -/
  ofSigned : BitVec 32 → BitVec 32
  /-- Conversion to a signed word. -/
  toSigned : BitVec 32 → BitVec 32

/-! ### COP1 words -/

def cop1Sign : BitVec 32 := 0x80000000#32

def cop1Exponent : BitVec 32 := 0x7f800000#32

def cop1Fraction : BitVec 32 := 0x007fffff#32

def cop1MaxFinite : BitVec 32 := 0x7f7fffff#32

def fcr31O : BitVec 32 := 0x00008000#32

def fcr31U : BitVec 32 := 0x00004000#32

def fcr31SO : BitVec 32 := 0x00000010#32

def fcr31SU : BitVec 32 := 0x00000008#32

def fcr31C : BitVec 32 := 0x00800000#32

def normalizeCop1Input (value : BitVec 32) : BitVec 32 :=
  let exponent := value &&& cop1Exponent
  if exponent = 0 then value &&& cop1Sign
  else if exponent = cop1Exponent then value &&& cop1Sign ||| cop1MaxFinite
  else value

def isInfinite (raw : BitVec 32) : Bool := raw &&& ~~~cop1Sign == cop1Exponent

def isDenormal (raw : BitVec 32) : Bool :=
  raw &&& cop1Exponent == 0 && raw &&& cop1Fraction != 0

def clampBasicCop1Result (raw : BitVec 32) : BitVec 32 :=
  if isInfinite raw then raw &&& cop1Sign ||| cop1MaxFinite
  else if isDenormal raw then raw &&& cop1Sign
  else raw

def isExceptionalBasicCop1Result (raw : BitVec 32) : Bool := isInfinite raw || isDenormal raw

def updateBasicCop1OuFlags (fcr31 raw : BitVec 32) : BitVec 32 :=
  -- An overflow leaves the underflow cause as it was.
  if isInfinite raw then fcr31 ||| fcr31O ||| fcr31SO
  else
    let cleared := fcr31 &&& ~~~fcr31O
    if isDenormal raw then cleared ||| fcr31U ||| fcr31SU else cleared &&& ~~~fcr31U

def convertCop1Word (raw : BitVec 32) : BitVec 32 :=
  let exponentBits := raw &&& cop1Exponent
  let negative := raw &&& cop1Sign != 0
  if 0x4e800000#32 < exponentBits then
    if negative then 0x80000000#32 else 0x7fffffff#32
  else
    let exponent := exponentBits.toNat >>> 23
    if exponent < 127 then 0
    else
      let unbiased := exponent - 127
      let mantissa := raw &&& cop1Fraction ||| 0x00800000#32
      let magnitude :=
        if 23 ≤ unbiased then mantissa <<< (unbiased - 23) else mantissa >>> (23 - unbiased)
      if negative then 0 - magnitude else magnitude

def updateCop1ConditionFlag (fcr31 : BitVec 32) (condition : Bool) : BitVec 32 :=
  if condition then fcr31 ||| fcr31C else fcr31 &&& ~~~fcr31C

/-! ### Packed lanes -/

/-- One lane of `width` bits. -/
def packedLane (width : ℕ) (value : U128) (lane : ℕ) : BitVec width :=
  let perHalf := 64 / width
  let half := if lane < perHalf then value.lo else value.hi
  half.extractLsb' (lane % perHalf * width) width

def setPackedLane {width : ℕ} (value : U128) (lane : ℕ) (laneValue : BitVec width) : U128 :=
  let perHalf := 64 / width
  let shift := lane % perHalf * width
  let mask : BitVec 64 := (BitVec.allOnes width).setWidth 64 <<< shift
  let put (half : BitVec 64) : BitVec 64 :=
    half &&& ~~~mask ||| laneValue.setWidth 64 <<< shift
  if lane < perHalf then { value with lo := put value.lo } else { value with hi := put value.hi }

/-- A value from its lanes. -/
def buildLanes {width : ℕ} (lane : ℕ → BitVec width) : U128 :=
  (List.range (128 / width)).foldl (fun value index => setPackedLane value index (lane index)) 0

def mapPackedBinary {width : ℕ} (left right : U128)
    (operation : BitVec width → BitVec width → BitVec width) : U128 :=
  buildLanes fun lane => operation (packedLane width left lane) (packedLane width right lane)

section Lanes

variable {width : ℕ} (left right : BitVec width)

def packedCompareGreaterSigned : BitVec width :=
  if right.toInt < left.toInt then BitVec.allOnes width else 0

def packedCompareEqual : BitVec width := if left = right then BitVec.allOnes width else 0

def packedMaximumSigned : BitVec width := if right.toInt < left.toInt then left else right

def packedMinimumSigned : BitVec width := if right.toInt < left.toInt then right else left

/-- The nearest signed lane. -/
def clampSigned (width : ℕ) (result : ℤ) : BitVec width :=
  BitVec.ofInt width (max (-(2 ^ (width - 1))) (min result (2 ^ (width - 1) - 1)))

def packedAddSaturateSigned : BitVec width := clampSigned width (left.toInt + right.toInt)

def packedSubtractSaturateSigned : BitVec width := clampSigned width (left.toInt - right.toInt)

def packedAddSaturateUnsigned : BitVec width :=
  BitVec.ofNat width (min (left.toNat + right.toNat) (2 ^ width - 1))

def packedSubtractSaturateUnsigned : BitVec width := if right < left then left - right else 0

end Lanes

inductive PackedBinaryKind
  | addWrap8
  | addWrap16
  | addWrap32
  | subtractWrap8
  | subtractWrap16
  | subtractWrap32
  | compareGreaterSigned8
  | compareGreaterSigned16
  | compareGreaterSigned32
  | maximumSigned16
  | maximumSigned32
  | addSaturateSigned8
  | addSaturateSigned16
  | addSaturateSigned32
  | subtractSaturateSigned8
  | subtractSaturateSigned16
  | subtractSaturateSigned32
  | compareEqual8
  | compareEqual16
  | compareEqual32
  | minimumSigned16
  | minimumSigned32
  | addSaturateUnsigned8
  | addSaturateUnsigned16
  | addSaturateUnsigned32
  | subtractSaturateUnsigned8
  | subtractSaturateUnsigned16
  | subtractSaturateUnsigned32
  | interleaveLower32
  | interleaveUpper32
deriving DecidableEq, Repr

/-- The kinds in the order of their immediates. -/
def packedBinaryKinds : List PackedBinaryKind :=
  [.addWrap8, .addWrap16, .addWrap32, .subtractWrap8, .subtractWrap16, .subtractWrap32,
    .compareGreaterSigned8, .compareGreaterSigned16, .compareGreaterSigned32, .maximumSigned16,
    .maximumSigned32, .addSaturateSigned8, .addSaturateSigned16, .addSaturateSigned32,
    .subtractSaturateSigned8, .subtractSaturateSigned16, .subtractSaturateSigned32,
    .compareEqual8, .compareEqual16, .compareEqual32, .minimumSigned16, .minimumSigned32,
    .addSaturateUnsigned8, .addSaturateUnsigned16, .addSaturateUnsigned32,
    .subtractSaturateUnsigned8, .subtractSaturateUnsigned16, .subtractSaturateUnsigned32,
    .interleaveLower32, .interleaveUpper32]

/-- `RT0, RS0, RT1, RS1` from the words `first` and `first + 1`. -/
def interleave32 (first : ℕ) (left right : U128) : U128 :=
  buildLanes fun lane =>
    packedLane 32 (if lane % 2 = 0 then right else left) (first + lane / 2)

def evaluatePackedBinary (kind : PackedBinaryKind) (left right : U128) : U128 :=
  match kind with
  | .addWrap8 => mapPackedBinary left right fun x y : BitVec 8 => x + y
  | .addWrap16 => mapPackedBinary left right fun x y : BitVec 16 => x + y
  | .addWrap32 => mapPackedBinary left right fun x y : BitVec 32 => x + y
  | .subtractWrap8 => mapPackedBinary left right fun x y : BitVec 8 => x - y
  | .subtractWrap16 => mapPackedBinary left right fun x y : BitVec 16 => x - y
  | .subtractWrap32 => mapPackedBinary left right fun x y : BitVec 32 => x - y
  | .compareGreaterSigned8 => mapPackedBinary left right (@packedCompareGreaterSigned 8)
  | .compareGreaterSigned16 => mapPackedBinary left right (@packedCompareGreaterSigned 16)
  | .compareGreaterSigned32 => mapPackedBinary left right (@packedCompareGreaterSigned 32)
  | .maximumSigned16 => mapPackedBinary left right (@packedMaximumSigned 16)
  | .maximumSigned32 => mapPackedBinary left right (@packedMaximumSigned 32)
  | .addSaturateSigned8 => mapPackedBinary left right (@packedAddSaturateSigned 8)
  | .addSaturateSigned16 => mapPackedBinary left right (@packedAddSaturateSigned 16)
  | .addSaturateSigned32 => mapPackedBinary left right (@packedAddSaturateSigned 32)
  | .subtractSaturateSigned8 => mapPackedBinary left right (@packedSubtractSaturateSigned 8)
  | .subtractSaturateSigned16 => mapPackedBinary left right (@packedSubtractSaturateSigned 16)
  | .subtractSaturateSigned32 => mapPackedBinary left right (@packedSubtractSaturateSigned 32)
  | .compareEqual8 => mapPackedBinary left right (@packedCompareEqual 8)
  | .compareEqual16 => mapPackedBinary left right (@packedCompareEqual 16)
  | .compareEqual32 => mapPackedBinary left right (@packedCompareEqual 32)
  | .minimumSigned16 => mapPackedBinary left right (@packedMinimumSigned 16)
  | .minimumSigned32 => mapPackedBinary left right (@packedMinimumSigned 32)
  | .addSaturateUnsigned8 => mapPackedBinary left right (@packedAddSaturateUnsigned 8)
  | .addSaturateUnsigned16 => mapPackedBinary left right (@packedAddSaturateUnsigned 16)
  | .addSaturateUnsigned32 => mapPackedBinary left right (@packedAddSaturateUnsigned 32)
  | .subtractSaturateUnsigned8 => mapPackedBinary left right (@packedSubtractSaturateUnsigned 8)
  | .subtractSaturateUnsigned16 => mapPackedBinary left right (@packedSubtractSaturateUnsigned 16)
  | .subtractSaturateUnsigned32 => mapPackedBinary left right (@packedSubtractSaturateUnsigned 32)
  | .interleaveLower32 => interleave32 0 left right
  | .interleaveUpper32 => interleave32 2 left right

/-- The six packed shifts, by their immediates. -/
def evaluatePackedShift (kind amount : ℕ) (source : U128) : U128 :=
  match kind with
  | 0 => buildLanes fun lane => packedLane 16 source lane <<< amount
  | 1 => buildLanes fun lane => packedLane 16 source lane >>> amount
  | 2 => buildLanes fun lane => (packedLane 16 source lane).sshiftRight amount
  | 3 => buildLanes fun lane => packedLane 32 source lane <<< amount
  | 4 => buildLanes fun lane => packedLane 32 source lane >>> amount
  | _ => buildLanes fun lane => (packedLane 32 source lane).sshiftRight amount

/-! ### VU0 vectors -/

def normalizeVuFloat (overflowClamp : Bool) (value : BitVec 32) : BitVec 32 :=
  let exponent := value &&& cop1Exponent
  if exponent = 0 then value &&& cop1Sign
  else if overflowClamp && exponent == cop1Exponent then value &&& cop1Sign ||| cop1MaxFinite
  else value

def normalizeVuVector (overflowClamp : Bool) (value : U128) : U128 :=
  buildLanes fun lane => normalizeVuFloat overflowClamp (packedLane 32 value lane)

def broadcastVuLane (value : U128) (lane : ℕ) : U128 := buildLanes fun _ => packedLane 32 value lane

def broadcastVuScalar (overflowClamp : Bool) (value : BitVec 32) : U128 :=
  buildLanes fun _ => normalizeVuFloat overflowClamp value

inductive Vu0FdivKind
  | divide
  | squareRoot
  | reciprocalSquareRoot
deriving DecidableEq, Repr

structure Vu0FdivOp where
  kind : Vu0FdivKind
  fsLane : ℕ
  ftLane : ℕ

def decodeVu0FdivImmediate (immediate : ℕ) : Vu0FdivOp :=
  if 0x40 ≤ immediate ∨ 2 < immediate % 4 then ⟨.divide, 0, 0⟩
  else
    ⟨match immediate % 4 with
      | 0 => .divide
      | 1 => .squareRoot
      | _ => .reciprocalSquareRoot,
      immediate / 4 % 4, immediate / 16 % 4⟩

def evaluateVu0FdivQ (float : FloatUnit) (overflowClamp : Bool) (fdiv : Vu0FdivOp)
    (fsVector ftVector : U128) : BitVec 32 :=
  let fsRaw := packedLane 32 fsVector fdiv.fsLane
  let ftRaw := packedLane 32 ftVector fdiv.ftLane
  let fs := normalizeVuFloat overflowClamp fsRaw
  let ft := normalizeVuFloat overflowClamp ftRaw
  let root := float.sqrt (ft &&& ~~~cop1Sign)
  let q :=
    match fdiv.kind with
    | .divide =>
      if ft &&& ~~~cop1Sign = 0 then (fsRaw ^^^ ftRaw) &&& cop1Sign ||| cop1MaxFinite
      else float.div fs ft
    | .squareRoot => root
    | .reciprocalSquareRoot =>
      if ft &&& ~~~cop1Sign = 0 then
        let sign := (fsRaw ^^^ ftRaw) &&& cop1Sign
        if fs &&& ~~~cop1Sign = 0 then sign else sign ||| cop1MaxFinite
      else float.div fs root
  normalizeVuFloat overflowClamp q

def evaluateVu0FdivFlags (overflowClamp : Bool) (fdiv : Vu0FdivOp) (fsVector ftVector : U128) :
    BitVec 32 :=
  let fs := normalizeVuFloat overflowClamp (packedLane 32 fsVector fdiv.fsLane)
  let ft := normalizeVuFloat overflowClamp (packedLane 32 ftVector fdiv.ftLane)
  let fsZero := fs &&& ~~~cop1Sign == 0
  let ftZero := ft &&& ~~~cop1Sign == 0
  let ftNegative := ft &&& cop1Sign != 0
  match fdiv.kind with
  | .divide => if !ftZero then 0 else if fsZero then 0x10#32 else 0x20#32
  | .squareRoot => if !ftZero && ftNegative then 0x10#32 else 0
  | .reciprocalSquareRoot =>
    if ftZero then if fsZero then 0x30#32 else 0x20#32
    else if ftNegative then 0x10#32 else 0

/-- Lane `0` is selected by the highest of the four mask bits. -/
def maskSelects (mask lane : ℕ) : Bool := mask.testBit (3 - lane)

def clampVuFmacResult (overflowClamp : Bool) (raw : U128) (mask : ℕ) : U128 :=
  buildLanes fun lane =>
    let value := packedLane 32 raw lane
    let exponent := value &&& cop1Exponent
    if !maskSelects mask lane then value
    else if value &&& ~~~cop1Sign = 0 then value
    else if exponent = 0 then value &&& cop1Sign
    else if overflowClamp && exponent == cop1Exponent then value &&& cop1Sign ||| cop1MaxFinite
    else value

def vuMacFlagsFromRaw (raw : U128) (mask : ℕ) : BitVec 32 :=
  (List.range 4).foldl
    (fun flags lane =>
      if !maskSelects mask lane then flags
      else
        let value := packedLane 32 raw lane
        let shift := 3 - lane
        let signed := if value &&& cop1Sign != 0 then flags ||| 0x0010#32 <<< shift else flags
        if value &&& ~~~cop1Sign = 0 then signed ||| 0x0001#32 <<< shift
        else if value &&& cop1Exponent = 0 then signed ||| 0x0101#32 <<< shift
        else if value &&& cop1Exponent = cop1Exponent then signed ||| 0x1000#32 <<< shift
        else signed)
    0

def vuStatusFlagsFromMac (mac : BitVec 32) : BitVec 32 :=
  let flag (group status : BitVec 32) : BitVec 32 := if mac &&& group != 0 then status else 0
  flag 0x000f#32 1 ||| flag 0x00f0#32 2 ||| flag 0x0f00#32 4 ||| flag 0xf000#32 8

def convertVu0Fixed (float : FloatUnit) (source : U128) (offset : ℕ) : U128 :=
  let scale := 0x3f800000#32 + BitVec.ofNat 32 offset <<< 23
  buildLanes fun lane =>
    let lane := packedLane 32 source lane
    let raw := if offset ≠ 0 then float.mul lane scale else lane
    if 0x4f000000#32 ≤ raw &&& cop1Exponent then
      if raw &&& cop1Sign != 0 then 0x80000000#32 else 0x7fffffff#32
    else float.toSigned raw

def convertVu0IntegerToFloat (float : FloatUnit) (source : U128) (offset : ℕ) : U128 :=
  let scale := 0x3f800000#32 - BitVec.ofNat 32 offset <<< 23
  buildLanes fun lane =>
    let value := float.ofSigned (packedLane 32 source lane)
    if offset ≠ 0 then float.mul value scale else value

def rotateVu0Words (source : U128) : U128 :=
  buildLanes fun lane => packedLane 32 source ((lane + 1) % 4)

def mergeVuMasked (oldValue newValue : U128) (mask : ℕ) : U128 :=
  buildLanes fun lane => packedLane 32 (if maskSelects mask lane then newValue else oldValue) lane

def vu0ControlWrite (target : ℕ) (oldValue source : BitVec 32) : BitVec 32 :=
  if target = 0 ∨ target = 17 ∨ target = 26 ∨ target = 29 then oldValue
  else if target < 16 then oldValue &&& 0xffff0000#32 ||| source &&& 0xffff#32
  else if target = 16 then oldValue &&& 0x3f#32 ||| source &&& 0x0fc0#32
  else if target = 20 then source &&& 0x007fffff#32 ||| 0x3f800000#32
  else source

/-! ### Nodes -/

/-- The bits of an operand; an absent operand reads as zero. -/
def Node.operand (node : Node) (values : ValueId → U128) (index : ℕ) : U128 :=
  match node.operands[index]? with
  | some value => values value
  | none => 0

/-- A truth value in the low bit. -/
def bitsOfBool (condition : Bool) : U128 := bits (if condition then 1 else 0)

/-- The bits `Interpret` stores for a node that neither exits nor touches memory. -/
def evaluate (float : FloatUnit) (overflowClamp : Bool) (values : ValueId → U128) (node : Node) :
    U128 :=
  let first := node.operand values 0
  let second := node.operand values 1
  let left := first.lo
  let right := second.lo
  let third := (node.operand values 2).lo
  let left32 := left.setWidth 32
  let right32 := right.setWidth 32
  let variable32 := right32.toNat % 32
  let variable64 := right32.toNat % 64
  match node.opcode with
  | .constantI1 | .constantI32 | .constantI64 | .constantAddress => bits node.literal
  | .extractLow32 | .bitcastI32ToF32Bits | .bitcastF32BitsToI32 => bits32 left32
  | .extractLow64 => bits left
  | .extractHigh64 => bits first.hi
  | .replaceLow64 => { first with lo := right }
  | .replaceHigh64 => { first with hi := right }
  | .bitcastI128ToVuF32x4Bits | .bitcastVuF32x4BitsToI128 => first
  | .cop1NormalizeInput => bits32 (normalizeCop1Input left32)
  | .cop1AddRaw => bits32 (float.add left32 right32)
  | .cop1SubRaw => bits32 (float.sub left32 right32)
  | .cop1MulRaw => bits32 (float.mul left32 right32)
  | .cop1ExceptionalOuResult => bitsOfBool (isExceptionalBasicCop1Result left32)
  | .cop1ClampOuResult => bits32 (clampBasicCop1Result left32)
  | .cop1UpdateOuFlags => bits32 (updateBasicCop1OuFlags left32 right32)
  | .cop1CompareEqual => bitsOfBool (float.equal left32 right32)
  | .cop1CompareLess => bitsOfBool (float.less left32 right32)
  | .cop1CompareLessEqual => bitsOfBool (float.lessEqual left32 right32)
  | .cop1UpdateConditionFlag => bits32 (updateCop1ConditionFlag left32 (right != 0))
  | .cop1BranchCondition => bitsOfBool ((left32 &&& fcr31C != 0) == (node.immediate != 0))
  | .cop1AbsoluteWord => bits32 (left32 &&& 0x7fffffff#32)
  | .cop1NegateWord => bits32 (left32 ^^^ 0x80000000#32)
  | .cop1ClearOuFlags => bits32 (left32 &&& ~~~(fcr31O ||| fcr31U))
  | .cop1ConvertWord => bits32 (convertCop1Word left32)
  | .cop1ConvertSingle => bits32 (float.ofSigned left32)
  | .signExtend32To64 => bits (left32.signExtend 64)
  | .zeroExtend32To64 | .truncate64To32 | .addressFromI32 => bits32 left32
  | .multiplySigned32 => bits (left32.signExtend 64 * right32.signExtend 64)
  | .multiplyUnsigned32 => bits (left32.setWidth 64 * right32.setWidth 64)
  | .add32 | .effectiveAddress32 => bits32 (left32 + right32)
  | .signedAddOverflow32 =>
    bits32 ((~~~(left32 ^^^ right32) &&& (left32 ^^^ (left32 + right32))) >>> 31 &&& 1)
  | .add64 => bits (left + right)
  | .sub32 => bits32 (left32 - right32)
  | .sub64 => bits (left - right)
  | .and32 => bits32 (left32 &&& right32)
  | .and64 => bits (left &&& right)
  | .or64 => bits (left ||| right)
  | .xor32 => bits32 (left32 ^^^ right32)
  | .xor64 => bits (left ^^^ right)
  | .nor64 => bits (~~~(left ||| right))
  | .and128 => ⟨first.lo &&& second.lo, first.hi &&& second.hi⟩
  | .or128 => ⟨first.lo ||| second.lo, first.hi ||| second.hi⟩
  | .xor128 => ⟨first.lo ^^^ second.lo, first.hi ^^^ second.hi⟩
  | .nor128 => ⟨~~~(first.lo ||| second.lo), ~~~(first.hi ||| second.hi)⟩
  | .packedBinary128 =>
    match packedBinaryKinds[node.immediate]? with
    | some kind => evaluatePackedBinary kind first second
    | none => 0
  | .packedShift128 => evaluatePackedShift node.immediate (node.literal.setWidth 32).toNat first
  | .packLow64 => ⟨second.lo, first.lo⟩
  | .packHigh64 => ⟨first.hi, second.hi⟩
  | .broadcastLowHalfwordPer64 =>
    ⟨(first.lo &&& 0xffff#64) * 0x0001000100010001#64,
      (first.hi &&& 0xffff#64) * 0x0001000100010001#64⟩
  | .shiftLeft32 => bits32 (left32 <<< node.immediate)
  | .shiftRightLogical32 => bits32 (left32 >>> node.immediate)
  | .shiftRightArithmetic32 => bits32 (left32.sshiftRight node.immediate)
  | .shiftLeft64 => bits (left <<< node.immediate)
  | .shiftRightLogical64 => bits (left >>> node.immediate)
  | .shiftRightArithmetic64 => bits (left.sshiftRight node.immediate)
  | .shiftLeft32Variable => bits32 (left32 <<< variable32)
  | .shiftRightLogical32Variable => bits32 (left32 >>> variable32)
  | .shiftRightArithmetic32Variable => bits32 (left32.sshiftRight variable32)
  | .shiftLeft64Variable => bits (left <<< variable64)
  | .shiftRightLogical64Variable => bits (left >>> variable64)
  | .shiftRightArithmetic64Variable => bits (left.sshiftRight variable64)
  | .select64 => bits (if left ≠ 0 then right else third)
  | .compareEqual64 => bitsOfBool (left == right)
  | .compareNotEqual64 => bitsOfBool (left != right)
  | .compareSignedLess64 => bitsOfBool (left.slt right)
  | .compareUnsignedLess64 => bitsOfBool (left.ult right)
  | .compareSignedLessEqualZero64 => bitsOfBool (left.sle 0)
  | .compareSignedGreaterZero64 => bitsOfBool (BitVec.slt 0 left)
  | .compareSignedLessZero64 => bitsOfBool (left.slt 0)
  | .compareSignedGreaterEqualZero64 => bitsOfBool (BitVec.sle 0 left)
  | .memoryLoadValue => first
  | .vu0RequireIdle => second
  | .vu0ConvertFixed => convertVu0Fixed float first node.immediate
  | .vu0ConvertIntegerToFloat => convertVu0IntegerToFloat float first node.immediate
  | .vu0Rotate32 => rotateVu0Words first
  | .vu0NormalizeVector => normalizeVuVector overflowClamp first
  | .vu0BroadcastLane => broadcastVuLane first node.immediate
  | .vu0BroadcastScalar => broadcastVuScalar overflowClamp left32
  | .vu0FdivQ =>
    bits32 (evaluateVu0FdivQ float overflowClamp (decodeVu0FdivImmediate node.immediate)
      first second)
  | .vu0FdivFlags =>
    bits32 (evaluateVu0FdivFlags overflowClamp (decodeVu0FdivImmediate node.immediate)
      first second)
  | .vu0UpdateFdivStatus => bits32 (left32 &&& ~~~0x30#32 ||| right32 &&& 0x30#32)
  | .vu0SyncFdivStatusControl =>
    bits32 (left32 &&& 0x3cf#32 ||| right32 &&& 0x30#32 ||| (right32 &&& 0x30#32) <<< 6)
  | .vu0MulRaw => mapPackedBinary first second float.mul
  | .vu0AddRaw => mapPackedBinary first second float.add
  | .vu0SubRaw => mapPackedBinary first second float.sub
  | .vu0ClampFmacResult => clampVuFmacResult overflowClamp first node.immediate
  | .vu0MacFlagsFromRaw => bits32 (vuMacFlagsFromRaw first node.immediate)
  | .vu0StatusFlagsFromMac => bits32 (vuStatusFlagsFromMac left32)
  | .vu0MergeMasked => mergeVuMasked first second node.immediate
  | .vu0SyncStatusControl => bits32 (left32 &&& 0x0fc0#32 ||| right32 ||| right32 <<< 6)
  | .vu0ControlWrite => bits32 (vu0ControlWrite node.immediate left32 right32)
  | .vu0DenormalizeStatus =>
    bits32 (left32 >>> 3 &&& 0x18#32 ||| left32 <<< 11 &&& 0x1800#32 |||
      left32 <<< 14 &&& 0x03cf0000#32)
  | .advanceCycles => bits (left + BitVec.ofNat 64 node.immediate)
  -- Bindings and effects store zero bits under their own identity.
  | _ => 0

end VitaSX2.RegionIR
