/-
The emitters of A32 instructions with 32-bit immediates.

Each emitter is written with the word it passes to `emitU32`.  An immediate that has no
encoding is tried in its negated or complemented form with the inverse opcode, and a write
of a register to itself that changes nothing is left out.
-/
import VitaSX2.A32.CodeBuffer
import VitaSX2.A32.Immediate

namespace VitaSX2.A32

/-- `Condition`. -/
inductive Condition
  | EQ | NE | CS | CC | MI | PL | VS | VC | HI | LS | GE | LT | GT | LE | AL
deriving DecidableEq, Repr

def Condition.value : Condition → BitVec 4
  | EQ => 0x0
  | NE => 0x1
  | CS => 0x2
  | CC => 0x3
  | MI => 0x4
  | PL => 0x5
  | VS => 0x6
  | VC => 0x7
  | HI => 0x8
  | LS => 0x9
  | GE => 0xa
  | LT => 0xb
  | GT => 0xc
  | LE => 0xd
  | AL => 0xe

/-! ### Parts of a word -/

def dataProcessingImm : BitVec 32 := 0x02000000
def opcodeAnd : BitVec 32 := 0x00000000
def opcodeEor : BitVec 32 := 0x00200000
def opcodeSub : BitVec 32 := 0x00400000
def opcodeRsb : BitVec 32 := 0x00600000
def opcodeAdd : BitVec 32 := 0x00800000
def opcodeOrr : BitVec 32 := 0x01800000
def opcodeMov : BitVec 32 := 0x01a00000
def opcodeBic : BitVec 32 := 0x01c00000
def opcodeMvn : BitVec 32 := 0x01e00000
def setFlagsBit : BitVec 32 := 0x00100000
def movw : BitVec 32 := 0x03000000
def movt : BitVec 32 := 0x03400000

def isRegister (reg : ℕ) : Bool := reg < 16

def isGeneralRegister (reg : ℕ) : Bool := reg < 15

def canElideSameRegisterWrite (rd rn : ℕ) : Bool := rd == rn && isGeneralRegister rd

def condBits (condition : Condition) : BitVec 32 := condition.value.setWidth 32 <<< 28

/-- `(reg & 0xfu) << shift`. -/
def registerBits (reg shift : ℕ) : BitVec 32 := (BitVec.ofNat 32 reg &&& 0xf) <<< shift

/-- `set_flags ? SET_FLAGS : 0`. -/
def flagBits (setFlags : Bool) : BitVec 32 := if setFlags then setFlagsBit else 0

/-- The word of an operation on a register and an encoded immediate. -/
def dataProcessingWord (condition : Condition) (opcode : BitVec 32) (setFlags : Bool) (rn rd : ℕ)
    (encoded : BitVec 32) : BitVec 32 :=
  condBits condition ||| dataProcessingImm ||| opcode ||| flagBits setFlags |||
    registerBits rn 16 ||| registerBits rd 12 ||| encoded

/-- The word of `MOV` or `MVN` of an encoded immediate. -/
def moveWord (condition : Condition) (opcode : BitVec 32) (rd : ℕ) (encoded : BitVec 32) :
    BitVec 32 :=
  condBits condition ||| dataProcessingImm ||| opcode ||| registerBits rd 12 ||| encoded

def encodeMovw (rd : ℕ) (value : BitVec 16) (condition : Condition) : BitVec 32 :=
  condBits condition ||| movw ||| (value.setWidth 32 &&& 0xf000) <<< 4 ||| registerBits rd 12 |||
    value.setWidth 32 &&& 0x0fff

def encodeMovt (rd : ℕ) (value : BitVec 16) (condition : Condition) : BitVec 32 :=
  condBits condition ||| movt ||| (value.setWidth 32 &&& 0xf000) <<< 4 ||| registerBits rd 12 |||
    value.setWidth 32 &&& 0x0fff

def encodeMvnReg (rd rm : ℕ) (setFlags : Bool) : BitVec 32 :=
  condBits .AL ||| opcodeMvn ||| flagBits setFlags ||| registerBits rd 12 |||
    (BitVec.ofNat 32 rm &&& 0xf)

/-! ### Emitters -/

variable (memory : JitMemory)

def emitMovImm32Patchable (rd : ℕ) (value : BitVec 32) : Emit :=
  if !isRegister rd then Emit.fail
  else
    (emitU32 memory (encodeMovw rd (value.setWidth 16) .AL)).andThen
      (emitU32 memory (encodeMovt rd ((value >>> 16).setWidth 16) .AL))

def emitMovImm32 (rd : ℕ) (value : BitVec 32) (condition : Condition) : Emit :=
  if !isRegister rd then Emit.fail
  else
    match encodeModifiedImmediate value with
    | some encoded => emitU32 memory (moveWord condition opcodeMov rd encoded)
    | none =>
      match encodeModifiedImmediate (~~~value) with
      | some encoded => emitU32 memory (moveWord condition opcodeMvn rd encoded)
      | none =>
        if value >>> 16 = 0 then
          emitU32 memory (encodeMovw rd (value.setWidth 16) condition)
        else if condition ≠ .AL then
          (emitU32 memory (encodeMovw rd (value.setWidth 16) condition)).andThen
            (emitU32 memory (encodeMovt rd ((value >>> 16).setWidth 16) condition))
        else emitMovImm32Patchable memory rd value

def emitAddImm32 (rd rn : ℕ) (value : BitVec 32) (setFlags : Bool) : Emit :=
  if !isRegister rd || !isRegister rn then Emit.fail
  else if !setFlags ∧ value = 0 ∧ canElideSameRegisterWrite rd rn then Emit.skip
  else
    match encodeModifiedImmediate value with
    | none =>
      match encodeModifiedImmediate (0 - value) with
      | none => Emit.fail
      | some encoded =>
        emitU32 memory (dataProcessingWord .AL opcodeSub setFlags rn rd encoded)
    | some encoded => emitU32 memory (dataProcessingWord .AL opcodeAdd setFlags rn rd encoded)

def emitSubImm32 (rd rn : ℕ) (value : BitVec 32) (setFlags : Bool) : Emit :=
  if !isRegister rd || !isRegister rn then Emit.fail
  else if !setFlags ∧ value = 0 ∧ canElideSameRegisterWrite rd rn then Emit.skip
  else
    match encodeModifiedImmediate value with
    | none =>
      match encodeModifiedImmediate (0 - value) with
      | none => Emit.fail
      | some encoded =>
        emitU32 memory (dataProcessingWord .AL opcodeAdd setFlags rn rd encoded)
    | some encoded => emitU32 memory (dataProcessingWord .AL opcodeSub setFlags rn rd encoded)

def emitRsbImm32 (rd rn : ℕ) (value : BitVec 32) (setFlags : Bool) : Emit :=
  if !isRegister rd || !isRegister rn then Emit.fail
  else
    match encodeModifiedImmediate value with
    | none => Emit.fail
    | some encoded => emitU32 memory (dataProcessingWord .AL opcodeRsb setFlags rn rd encoded)

def emitAndImm32 (rd rn : ℕ) (value : BitVec 32) (setFlags : Bool) : Emit :=
  if !isRegister rd || !isRegister rn then Emit.fail
  else if !setFlags ∧ value = 0xffffffff ∧ canElideSameRegisterWrite rd rn then Emit.skip
  else
    match encodeModifiedImmediate value with
    | some encoded => emitU32 memory (dataProcessingWord .AL opcodeAnd setFlags rn rd encoded)
    | none =>
      match if setFlags then none else encodeModifiedImmediate (~~~value) with
      | none => Emit.fail
      | some encoded => emitU32 memory (dataProcessingWord .AL opcodeBic false rn rd encoded)

def emitBicImm32 (rd rn : ℕ) (value : BitVec 32) (setFlags : Bool) (condition : Condition) : Emit :=
  if !isRegister rd || !isRegister rn then Emit.fail
  else if !setFlags ∧ value = 0 ∧ canElideSameRegisterWrite rd rn then Emit.skip
  else
    match encodeModifiedImmediate value with
    | some encoded => emitU32 memory (dataProcessingWord condition opcodeBic setFlags rn rd encoded)
    | none =>
      match if setFlags then none else encodeModifiedImmediate (~~~value) with
      | none => Emit.fail
      | some encoded => emitU32 memory (dataProcessingWord condition opcodeAnd false rn rd encoded)

def emitMvnReg (rd rm : ℕ) (setFlags : Bool) : Emit :=
  if !isRegister rd || !isRegister rm then Emit.fail
  else emitU32 memory (encodeMvnReg rd rm setFlags)

def emitEorImm32 (rd rn : ℕ) (value : BitVec 32) (setFlags : Bool) : Emit :=
  if !isRegister rd || !isRegister rn then Emit.fail
  else if !setFlags ∧ value = 0 ∧ canElideSameRegisterWrite rd rn then Emit.skip
  else if !setFlags ∧ value = 0xffffffff then emitMvnReg memory rd rn false
  else
    match encodeModifiedImmediate value with
    | none => Emit.fail
    | some encoded => emitU32 memory (dataProcessingWord .AL opcodeEor setFlags rn rd encoded)

def emitOrrImm32 (rd rn : ℕ) (value : BitVec 32) (setFlags : Bool) (condition : Condition) : Emit :=
  if !isRegister rd || !isRegister rn then Emit.fail
  else if !setFlags ∧ value = 0 ∧ canElideSameRegisterWrite rd rn then Emit.skip
  else
    match encodeModifiedImmediate value with
    | none => Emit.fail
    | some encoded => emitU32 memory (dataProcessingWord condition opcodeOrr setFlags rn rd encoded)

-- `ADDS r1, r2, #0xffffffff` has no encoding: `SUBS r1, r2, #1` is written in its place
example : (emitAddImm32 ⟨fun _ capacity => some capacity, fun _ _ => none⟩ 1 2 0xffffffff true
    ⟨true, [], 64, false, false, 0, 0, 0⟩).2.words = [0xe2521001] := by decide +kernel

end VitaSX2.A32
