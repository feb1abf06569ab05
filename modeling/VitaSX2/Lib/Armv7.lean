/-
The data-processing part of the ARMv7 instruction set, as executed on words.

The instructions with a modified immediate, those with an unshifted register and the two
sixteen-bit moves are decoded from their words and executed on the registers `r0` to `r14`
and the condition flags.  A word outside this part, one that names `r15` and one whose
behaviour is unpredictable decode or execute to `none`.
-/
import Mathlib.Logic.Function.Basic
import VitaSX2.Lib.BitField

namespace VitaSX2.Armv7

open BitField

/-- The condition flags. -/
structure Flags where
  n : Bool
  z : Bool
  c : Bool
  v : Bool
deriving DecidableEq, Repr

/-- The registers `r0` to `r14` and the condition flags. -/
structure State where
  regs : Fin 15 → BitVec 32
  flags : Flags

/-- The condition field: `0b1111` is not one, `0b1110` always holds. -/
def conditionHolds (cond : BitVec 4) (flags : Flags) : Bool :=
  match cond.toNat with
  | 0 => flags.z
  | 1 => !flags.z
  | 2 => flags.c
  | 3 => !flags.c
  | 4 => flags.n
  | 5 => !flags.n
  | 6 => flags.v
  | 7 => !flags.v
  | 8 => flags.c && !flags.z
  | 9 => !(flags.c && !flags.z)
  | 10 => flags.n == flags.v
  | 11 => flags.n != flags.v
  | 12 => !flags.z && flags.n == flags.v
  | 13 => !(!flags.z && flags.n == flags.v)
  | _ => true

/-! ### Operands and results -/

/-- `AddWithCarry`: the sum, its carry out and its signed overflow. -/
def addWithCarry (x y : BitVec 32) (carry : Bool) : BitVec 32 × Bool × Bool :=
  let unsignedSum := x.toNat + y.toNat + carry.toNat
  let signedSum := x.toInt + y.toInt + carry.toNat
  let result := BitVec.ofNat 32 unsignedSum
  (result, result.toNat != unsignedSum, result.toInt != signedSum)

/-- `ARMExpandImm_C`: eight bits rotated right by twice the upper four, with the carry out of
the shifter. -/
def expandImm (imm12 : BitVec 12) (carry : Bool) : BitVec 32 × Bool :=
  let unrotated := (imm12.setWidth 8).setWidth 32
  let amount := 2 * (imm12.extractLsb' 8 4).toNat
  let value := unrotated.rotateRight amount
  (value, if amount = 0 then carry else value.msb)

inductive DataOp
  | and | eor | sub | rsb | add | adc | sbc | rsc | orr | mov | bic | mvn
deriving DecidableEq, Repr

namespace DataOp

/-- The opcode field. -/
def code : DataOp → BitVec 4
  | and => 0
  | eor => 1
  | sub => 2
  | rsb => 3
  | add => 4
  | adc => 5
  | sbc => 6
  | rsc => 7
  | orr => 12
  | mov => 13
  | bic => 14
  | mvn => 15

/-- The operation of an opcode field; the compare instructions have no destination. -/
def ofCode (code : BitVec 4) : Option DataOp :=
  match code.toNat with
  | 0 => some and
  | 1 => some eor
  | 2 => some sub
  | 3 => some rsb
  | 4 => some add
  | 5 => some adc
  | 6 => some sbc
  | 7 => some rsc
  | 12 => some orr
  | 13 => some mov
  | 14 => some bic
  | 15 => some mvn
  | _ => none

@[simp] lemma ofCode_code (op : DataOp) : ofCode op.code = some op := by cases op <;> rfl

/-- The two moves have no first operand. -/
def isMove (op : DataOp) : Bool := op == mov || op == mvn

end DataOp

/-- The flags of a sum. -/
def sumFlags (sum : BitVec 32 × Bool × Bool) : Flags :=
  ⟨sum.1.msb, sum.1 == 0, sum.2.1, sum.2.2⟩

/-- The result and the flags of an operation on its two operands. -/
def DataOp.compute (op : DataOp) (x y : BitVec 32) (shifterCarry : Bool) (flags : Flags) :
    BitVec 32 × Flags :=
  let logical := fun result : BitVec 32 =>
    (result, { flags with n := result.msb, z := result == 0, c := shifterCarry })
  let arithmetic := fun sum : BitVec 32 × Bool × Bool => (sum.1, sumFlags sum)
  match op with
  | and => logical (x &&& y)
  | eor => logical (x ^^^ y)
  | sub => arithmetic (addWithCarry x (~~~y) true)
  | rsb => arithmetic (addWithCarry (~~~x) y true)
  | add => arithmetic (addWithCarry x y false)
  | adc => arithmetic (addWithCarry x y flags.c)
  | sbc => arithmetic (addWithCarry x (~~~y) flags.c)
  | rsc => arithmetic (addWithCarry (~~~x) y flags.c)
  | orr => logical (x ||| y)
  | mov => logical y
  | bic => logical (x &&& ~~~y)
  | mvn => logical (~~~y)

/-! ### Instructions -/

inductive Instruction
  | dataImm (op : DataOp) (setFlags : Bool) (rn rd : BitVec 4) (imm12 : BitVec 12)
  | dataReg (op : DataOp) (setFlags : Bool) (rn rd rm : BitVec 4)
  | movw (rd : BitVec 4) (imm16 : BitVec 16)
  | movt (rd : BitVec 4) (imm16 : BitVec 16)
deriving DecidableEq, Repr

/-- The sixteen-bit immediate of `MOVW` and `MOVT`. -/
def imm16 (word : BitVec 32) : BitVec 16 := word.extractLsb' 16 4 ++ word.extractLsb' 0 12

/-- The operation of a data-processing word; the first operand of a move should be zero. -/
def decodeOp (word : BitVec 32) : Option DataOp :=
  (DataOp.ofCode (word.extractLsb' 21 4)).filter fun op =>
    !op.isMove || word.extractLsb' 16 4 == 0#4

/-- The condition field and the instruction of a word. -/
def decode (word : BitVec 32) : Option (BitVec 4 × Instruction) :=
  let cond := word.extractLsb' 28 4
  let setFlags := word.extractLsb' 20 1 == 1#1
  let rn := word.extractLsb' 16 4
  let rd := word.extractLsb' 12 4
  if cond = 15#4 then none
  else if word.extractLsb' 25 3 = 1#3 then
    if word.extractLsb' 20 5 = 16#5 then some (cond, .movw rd (imm16 word))
    else if word.extractLsb' 20 5 = 20#5 then some (cond, .movt rd (imm16 word))
    else (decodeOp word).map fun op =>
      (cond, .dataImm op setFlags rn rd (word.extractLsb' 0 12))
  else if word.extractLsb' 25 3 = 0#3 ∧ word.extractLsb' 4 8 = 0#8 then
    (decodeOp word).map fun op => (cond, .dataReg op setFlags rn rd (word.extractLsb' 0 4))
  else none

/-- A register other than `r15`. -/
def reg? (r : BitVec 4) : Option (Fin 15) :=
  if h : r.toNat < 15 then some ⟨r.toNat, h⟩ else none

/-- Writes a result, and the flags when the instruction sets them. -/
def State.write (s : State) (rd : Fin 15) (setFlags : Bool) (result : BitVec 32 × Flags) : State where
  regs := Function.update s.regs rd result.1
  flags := if setFlags then result.2 else s.flags

def Instruction.execute (s : State) : Instruction → Option State
  | dataImm op setFlags rn rd imm12 => do
    let rd ← reg? rd
    let rn ← reg? rn
    let operand := expandImm imm12 s.flags.c
    some (s.write rd setFlags (op.compute (s.regs rn) operand.1 operand.2 s.flags))
  | dataReg op setFlags rn rd rm => do
    let rd ← reg? rd
    let rn ← reg? rn
    let rm ← reg? rm
    some (s.write rd setFlags (op.compute (s.regs rn) (s.regs rm) s.flags.c s.flags))
  | movw rd imm16 => do
    let rd ← reg? rd
    some { s with regs := Function.update s.regs rd (imm16.setWidth 32) }
  | movt rd imm16 => do
    let rd ← reg? rd
    some { s with regs := Function.update s.regs rd (imm16 ++ (s.regs rd).setWidth 16) }

/-- One word: an instruction whose condition fails does nothing. -/
def step (word : BitVec 32) (s : State) : Option State := do
  let (cond, instruction) ← decode word
  if conditionHolds cond s.flags then instruction.execute s else some s

/-- Straight-line execution of some words. -/
def run : List (BitVec 32) → State → Option State
  | [], s => some s
  | word :: words, s => (step word s).bind (run words)

@[simp] lemma run_nil (s : State) : run [] s = some s := rfl

@[simp] lemma run_singleton (word : BitVec 32) (s : State) : run [word] s = step word s := by
  rw [run]
  cases step word s <;> rfl

end VitaSX2.Armv7
