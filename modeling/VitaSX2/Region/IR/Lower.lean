/-
Lowering of the integer instructions and of whole blocks.

Floating-point, vector and multimedia instructions are outside this model: a word
of one of their opcode groups makes the lowering fail.
-/
import VitaSX2.Region.IR.Builder

namespace VitaSX2.RegionIR

/-! ### Instructions -/

def sa (word : BitVec 32) : ℕ := word.toNat / 2 ^ 6 % 32

/-- `IMM_S`, extended to a word. -/
def immS (word : BitVec 32) : BitVec 32 := (word.setWidth 16).signExtend 32

/-- `IMM_U`. -/
def immU (word : BitVec 32) : BitVec 64 := (word.setWidth 16).setWidth 64

/-- The opcode groups COP1, COP2 and MMI and their loads and stores. -/
def isOutsideInteger (word : BitVec 32) : Bool :=
  [0x11, 0x12, 0x1c, 0x31, 0x36, 0x39, 0x3e].contains (primary word)

structure LiftOptions where
  /-- One or two. -/
  cycleFactor : ℕ
  eeCycleRate : ℤ
  goemonTlbHack : Bool
  eeCacheEnabled : Bool
  vu0OverflowClamp : Bool
  maxBlocks : ℕ
  maxSourceInstructions : ℕ
  maxDirectCalls : ℕ

/-- `DecodeNoEffect`: the immediate of the node of SYNC, PREF or CACHE. -/
def decodeNoEffect (options : LiftOptions) (word : BitVec 32) : Option ℕ :=
  if primary word = 0x00 ∧ funct word = 0x0f then some 0
  else if primary word = 0x33 then some 1
  else if primary word = 0x2f ∧ !options.eeCacheEnabled then some 2
  else none

/-- `DecodeMemoryAccess` for the integer loads and stores. -/
def decodeMemoryAccess (word : BitVec 32) : Option MemoryAccessKind :=
  match primary word with
  | 0x20 => some .loadS8
  | 0x24 => some .loadU8
  | 0x21 => some .loadS16
  | 0x25 => some .loadU16
  | 0x23 => some .loadS32
  | 0x27 => some .loadU32
  | 0x37 => some .load64
  | 0x1e => some .load128
  | 0x28 => some .store8
  | 0x29 => some .store16
  | 0x2b => some .store32
  | 0x3f => some .store64
  | 0x1f => some .store128
  | _ => none

/-- The cost of a lowered instruction in the opcode table. -/
def opcodeCycles (word : BitVec 32) : ℕ :=
  if isConditionalBranch word then 11
  else if primary word = 0x00 ∧ (funct word = 0x18 ∨ funct word = 0x19) then 16
  else if (decodeMemoryAccess word).isSome then 14
  else 9

def rawRecompilerCycles (options : LiftOptions) (word : BitVec 32) : ℕ :=
  (if word = 0 then 9 else opcodeCycles word) * options.cycleFactor

/-- `ScaleBlockCycles`; `quotient` is the division by `1.3f`. -/
def scaleBlockCycles (quotient : ℕ → ℕ) (options : LiftOptions) (rawCycles : ℕ) : ℕ :=
  let rate := options.eeCycleRate
  let scaled :=
    if rate = 0 ∨ rawCycles ≤ 40 ∨ rate < -99 ∨ 3 < rate then rawCycles / 8
    else if 1 < rate then rawCycles / 2 ^ (2 + rate.toNat)
    else if rate = 1 then quotient (rawCycles / 8)
    else if rate = -1 then (if rawCycles ≤ 80 ∨ 168 < rawCycles then 5 else 7) * rawCycles / 32
    else (5 + 2 * (-(rate + 1)).toNat) * rawCycles / 32
  max 1 scaled

def MemoryAccessKind.isLoad : MemoryAccessKind → Bool
  | store8 | store16 | store32 | storeF32Bits | store64 | store128 | storeVu0Vector => false
  | _ => true

/-- The immediate of a memory node. -/
def MemoryAccessKind.encode (kind : MemoryAccessKind) : ℕ := MemoryAccessKind.all.idxOf kind

namespace Lower

/-- The state and the address an instruction restarts at when it has to leave. -/
structure Restart where
  state : StateMap
  resumePc : BitVec 32
  pendingRawCycles : ℕ

def lowerMemory (state : StateMap) (word pc : BitVec 32) (kind : MemoryAccessKind)
    (restart : Restart) : Lower StateMap := do
  let fallback ← makeDeferredObserverTransfer restart.state restart.resumePc .memoryObserver pc
    restart.pendingRawCycles
  let destination := rt word
  let value := state (gprField destination)
  let base ← low32 state (rs word) pc
  let offset ← constant32 (immS word) pc
  let address ← binary .effectiveAddress32 .address base offset pc
  let effect ← addNode (if kind.isLoad then .memoryLoad else .memoryStore) .memoryEffect
    [state .memoryEffect, address, value] kind.encode 0 pc
  modify fun b => { b with memoryExits := b.memoryExits ++ [⟨effect, fallback⟩] }
  let state := Function.update state .memoryEffect effect
  if kind.isLoad ∧ destination ≠ 0 then
    let loaded ← unary .memoryLoadValue .i128 effect pc
    writeFullGpr state destination loaded pc
  else return state

/-- `LowerIntegerMultiply` for MULT and MULTU. -/
def lowerIntegerMultiply (state : StateMap) (word pc : BitVec 32) (signed : Bool) :
    Lower StateMap := do
  let left ← low32 state (rs word) pc
  let right ← low32 state (rt word) pc
  let result ← binary (if signed then .multiplySigned32 else .multiplyUnsigned32) .i64 left right pc
  let lowWord ← unary .truncate64To32 .i32 result pc
  let shiftedHigh ← unaryImmediate .shiftRightLogical64 .i64 result pc 32
  let highWord ← unary .truncate64To32 .i32 shiftedHigh pc
  let lowLane ← unary .signExtend32To64 .i64 lowWord pc
  let highLane ← unary .signExtend32To64 .i64 highWord pc
  let state ← writeHiLoLow64 state false lowLane pc
  let state ← writeHiLoLow64 state true highLane pc
  writeLow64 state (rd word) lowLane pc

/-- Sign-extend a word and write it to a register. -/
def writeWord (state : StateMap) (reg : ℕ) (value : ValueId) (pc : BitVec 32) :
    Lower StateMap := do
  let extended ← unary .signExtend32To64 .i64 value pc
  writeLow64 state reg extended pc

/-- Two low words into a word operation. -/
def lowerBinary32 (opcode : Opcode) (state : StateMap) (word pc : BitVec 32) : Lower StateMap := do
  let left ← low32 state (rs word) pc
  let right ← low32 state (rt word) pc
  let value ← binary opcode .i32 left right pc
  writeWord state (rd word) value pc

/-- Two low doublewords into a doubleword operation. -/
def lowerBinary64 (opcode : Opcode) (state : StateMap) (word pc : BitVec 32) : Lower StateMap := do
  let left ← low64 state (rs word) pc
  let right ← low64 state (rt word) pc
  let value ← binary opcode .i64 left right pc
  writeLow64 state (rd word) value pc

/-- A low doubleword and a constant into a doubleword operation. -/
def lowerImmediate64 (opcode : Opcode) (immediate : BitVec 64) (state : StateMap)
    (word pc : BitVec 32) : Lower StateMap := do
  let left ← low64 state (rs word) pc
  let right ← constant64 immediate pc
  let value ← binary opcode .i64 left right pc
  writeLow64 state (rt word) value pc

/-- A comparison of two values into a register. -/
def writeComparison (opcode : Opcode) (state : StateMap) (reg : ℕ) (left right : ValueId)
    (pc : BitVec 32) : Lower StateMap := do
  let value ← binary opcode .i1 left right pc
  let value ← unary .zeroExtend32To64 .i64 value pc
  writeLow64 state reg value pc

def lowerShift32 (opcode : Opcode) (state : StateMap) (word pc : BitVec 32) : Lower StateMap := do
  let value ← low32 state (rt word) pc
  let value ← unaryImmediate opcode .i32 value pc (sa word)
  writeWord state (rd word) value pc

def lowerShift32Variable (opcode : Opcode) (state : StateMap) (word pc : BitVec 32) :
    Lower StateMap := do
  let value ← low32 state (rt word) pc
  let shift ← low32 state (rs word) pc
  let value ← binary opcode .i32 value shift pc
  writeWord state (rd word) value pc

def lowerShift64 (opcode : Opcode) (amount : ℕ) (state : StateMap) (word pc : BitVec 32) :
    Lower StateMap := do
  let value ← low64 state (rt word) pc
  let value ← unaryImmediate opcode .i64 value pc amount
  writeLow64 state (rd word) value pc

def lowerShift64Variable (opcode : Opcode) (state : StateMap) (word pc : BitVec 32) :
    Lower StateMap := do
  let value ← low64 state (rt word) pc
  let shift ← low32 state (rs word) pc
  let value ← binary opcode .i64 value shift pc
  writeLow64 state (rd word) value pc

/-- MOVZ and MOVN. -/
def lowerConditionalMove (opcode : Opcode) (state : StateMap) (word pc : BitVec 32) :
    Lower StateMap := do
  let conditionValue ← low64 state (rt word) pc
  let constant ← constant64 0 pc
  let condition ← binary opcode .i1 conditionValue constant pc
  let source ← low64 state (rs word) pc
  let old ← low64 state (rd word) pc
  let value ← ternary .select64 .i64 condition source old pc
  writeLow64 state (rd word) value pc

def lowerSpecial (state : StateMap) (word pc : BitVec 32) : Lower StateMap :=
  match funct word with
  | 0x00 => lowerShift32 .shiftLeft32 state word pc
  | 0x02 => lowerShift32 .shiftRightLogical32 state word pc
  | 0x03 => lowerShift32 .shiftRightArithmetic32 state word pc
  | 0x04 => lowerShift32Variable .shiftLeft32Variable state word pc
  | 0x06 => lowerShift32Variable .shiftRightLogical32Variable state word pc
  | 0x07 => lowerShift32Variable .shiftRightArithmetic32Variable state word pc
  | 0x14 => lowerShift64Variable .shiftLeft64Variable state word pc
  | 0x16 => lowerShift64Variable .shiftRightLogical64Variable state word pc
  | 0x17 => lowerShift64Variable .shiftRightArithmetic64Variable state word pc
  | 0x0a => lowerConditionalMove .compareEqual64 state word pc
  | 0x0b => lowerConditionalMove .compareNotEqual64 state word pc
  | 0x10 => do
    let value ← unary .extractLow64 .i64 (state (hiLoField true)) pc
    writeLow64 state (rd word) value pc
  | 0x12 => do
    let value ← unary .extractLow64 .i64 (state (hiLoField false)) pc
    writeLow64 state (rd word) value pc
  | 0x11 => do
    let value ← low64 state (rs word) pc
    writeHiLoLow64 state true value pc
  | 0x13 => do
    let value ← low64 state (rs word) pc
    writeHiLoLow64 state false value pc
  | 0x18 => lowerIntegerMultiply state word pc true
  | 0x19 => lowerIntegerMultiply state word pc false
  | 0x28 => do
    let value ← unary .zeroExtend32To64 .i64 (state (.slot .sa)) pc
    writeLow64 state (rd word) value pc
  | 0x29 => do
    let value ← low32 state (rs word) pc
    writeSa state value pc
  | 0x21 => lowerBinary32 .add32 state word pc
  | 0x23 => lowerBinary32 .sub32 state word pc
  | 0x2d => lowerBinary64 .add64 state word pc
  | 0x2f => lowerBinary64 .sub64 state word pc
  | 0x24 => lowerBinary64 .and64 state word pc
  | 0x25 => lowerBinary64 .or64 state word pc
  | 0x26 => lowerBinary64 .xor64 state word pc
  | 0x27 => lowerBinary64 .nor64 state word pc
  | 0x2a => do
    let left ← low64 state (rs word) pc
    let right ← low64 state (rt word) pc
    writeComparison .compareSignedLess64 state (rd word) left right pc
  | 0x2b => do
    let left ← low64 state (rs word) pc
    let right ← low64 state (rt word) pc
    writeComparison .compareUnsignedLess64 state (rd word) left right pc
  | 0x38 => lowerShift64 .shiftLeft64 (sa word) state word pc
  | 0x3a => lowerShift64 .shiftRightLogical64 (sa word) state word pc
  | 0x3b => lowerShift64 .shiftRightArithmetic64 (sa word) state word pc
  | 0x3c => lowerShift64 .shiftLeft64 (sa word + 32) state word pc
  | 0x3e => lowerShift64 .shiftRightLogical64 (sa word + 32) state word pc
  | 0x3f => lowerShift64 .shiftRightArithmetic64 (sa word + 32) state word pc
  | _ => failure

/-- MTSAB and MTSAH. -/
def lowerMoveToSa (state : StateMap) (word pc : BitVec 32) : Lower StateMap := do
  let mask : BitVec 32 := if rt word = 0x18 then 0x0f else 0x07
  let left ← low32 state (rs word) pc
  let right ← constant32 mask pc
  let value ← binary .and32 .i32 left right pc
  let right ← constant32 (word.setWidth 16 |>.setWidth 32 |>.and mask) pc
  let value ← binary .xor32 .i32 value right pc
  if rt word = 0x19 then
    let value ← unaryImmediate .shiftLeft32 .i32 value pc 1
    writeSa state value pc
  else writeSa state value pc

/-- ADDI leaves before the instruction when the addition overflows. -/
def lowerAddi (state : StateMap) (word pc : BitVec 32) (restart : Restart) : Lower StateMap := do
  let left ← low32 state (rs word) pc
  let right ← constant32 (immS word) pc
  let value ← binary .add32 .i32 left right pc
  let overflow ← binary .signedAddOverflow32 .i1 left right pc
  addGuardedExit overflow restart.state restart.resumePc pc restart.pendingRawCycles
  writeWord state (rt word) value pc

def lowerAddiu (state : StateMap) (word pc : BitVec 32) : Lower StateMap := do
  let left ← low32 state (rs word) pc
  let right ← constant32 (immS word) pc
  let value ← binary .add32 .i32 left right pc
  writeWord state (rt word) value pc

/-- SLTI and SLTIU. -/
def lowerSetLessImmediate (opcode : Opcode) (state : StateMap) (word pc : BitVec 32) :
    Lower StateMap := do
  let left ← low64 state (rs word) pc
  let right ← constant64 ((immS word).signExtend 64) pc
  writeComparison opcode state (rt word) left right pc

def lowerLui (state : StateMap) (word pc : BitVec 32) : Lower StateMap := do
  let value ← constant32 ((word.setWidth 16).setWidth 32 <<< 16) pc
  writeWord state (rt word) value pc

/-- `LowerNonBranch` for the integer instructions. -/
def lowerNonBranch (options : LiftOptions) (state : StateMap) (word pc : BitVec 32)
    (restart : Restart) : Lower StateMap :=
  match decodeNoEffect options word with
  | some kind => do
    let _ ← addNode .noEffect .void [] kind 0 pc
    return state
  | none =>
    match decodeMemoryAccess word with
    | some kind => lowerMemory state word pc kind restart
    | none =>
      match primary word with
      | 0x00 => lowerSpecial state word pc
      | 0x01 => if rt word = 0x18 ∨ rt word = 0x19 then lowerMoveToSa state word pc else failure
      | 0x08 => lowerAddi state word pc restart
      | 0x09 => lowerAddiu state word pc
      | 0x19 => lowerImmediate64 .add64 ((immS word).signExtend 64) state word pc
      | 0x0c => lowerImmediate64 .and64 (immU word) state word pc
      | 0x0d => lowerImmediate64 .or64 (immU word) state word pc
      | 0x0e => lowerImmediate64 .xor64 (immU word) state word pc
      | 0x0a => lowerSetLessImmediate .compareSignedLess64 state word pc
      | 0x0b => lowerSetLessImmediate .compareUnsignedLess64 state word pc
      | 0x0f => lowerLui state word pc
      | _ => failure

/-- `LowerBranchCondition` for the integer branches. -/
def lowerBranchCondition (state : StateMap) (word pc : BitVec 32) : Lower ValueId := do
  let encoded := primary word
  let left ← low64 state (rs word) pc
  match if 0x14 ≤ encoded ∧ encoded ≤ 0x17 then encoded - 0x10 else encoded with
  | 0x01 =>
    unary (if rt word % 2 = 0 then .compareSignedLessZero64 else .compareSignedGreaterEqualZero64)
      .i1 left pc
  | 0x04 => do
    let right ← low64 state (rt word) pc
    binary .compareEqual64 .i1 left right pc
  | 0x05 => do
    let right ← low64 state (rt word) pc
    binary .compareNotEqual64 .i1 left right pc
  | 0x06 => unary .compareSignedLessEqualZero64 .i1 left pc
  | 0x07 => unary .compareSignedGreaterZero64 .i1 left pc
  | _ => failure

end Lower

end VitaSX2.RegionIR
