/-
The region IR: typed SSA nodes over the architectural state of the EE.

A block takes the whole canonical state and the ordered memory effect as
parameters, one per slot, and every transfer publishes a complete map from the
slots to values.  There are no other phi nodes.
-/
import Mathlib.Data.List.FinRange
import Mathlib.Logic.Function.Basic
import VitaSX2.Lib.FixedSize

namespace VitaSX2.RegionIR

abbrev ValueId := ℕ

/-- A 128-bit value in two halves. -/
structure U128 where
  lo : BitVec 64
  hi : BitVec 64
deriving DecidableEq, Repr

namespace U128

instance : Zero U128 := ⟨⟨0, 0⟩⟩

@[simp] lemma zero_lo : (0 : U128).lo = 0 := rfl

@[simp] lemma zero_hi : (0 : U128).hi = 0 := rfl

/-- One of the four 32-bit words, the lowest first. -/
def word (value : U128) : ℕ → BitVec 32
  | 0 => value.lo.extractLsb' 0 32
  | 1 => value.lo.extractLsb' 32 32
  | 2 => value.hi.extractLsb' 0 32
  | _ => value.hi.extractLsb' 32 32

end U128

/-- `Bits` with an upper half of zero. -/
def bits (lo : BitVec 64) : U128 := ⟨lo, 0⟩

@[simp] lemma bits_lo (lo : BitVec 64) : (bits lo).lo = lo := rfl

@[simp] lemma bits_hi (lo : BitVec 64) : (bits lo).hi = 0 := rfl

/-- A word in the low 32 bits. -/
def bits32 (word : BitVec 32) : U128 := bits (word.setWidth 64)

inductive ValueType
  | void
  | i1
  | i32
  | f32Bits
  | vuF32x4Bits
  | i64
  | i128
  | address
  | cycle
  | memoryEffect
deriving DecidableEq, Repr

inductive Opcode
  | parameter
  | constantI1
  | constantI32
  | constantI64
  | constantAddress
  | noEffect
  | extractLow32
  | extractLow64
  | extractHigh64
  | replaceLow64
  | replaceHigh64
  | bitcastI32ToF32Bits
  | bitcastF32BitsToI32
  | bitcastI128ToVuF32x4Bits
  | bitcastVuF32x4BitsToI128
  | cop1NormalizeInput
  | cop1AddRaw
  | cop1SubRaw
  | cop1MulRaw
  | cop1ExceptionalOuResult
  | cop1ClampOuResult
  | cop1UpdateOuFlags
  | cop1CompareEqual
  | cop1CompareLess
  | cop1CompareLessEqual
  | cop1UpdateConditionFlag
  | cop1BranchCondition
  | cop1AbsoluteWord
  | cop1NegateWord
  | cop1ClearOuFlags
  | cop1ConvertWord
  | cop1ConvertSingle
  | signExtend32To64
  | zeroExtend32To64
  | multiplySigned32
  | multiplyUnsigned32
  | truncate64To32
  | add32
  | signedAddOverflow32
  | add64
  | sub32
  | sub64
  | and32
  | and64
  | or64
  | xor32
  | xor64
  | nor64
  | and128
  | or128
  | xor128
  | nor128
  | packedBinary128
  | packedShift128
  | packLow64
  | packHigh64
  | broadcastLowHalfwordPer64
  | shiftLeft32
  | shiftRightLogical32
  | shiftRightArithmetic32
  | shiftLeft64
  | shiftRightLogical64
  | shiftRightArithmetic64
  | shiftLeft32Variable
  | shiftRightLogical32Variable
  | shiftRightArithmetic32Variable
  | shiftLeft64Variable
  | shiftRightLogical64Variable
  | shiftRightArithmetic64Variable
  | select64
  | compareEqual64
  | compareNotEqual64
  | compareSignedLess64
  | compareUnsignedLess64
  | compareSignedLessEqualZero64
  | compareSignedGreaterZero64
  | compareSignedLessZero64
  | compareSignedGreaterEqualZero64
  | addressFromI32
  | effectiveAddress32
  | memoryLoad
  | memoryLoadValue
  | memoryStore
  | vu0RequireIdle
  | vu0ConvertFixed
  | vu0ConvertIntegerToFloat
  | vu0Rotate32
  | vu0NormalizeVector
  | vu0BroadcastLane
  | vu0BroadcastScalar
  | vu0FdivQ
  | vu0FdivFlags
  | vu0UpdateFdivStatus
  | vu0SyncFdivStatusControl
  | vu0MulRaw
  | vu0AddRaw
  | vu0SubRaw
  | vu0ClampFmacResult
  | vu0MacFlagsFromRaw
  | vu0StatusFlagsFromMac
  | vu0MergeMasked
  | vu0SyncStatusControl
  | vu0ControlWrite
  | vu0DenormalizeStatus
  | bindVu0Q
  | bindVu0ViQ
  | bindGpr
  | bindHi
  | bindLo
  | bindSa
  | bindFpr
  | bindVu0Vf
  | bindVu0Acc
  | bindVu0MacFlag
  | bindVu0StatusFlag
  | bindVu0ViMac
  | bindVu0ViStatus
  | bindVu0Vi
  | bindVu0ClipFlag
  | bindVu0MicroStatusFlag
  | bindFcr31
  | bindAcc
  | exitIfTrue
  | advanceCycles
deriving DecidableEq, Repr

structure Node where
  id : ValueId
  opcode : Opcode
  type : ValueType
  /-- The operands in use, at most three. -/
  operands : List ValueId
  immediate : ℕ
  literal : BitVec 64
  sourcePc : BitVec 32
deriving DecidableEq, Repr

/-! ### The canonical state -/

/-- The slots of the canonical state, without the program counter. -/
inductive StateSlot
  | gpr (index : Fin 32)
  | hi
  | lo
  | sa
  | fpr (index : Fin 32)
  | fcr0
  | fcr31
  | acc
  | accFlag
  | vu0Vf (index : Fin 32)
  | vu0Acc
  | vu0MacFlag
  | vu0StatusFlag
  | vu0ClipFlag
  | vu0Q
  | vu0Vi (index : Fin 32)
  | vu0MicroMacFlag (index : Fin 4)
  | vu0MicroClipFlag (index : Fin 4)
  | vu0MicroStatusFlag (index : Fin 4)
  | cycle
deriving DecidableEq, Repr

namespace StateSlot

/-- The slots in the order of `DecodeStateSlot`. -/
def all : List StateSlot :=
  (List.finRange 32).map gpr ++ [hi, lo, sa] ++ (List.finRange 32).map fpr ++
    [fcr0, fcr31, acc, accFlag] ++ (List.finRange 32).map vu0Vf ++
    [vu0Acc, vu0MacFlag, vu0StatusFlag, vu0ClipFlag, vu0Q] ++ (List.finRange 32).map vu0Vi ++
    (List.finRange 4).map vu0MicroMacFlag ++ (List.finRange 4).map vu0MicroClipFlag ++
    (List.finRange 4).map vu0MicroStatusFlag ++ [cycle]

lemma mem_all (slot : StateSlot) : slot ∈ all := by
  cases slot <;> simp [all]

/-- `StateWordCount`: the architectural words of a slot. -/
def wordCount : StateSlot → ℕ
  | gpr _ | hi | lo | vu0Vf _ | vu0Acc => 4
  | cycle => 2
  | _ => 1

/-- The part of a value that a slot can hold. -/
def truncate (slot : StateSlot) (value : U128) : U128 :=
  match slot.wordCount with
  | 4 => value
  | 2 => bits value.lo
  | _ => bits32 (value.word 0)

end StateSlot

/-- A canonical state: every slot holds no more than its own words. -/
structure CanonicalState where
  slot : StateSlot → U128
  pc : BitVec 32
  fits : ∀ s, s.truncate (slot s) = slot s

/-- A parameter of a block: a slot or the ordered memory effect. -/
inductive StateField
  | slot (slot : StateSlot)
  | memoryEffect
deriving DecidableEq, Repr

abbrev StateMap := StateField → ValueId

namespace StateField

/-- The parameters in the order of their nodes. -/
def all : List StateField := StateSlot.all.map slot ++ [memoryEffect]

lemma mem_all (field : StateField) : field ∈ all := by
  cases field with
  | slot s => simp [all, StateSlot.mem_all]
  | memoryEffect => simp [all]

/-- The type of the parameter of a field. -/
def type : StateField → ValueType
  | slot (.gpr _) | slot .hi | slot .lo => .i128
  | slot (.fpr _) | slot .acc => .f32Bits
  | slot (.vu0Vf _) | slot .vu0Acc => .vuF32x4Bits
  | slot .cycle => .cycle
  | memoryEffect => .memoryEffect
  | _ => .i32

end StateField

/-- `PARAMETER_COUNT`. -/
def parameterCount : ℕ := 154

lemma length_all : StateField.all.length = parameterCount := by
  simp [StateField.all, StateSlot.all, parameterCount]

/-! ### Transfers, blocks, programs -/

inductive ExitReason
  | regionBoundary
  | unsupportedOpcode
  | memoryObserver
  | memoryAlignment
  | memoryHandler
  | memoryTranslation
  | selfModifyingCode
  | helperObserver
  | unsupportedControlFlow
  | exceptionObserver
  | eventHorizon
deriving DecidableEq, Repr

structure Transfer where
  targetBlock : Option ℕ
  pc : ValueId
  state : StateMap
  externalReason : ExitReason
  cycleCommitDeferred : Bool
  pendingRawCycles : ℕ
  eventHorizonCheck : Bool
  registerTargetProven : Bool
  provenRegisterTargetPc : BitVec 32

inductive TerminatorKind
  | transfer
  | branch
  | jump
  | registerJump
deriving DecidableEq, Repr

structure Terminator where
  kind : TerminatorKind
  likely : Bool
  /-- Read by conditional branches only. -/
  condition : ValueId
  taken : Transfer
  notTaken : Transfer
  registerTargets : List Transfer
  branchPc : BitVec 32
  delaySlotPc : BitVec 32

/-- The transfers `VisitInternalTransfers` visits. -/
def Terminator.internalTransfers (terminator : Terminator) : List Transfer :=
  (terminator.taken :: (if terminator.kind = .branch then [terminator.notTaken] else []) ++
    (if terminator.kind = .registerJump then terminator.registerTargets else [])).filter
      fun transfer => transfer.targetBlock.isSome

structure SourceInstruction where
  pc : BitVec 32
  opcode : BitVec 32
  delaySlot : Bool
deriving DecidableEq, Repr

/-- The transfer of a fallible operation. -/
structure OperationExit where
  operation : ValueId
  transfer : Transfer

structure Block where
  pc : BitVec 32
  parameters : StateMap
  nodes : List Node
  source : List SourceInstruction
  guardedExits : List Transfer
  memoryExits : List OperationExit
  observerExits : List OperationExit
  terminator : Terminator

structure DirectCallContract where
  callPc : BitVec 32
  calleePc : BitVec 32
  returnJumpPc : BitVec 32
  returnPc : BitVec 32
deriving DecidableEq, Repr

structure SourceSpan where
  basePc : BitVec 32
  words : List (BitVec 32)

structure Program where
  sourceSpans : List SourceSpan
  directCalls : List DirectCallContract
  vu0OverflowClamp : Bool
  maxDirectCalls : ℕ
  entryBlock : ℕ
  valueCount : ℕ
  blocks : List Block

/-- All nodes of a program, block by block. -/
def Program.nodes (program : Program) : List Node := program.blocks.flatMap Block.nodes

end VitaSX2.RegionIR
