/-
`Builder`: value identities in order of creation, the parameters of a block, and
the nodes an instruction is lowered to.

A lowering fails where the source returns false or runs out of value ids.
-/
import VitaSX2.Region.IR.Verify

namespace VitaSX2.RegionIR

/-! ### Parameters -/

/-- The number of the parameter of a field. -/
def StateField.index : StateField → ℕ
  | slot (.gpr i) => i
  | slot .hi => 32
  | slot .lo => 33
  | slot .sa => 34
  | slot (.fpr i) => 35 + i
  | slot .fcr0 => 67
  | slot .fcr31 => 68
  | slot .acc => 69
  | slot .accFlag => 70
  | slot (.vu0Vf i) => 71 + i
  | slot .vu0Acc => 103
  | slot .vu0MacFlag => 104
  | slot .vu0StatusFlag => 105
  | slot .vu0ClipFlag => 106
  | slot .vu0Q => 107
  | slot (.vu0Vi i) => 108 + i
  | slot (.vu0MicroMacFlag i) => 140 + i
  | slot (.vu0MicroClipFlag i) => 144 + i
  | slot (.vu0MicroStatusFlag i) => 148 + i
  | slot .cycle => 152
  | memoryEffect => 153

lemma StateField.map_index : StateField.all.map StateField.index = List.range parameterCount := by
  decide

lemma StateField.index_of_getElem? {i : ℕ} {field : StateField} (h : all[i]? = some field) :
    field.index = i := by
  have hindex : (all.map index)[i]? = some field.index := by simp [h]
  rw [map_index] at hindex
  obtain ⟨hlt, heq⟩ := List.getElem?_eq_some_iff.mp hindex
  simpa using heq.symm

/-- The parameters of the block whose first value id is `base`. -/
def parameterMap (base : ValueId) : StateMap := fun field => base + field.index

/-- `AllocateParameters` for one block. -/
def allocateParameters (base : ValueId) (pc : BitVec 32) : List Node :=
  StateField.all.zipIdx.map fun entry =>
    ⟨base + entry.2, .parameter, entry.1.type, [], entry.2, 0, pc⟩

lemma length_allocateParameters (base : ValueId) (pc : BitVec 32) :
    (allocateParameters base pc).length = parameterCount := by
  simp [allocateParameters, length_all]

/-- Allocated parameters meet the parameter contract of `Verify`. -/
lemma checkParameters_allocate {block : Block} {base : ValueId} {pc : BitVec 32} {nodes : List Node}
    (hparameters : block.parameters = parameterMap base)
    (hnodes : block.nodes = allocateParameters base pc ++ nodes) :
    block.checkParameters = true := by
  simp only [Block.checkParameters, Bool.and_eq_true, decide_eq_true_eq, List.all_eq_true, hnodes,
    List.length_append, length_allocateParameters]
  refine ⟨Nat.le_add_right _ _, fun entry hentry => ?_⟩
  obtain ⟨i, hi⟩ := List.mem_iff_getElem?.mp hentry
  obtain ⟨hfield, hnode⟩ := List.getElem?_zip_eq_some.mp hi
  have hlt : i < parameterCount := length_all ▸ (List.getElem?_eq_some_iff.mp hfield).1
  rw [List.getElem?_take_of_lt hlt, List.getElem?_zipIdx,
    List.getElem?_append_left (by rwa [length_allocateParameters])] at hnode
  simp only [allocateParameters, List.getElem?_map, List.getElem?_zipIdx, hfield, Option.map_some,
    zero_add, Option.some.injEq] at hnode
  rw [← hnode, hparameters]
  simp [parameterMap, StateField.index_of_getElem? hfield]

/-! ### Lowering -/

/-- The nodes and exits of a block so far and the next free value id. -/
structure Builder where
  nodes : List Node
  guardedExits : List Transfer
  memoryExits : List OperationExit
  nextValue : ValueId

abbrev Lower := StateT Builder Option

namespace Lower

/-- `INVALID_VALUE`. -/
def invalidValue : ValueId := 2 ^ 32 - 1

def addNode (opcode : Opcode) (type : ValueType) (operands : List ValueId) (immediate : ℕ)
    (literal : BitVec 64) (pc : BitVec 32) : Lower ValueId := fun b =>
  if b.nextValue = invalidValue then none
  else
    some (b.nextValue,
      { b with
        nodes := b.nodes ++ [⟨b.nextValue, opcode, type, operands, immediate, literal, pc⟩]
        nextValue := b.nextValue + 1 })

def unaryImmediate (opcode : Opcode) (type : ValueType) (operand : ValueId) (pc : BitVec 32)
    (immediate : ℕ) : Lower ValueId :=
  addNode opcode type [operand] immediate 0 pc

def unary (opcode : Opcode) (type : ValueType) (operand : ValueId) (pc : BitVec 32) :
    Lower ValueId :=
  unaryImmediate opcode type operand pc 0

def binary (opcode : Opcode) (type : ValueType) (left right : ValueId) (pc : BitVec 32) :
    Lower ValueId :=
  addNode opcode type [left, right] 0 0 pc

def ternary (opcode : Opcode) (type : ValueType) (first second third : ValueId)
    (pc : BitVec 32) : Lower ValueId :=
  addNode opcode type [first, second, third] 0 0 pc

def constant32 (value : BitVec 32) (pc : BitVec 32) : Lower ValueId :=
  addNode .constantI32 .i32 [] 0 (value.setWidth 64) pc

def constant64 (value : BitVec 64) (pc : BitVec 32) : Lower ValueId :=
  addNode .constantI64 .i64 [] 0 value pc

def constantAddress (value : BitVec 32) (pc : BitVec 32) : Lower ValueId :=
  addNode .constantAddress .address [] 0 (value.setWidth 64) pc

def addressFromI32 (value : ValueId) (pc : BitVec 32) : Lower ValueId :=
  unary .addressFromI32 .address value pc

/-- The field of a general register. -/
def gprField (reg : ℕ) : StateField := .slot (.gpr (Fin.ofNat 32 reg))

def low32 (state : StateMap) (reg : ℕ) (pc : BitVec 32) : Lower ValueId :=
  unary .extractLow32 .i32 (state (gprField reg)) pc

def low64 (state : StateMap) (reg : ℕ) (pc : BitVec 32) : Lower ValueId :=
  unary .extractLow64 .i64 (state (gprField reg)) pc

/-- Bind a value to a field. -/
def bind (opcode : Opcode) (field : StateField) (state : StateMap) (immediate : ℕ)
    (value : ValueId) (pc : BitVec 32) : Lower StateMap := do
  let _ ← addNode opcode .void [value] immediate 0 pc
  return Function.update state field value

/-- `WriteFullGpr`. -/
def writeFullGpr (state : StateMap) (reg : ℕ) (value : ValueId) (pc : BitVec 32) :
    Lower StateMap :=
  if reg = 0 then return state else bind .bindGpr (gprField reg) state reg value pc

def writeLow64 (state : StateMap) (reg : ℕ) (low : ValueId) (pc : BitVec 32) :
    Lower StateMap := do
  if reg = 0 then return state
  else
    let complete ← binary .replaceLow64 .i128 (state (gprField reg)) low pc
    bind .bindGpr (gprField reg) state reg complete pc

def hiLoField (hi : Bool) : StateField := .slot (if hi then .hi else .lo)

def writeHiLoLow64 (state : StateMap) (hi : Bool) (low : ValueId) (pc : BitVec 32) :
    Lower StateMap := do
  let complete ← binary .replaceLow64 .i128 (state (hiLoField hi)) low pc
  bind (if hi then .bindHi else .bindLo) (hiLoField hi) state 0 complete pc

def writeSa (state : StateMap) (value : ValueId) (pc : BitVec 32) : Lower StateMap :=
  bind .bindSa (.slot .sa) state 0 value pc

/-! ### Transfers -/

def makeDeferredObserverTransfer (state : StateMap) (targetPc : BitVec 32) (reason : ExitReason)
    (sourcePc : BitVec 32) (pendingRawCycles : ℕ) : Lower Transfer := do
  let pc ← constantAddress targetPc sourcePc
  return {
    targetBlock := none
    pc := pc
    state := state
    externalReason := reason
    cycleCommitDeferred := true
    pendingRawCycles := pendingRawCycles
    eventHorizonCheck := false
    registerTargetProven := false
    provenRegisterTargetPc := 0 }

def makeTransfer (blockIndices : BitVec 32 → Option ℕ) (state : StateMap) (targetPc : BitVec 32)
    (reason : ExitReason) (sourcePc : BitVec 32) (eventHorizonCheck : Bool) : Lower Transfer := do
  let pc ← constantAddress targetPc sourcePc
  return {
    targetBlock := blockIndices targetPc
    pc := pc
    state := state
    externalReason := reason
    cycleCommitDeferred := false
    pendingRawCycles := 0
    eventHorizonCheck := eventHorizonCheck
    registerTargetProven := false
    provenRegisterTargetPc := 0 }

def makeRegisterTransfer (state : StateMap) (target : ValueId) (reason : ExitReason)
    (eventHorizonCheck : Bool) (targetBlock : Option ℕ) (provenTargetPc : BitVec 32) : Transfer where
  targetBlock := targetBlock
  pc := target
  state := state
  externalReason := reason
  cycleCommitDeferred := false
  pendingRawCycles := 0
  eventHorizonCheck := eventHorizonCheck
  registerTargetProven := targetBlock.isSome
  provenRegisterTargetPc := provenTargetPc

def addGuardedExit (condition : ValueId) (state : StateMap) (resumePc sourcePc : BitVec 32)
    (pendingRawCycles : ℕ) : Lower Unit := do
  let transfer ←
    makeDeferredObserverTransfer state resumePc .exceptionObserver sourcePc pendingRawCycles
  let index := (← get).guardedExits.length
  modify fun b => { b with guardedExits := b.guardedExits ++ [transfer] }
  let _ ← addNode .exitIfTrue .void [condition] index 0 sourcePc

def advanceCycles (state : StateMap) (scaledCycles : ℕ) (sourcePc : BitVec 32) :
    Lower StateMap := do
  if scaledCycles = 0 then return state
  else
    let advanced ← unaryImmediate .advanceCycles .cycle (state (.slot .cycle)) sourcePc scaledCycles
    return Function.update state (.slot .cycle) advanced

end Lower

end VitaSX2.RegionIR
