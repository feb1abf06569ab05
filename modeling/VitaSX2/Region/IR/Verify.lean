/-
`Verify`: value identities, the parameter contract, typed and local operands,
the state that every exit and every edge has to publish, the control pair at the
end of a block, and the contracts of attested direct calls.

Left out are the checks that compare a node with the opcode of its source word,
the cycle costs and the external reasons, so this check accepts every program
that `Verify` accepts.
-/
import VitaSX2.Lib.Worklist
import VitaSX2.Region.IR.Interpret

namespace VitaSX2.RegionIR

/-! ### Source words -/

def rs (word : BitVec 32) : ℕ := word.toNat / 2 ^ 21 % 32

def rt (word : BitVec 32) : ℕ := word.toNat / 2 ^ 16 % 32

def rd (word : BitVec 32) : ℕ := word.toNat / 2 ^ 11 % 32

def funct (word : BitVec 32) : ℕ := word.toNat % 64

def primary (word : BitVec 32) : ℕ := word.toNat / 2 ^ 26

def jumpTarget (pc word : BitVec 32) : BitVec 32 :=
  (pc + 4) &&& 0xf0000000#32 ||| (word &&& 0x03ffffff#32) <<< 2

def branchTarget (pc word : BitVec 32) : BitVec 32 :=
  pc + 4 + (word.setWidth 16).signExtend 32 * 4

/-- `DecodeCop1Branch`. -/
def isCop1Branch (word : BitVec 32) : Bool :=
  primary word == 0x11 && rs word == 0x08 && rt word ≤ 0x03

def isConditionalBranch (word : BitVec 32) : Bool :=
  isCop1Branch word ||
    match primary word with
    | 0x01 =>
      (rt word ≤ 0x03 || (0x10 ≤ rt word && rt word ≤ 0x13)) && !(0x10 ≤ rt word && rs word == 31)
    | 0x04 | 0x05 | 0x06 | 0x07 | 0x14 | 0x15 | 0x16 | 0x17 => true
    | _ => false

/-- `IsLikelyBranch`: the second half of REGIMM pairs and of BC1, and `0x14` to `0x17`. -/
def isLikelyBranch (word : BitVec 32) : Bool :=
  isConditionalBranch word &&
    ((primary word == 0x11 || primary word == 0x01) && rt word / 2 % 2 == 1 ||
      (0x14 ≤ primary word && primary word ≤ 0x17))

def isStaticJump (word : BitVec 32) : Bool := primary word == 2 || primary word == 3

def isRegisterJump (word : BitVec 32) : Bool :=
  primary word == 0 && (funct word == 0x08 || funct word == 0x09)

/-- `IsLinkedControl`: JAL, JALR and the linking REGIMM branches. -/
def isLinkedControl (word : BitVec 32) : Bool :=
  primary word == 3 || (primary word == 0 && funct word == 0x09) ||
    (primary word == 1 && 0x10 ≤ rt word && rt word ≤ 0x13)

def controlLinkRegister (word : BitVec 32) : ℕ := if isRegisterJump word then rd word else 31

/-- `FindSourceSpan` on spans in ascending order. -/
def findSourceSpan (spans : List SourceSpan) (pc : BitVec 32) : Option SourceSpan :=
  if pc.toNat % 4 ≠ 0 then none
  else
    (spans.filter fun span => span.basePc ≤ pc).getLast?.filter
      fun span => pc.toNat - span.basePc.toNat < span.words.length * 4

/-- `ReadProgramSourceWord`. -/
def Program.readSourceWord (program : Program) (pc : BitVec 32) : Option (BitVec 32) :=
  (findSourceSpan program.sourceSpans pc).bind fun span =>
    span.words[(pc.toNat - span.basePc.toNat) / 4]?

/-- The block that owns a guest address, `pc_to_block`. -/
def Program.blockAt (program : Program) (pc : BitVec 32) : Option ℕ :=
  program.blocks.findIdx? fun block => block.pc == pc

/-- `CanLowerRegisterJump`. -/
def canLowerRegisterJump (word : BitVec 32) : Bool :=
  isRegisterJump word && !(funct word == 0x09 && rd word == rs word)

/-- The slot of the link register. -/
def linkField : StateField := .slot (.gpr 31)

/-! ### Signatures -/

/-- The operand types and the result type an opcode admits. -/
def signatures : Opcode → List (List ValueType × ValueType)
  | .parameter => []
  | .constantI1 => [([], .i1)]
  | .constantI32 => [([], .i32)]
  | .constantI64 => [([], .i64)]
  | .constantAddress => [([], .address)]
  | .noEffect => [([], .void)]
  | .extractLow32 => [([.i128], .i32)]
  | .extractLow64 | .extractHigh64 => [([.i128], .i64)]
  | .replaceLow64 | .replaceHigh64 => [([.i128, .i64], .i128)]
  | .bitcastI32ToF32Bits => [([.i32], .f32Bits)]
  | .bitcastF32BitsToI32 => [([.f32Bits], .i32)]
  | .bitcastI128ToVuF32x4Bits => [([.i128], .vuF32x4Bits)]
  | .bitcastVuF32x4BitsToI128 => [([.vuF32x4Bits], .i128)]
  | .cop1NormalizeInput | .cop1ClampOuResult | .cop1AbsoluteWord | .cop1NegateWord
  | .cop1ConvertWord | .cop1ConvertSingle => [([.f32Bits], .f32Bits)]
  | .cop1AddRaw | .cop1SubRaw | .cop1MulRaw => [([.f32Bits, .f32Bits], .f32Bits)]
  | .cop1ExceptionalOuResult => [([.f32Bits], .i1)]
  | .cop1UpdateOuFlags => [([.i32, .f32Bits], .i32)]
  | .cop1CompareEqual | .cop1CompareLess | .cop1CompareLessEqual =>
    [([.f32Bits, .f32Bits], .i1)]
  | .cop1UpdateConditionFlag => [([.i32, .i1], .i32)]
  | .cop1BranchCondition => [([.i32], .i1)]
  | .cop1ClearOuFlags => [([.i32], .i32)]
  | .signExtend32To64 => [([.i32], .i64)]
  | .zeroExtend32To64 => [([.i32], .i64), ([.i1], .i64)]
  | .multiplySigned32 | .multiplyUnsigned32 => [([.i32, .i32], .i64)]
  | .truncate64To32 => [([.i64], .i32)]
  | .add32 | .sub32 | .and32 | .xor32 => [([.i32, .i32], .i32)]
  | .signedAddOverflow32 => [([.i32, .i32], .i1)]
  | .add64 | .sub64 | .and64 | .or64 | .xor64 | .nor64 => [([.i64, .i64], .i64)]
  | .and128 | .or128 | .xor128 | .nor128 | .packedBinary128 | .packLow64 | .packHigh64 =>
    [([.i128, .i128], .i128)]
  | .packedShift128 | .broadcastLowHalfwordPer64 => [([.i128], .i128)]
  | .shiftLeft32 | .shiftRightLogical32 | .shiftRightArithmetic32 => [([.i32], .i32)]
  | .shiftLeft64 | .shiftRightLogical64 | .shiftRightArithmetic64 => [([.i64], .i64)]
  | .shiftLeft32Variable | .shiftRightLogical32Variable | .shiftRightArithmetic32Variable =>
    [([.i32, .i32], .i32)]
  | .shiftLeft64Variable | .shiftRightLogical64Variable | .shiftRightArithmetic64Variable =>
    [([.i64, .i32], .i64)]
  | .select64 => [([.i1, .i64, .i64], .i64)]
  | .compareEqual64 | .compareNotEqual64 | .compareSignedLess64 | .compareUnsignedLess64 =>
    [([.i64, .i64], .i1)]
  | .compareSignedLessEqualZero64 | .compareSignedGreaterZero64 | .compareSignedLessZero64
  | .compareSignedGreaterEqualZero64 => [([.i64], .i1)]
  | .addressFromI32 => [([.i32], .address)]
  | .effectiveAddress32 => [([.i32, .i32], .address)]
  | .memoryLoad | .memoryStore =>
    [([.memoryEffect, .address, .f32Bits], .memoryEffect),
      ([.memoryEffect, .address, .vuF32x4Bits], .memoryEffect),
      ([.memoryEffect, .address, .i128], .memoryEffect)]
  | .memoryLoadValue =>
    [([.memoryEffect], .f32Bits), ([.memoryEffect], .vuF32x4Bits), ([.memoryEffect], .i128)]
  | .vu0RequireIdle =>
    [([.i32, .i32], .i32), ([.i32, .i128], .i128), ([.i32, .vuF32x4Bits], .vuF32x4Bits)]
  | .vu0ConvertFixed | .vu0ConvertIntegerToFloat | .vu0Rotate32 | .vu0NormalizeVector
  | .vu0BroadcastLane | .vu0ClampFmacResult => [([.vuF32x4Bits], .vuF32x4Bits)]
  | .vu0BroadcastScalar => [([.i32], .vuF32x4Bits)]
  | .vu0FdivQ | .vu0FdivFlags => [([.vuF32x4Bits, .vuF32x4Bits], .i32)]
  | .vu0UpdateFdivStatus | .vu0SyncFdivStatusControl | .vu0SyncStatusControl
  | .vu0ControlWrite => [([.i32, .i32], .i32)]
  | .vu0MulRaw | .vu0AddRaw | .vu0SubRaw | .vu0MergeMasked =>
    [([.vuF32x4Bits, .vuF32x4Bits], .vuF32x4Bits)]
  | .vu0MacFlagsFromRaw => [([.vuF32x4Bits], .i32)]
  | .vu0StatusFlagsFromMac | .vu0DenormalizeStatus => [([.i32], .i32)]
  | .bindGpr | .bindHi | .bindLo => [([.i128], .void)]
  | .bindSa | .bindVu0MacFlag | .bindVu0StatusFlag | .bindVu0ViMac | .bindVu0ViStatus
  | .bindVu0Vi | .bindVu0ClipFlag | .bindVu0MicroStatusFlag | .bindFcr31 | .bindVu0Q
  | .bindVu0ViQ => [([.i32], .void)]
  | .bindFpr | .bindAcc => [([.f32Bits], .void)]
  | .bindVu0Vf | .bindVu0Acc => [([.vuF32x4Bits], .void)]
  | .exitIfTrue => [([.i1], .void)]
  | .advanceCycles => [([.cycle], .cycle)]

/-- The type of the value a load of this kind produces. -/
def MemoryAccessKind.valueType : MemoryAccessKind → ValueType
  | loadF32Bits | storeF32Bits => .f32Bits
  | loadVu0Vector | storeVu0Vector => .vuF32x4Bits
  | _ => .i128

/-- `expected` after a node. -/
def publish (state : StateMap) (node : Node) : StateMap :=
  if node.opcode = .memoryLoad ∨ node.opcode = .memoryStore then
    Function.update state .memoryEffect node.id
  else
    match node.boundSlot, node.operands[0]? with
    | some slot, some value => Function.update state (.slot slot) value
    | _, _ => state

/-- `StateMapsEqual`. -/
def mapsEqual (left right : StateMap) : Bool :=
  StateField.all.all fun field => left field == right field

lemma mapsEqual_iff {left right : StateMap} : mapsEqual left right = true ↔ left = right := by
  simp only [mapsEqual, List.all_eq_true, beq_iff_eq]
  exact ⟨fun h => funext fun field => h field (StateField.mem_all field), fun h _ _ => h ▸ rfl⟩

/-- The opcodes that bind a slot. -/
def Opcode.isBinding : Opcode → Bool
  | .bindVu0Q | .bindVu0ViQ | .bindGpr | .bindHi | .bindLo | .bindSa | .bindFpr | .bindVu0Vf
  | .bindVu0Acc | .bindVu0MacFlag | .bindVu0StatusFlag | .bindVu0ViMac | .bindVu0ViStatus
  | .bindVu0Vi | .bindVu0ClipFlag | .bindVu0MicroStatusFlag | .bindFcr31 | .bindAcc => true
  | _ => false

namespace Block

variable (block : Block)

/-! ### The states a block publishes -/

/-- The node that defines a value before an index. -/
def definition (index : ℕ) (value : ValueId) : Option Node :=
  (block.nodes.take index).find? fun node => node.id == value

/-- `expected` before the node at an index. -/
def stateAt (index : ℕ) : StateMap :=
  ((block.nodes.take index).drop parameterCount).foldl publish block.parameters

/-- The index of the first executable node of an instruction. -/
def firstNode (pc : BitVec 32) : ℕ :=
  parameterCount + (block.nodes.drop parameterCount).findIdx fun node => node.sourcePc == pc

/-- The state before an instruction. -/
def inputState (pc : BitVec 32) : StateMap := block.stateAt (block.firstNode pc)

/-- `control_input`. -/
def controlInput : StateMap := block.inputState block.terminator.branchPc

/-- `delay_input`. -/
def delayInput : StateMap := block.inputState block.terminator.delaySlotPc

/-- `has_delayed_control`. -/
def hasDelayedControl : Bool := block.terminator.kind != .transfer

/-- `control_opcode`. -/
def controlOpcode : BitVec 32 :=
  if block.hasDelayedControl ∧ 2 ≤ block.source.length then
    ((block.source[block.source.length - 2]?).map SourceInstruction.opcode).getD 0
  else 0

/-- The source record of a node. -/
def sourceOf (node : Node) : Option SourceInstruction :=
  block.source.find? fun source => source.pc == node.sourcePc

/-- A block that ends before an instruction which tier zero has to observe. -/
def deferredObserver : Bool :=
  block.terminator.kind == .transfer && block.terminator.taken.targetBlock.isNone &&
    block.terminator.taken.externalReason != .regionBoundary

def primarySourcePc : BitVec 32 := ((block.source.getLast?).map SourceInstruction.pc).getD block.pc

/-- The cycle advance of an instruction. -/
def cycleAdvance (pc : BitVec 32) : Option ValueId :=
  ((block.nodes.drop parameterCount).find? fun node =>
    node.opcode == .advanceCycles && node.sourcePc == pc).map Node.id

/-- A state with the cycle of an edge. -/
def withCycle (state : StateMap) (advance : Option ValueId) : StateMap :=
  match advance with
  | some value => Function.update state (.slot .cycle) value
  | none => state

/-- `primary_expected`. -/
def primaryExpected : StateMap :=
  withCycle (block.stateAt block.nodes.length) (block.cycleAdvance block.primarySourcePc)

/-- `not_taken_expected`. -/
def notTakenExpected : StateMap :=
  if block.terminator.likely then
    withCycle block.delayInput (block.cycleAdvance block.terminator.branchPc)
  else block.primaryExpected

/-! ### Nodes -/

/-- `require_operand`. -/
def requireOperand (index : ℕ) (value : ValueId) (type : ValueType) : Bool :=
  (block.definition index value).any fun node => node.type == type

def checkSignature (index : ℕ) (node : Node) : Bool :=
  (signatures node.opcode).any fun signature =>
    node.type == signature.2 && node.operands.length == signature.1.length &&
      (node.operands.zip signature.1).all fun operand =>
        block.requireOperand index operand.1 operand.2

/-- A binding names a slot that varies. -/
def checkBinding (node : Node) : Bool :=
  !node.opcode.isBinding || node.boundSlot.any fun slot => (constantSlot slot).isNone

/-- The state and the address an exit of a node resumes at: those before its
instruction, or before the whole pair in a delay slot. -/
def exitState (index : ℕ) (node : Node) : Option (StateMap × BitVec 32) :=
  match block.sourceOf node with
  | none => none
  | some source =>
    if source.delaySlot then
      if block.hasDelayedControl ∧ block.firstNode block.terminator.branchPc < index then
        some (block.controlInput, block.terminator.branchPc)
      else none
    else some (block.inputState node.sourcePc, node.sourcePc)

/-- The contract of an exit that a node owns. -/
def checkExit (index : ℕ) (node : Node) (transfer : Transfer) (reason : ExitReason) : Bool :=
  match block.exitState index node with
  | none => false
  | some (state, resumePc) =>
    mapsEqual transfer.state state && transfer.targetBlock.isNone &&
      transfer.externalReason == reason && transfer.cycleCommitDeferred &&
      !transfer.eventHorizonCheck &&
      (block.definition index transfer.pc).any fun node' =>
        node'.opcode == .constantAddress && node'.type == .address &&
          node'.sourcePc == node.sourcePc && node'.literal.setWidth 32 == resumePc

/-- The contract of the one fallback transfer of an operation. -/
def checkOperation (exits : List OperationExit) (index : ℕ) (node : Node) (reason : ExitReason) :
    Bool :=
  match exits.filter fun candidate => candidate.operation == node.id with
  | [found] => block.checkExit index node found.transfer reason
  | _ => false

def checkMemory (index : ℕ) (node : Node) : Bool :=
  node.accessKind.isSome && node.operands[0]? == some (block.stateAt index .memoryEffect) &&
    block.checkOperation block.memoryExits index node .memoryObserver

/-- A loaded value follows a load of its own instruction and has its type. -/
def checkLoadValue (index : ℕ) (node : Node) : Bool :=
  ((node.operands[0]?).bind (block.definition index)).any fun load =>
    load.opcode == .memoryLoad && load.sourcePc == node.sourcePc &&
      load.accessKind.any fun kind => node.type == kind.valueType

/-- A conditional exit tests the overflow of its own instruction. -/
def checkGuard (index : ℕ) (node : Node) : Bool :=
  (((node.operands[0]?).bind (block.definition index)).any fun condition =>
    condition.opcode == .signedAddOverflow32 && condition.sourcePc == node.sourcePc) &&
  (block.guardedExits[node.immediate]?).any fun transfer =>
    block.checkExit index node transfer .exceptionObserver

def checkAdvance (node : Node) : Bool :=
  node.operands == [block.parameters (.slot .cycle)] &&
    (block.cycleAdvance block.primarySourcePc == some node.id ||
      (block.terminator.likely && block.cycleAdvance block.terminator.branchPc == some node.id))

/-- The binding of the link register at a control instruction replaces the low
half by the return address. -/
def checkLink (index : ℕ) (node : Node) : Bool :=
  !(block.hasDelayedControl && node.sourcePc == block.terminator.branchPc) ||
  (isLinkedControl block.controlOpcode &&
    node.immediate == controlLinkRegister block.controlOpcode &&
    ((node.operands[0]?).bind (block.definition index)).any fun replace =>
      replace.opcode == .replaceLow64 && replace.sourcePc == block.terminator.branchPc &&
        (node.boundSlot.any fun slot =>
          replace.operands[0]? == some (block.stateAt index (.slot slot))) &&
        ((replace.operands[1]?).bind (block.definition block.nodes.length)).any fun link =>
          link.opcode == .constantI64 && link.sourcePc == block.terminator.branchPc &&
            link.literal == block.terminator.branchPc.setWidth 64 + 8)

/-- The checks of one executable node. -/
def checkNode (node : Node) (index : ℕ) : Bool :=
  block.checkSignature index node && checkBinding node &&
    match node.opcode with
    | .memoryLoad | .memoryStore => block.checkMemory index node
    | .memoryLoadValue => block.checkLoadValue index node
    | .vu0RequireIdle => block.checkOperation block.observerExits index node .helperObserver
    | .exitIfTrue => block.checkGuard index node
    | .advanceCycles => block.checkAdvance node
    | .bindGpr => block.checkLink index node
    | _ => true

/-! ### Blocks -/

/-- The parameter nodes in the order of the fields. -/
def checkParameters : Bool :=
  parameterCount ≤ block.nodes.length &&
    (StateField.all.zip (block.nodes.zipIdx.take parameterCount)).all fun entry =>
      let field := entry.1
      let node := entry.2.1
      node.opcode == .parameter && node.type == field.type && node.operands == [] &&
        node.immediate == entry.2.2 && node.id == block.parameters field

/-- Source records are contiguous words of the image and mark the delay slot. -/
def checkSource (program : Program) : Bool :=
  block.source.zipIdx.all fun entry =>
    let source := entry.1
    program.readSourceWord source.pc == some source.opcode &&
      source.pc == block.pc + BitVec.ofNat 32 (4 * entry.2) &&
      source.delaySlot == (block.hasDelayedControl && entry.2 + 1 == block.source.length)

/-- The control pair ends the source, and its nodes are there. -/
def checkControl : Bool :=
  !block.hasDelayedControl ||
  (2 ≤ block.source.length &&
    ((block.source[block.source.length - 2]?).map SourceInstruction.pc ==
      some block.terminator.branchPc) &&
    ((block.source.getLast?).map SourceInstruction.pc == some block.terminator.delaySlotPc) &&
    decide (block.firstNode block.terminator.delaySlotPc < block.nodes.length) &&
    (block.terminator.kind == .jump ||
      decide (block.firstNode block.terminator.branchPc < block.nodes.length)))

/-- A linking control instruction binds its link register once. -/
def checkLinkCount : Bool :=
  ((block.nodes.drop parameterCount).filter fun node =>
      node.opcode == .bindGpr && block.hasDelayedControl &&
        node.sourcePc == block.terminator.branchPc).length ==
    if isLinkedControl block.controlOpcode ∧ controlLinkRegister block.controlOpcode ≠ 0 then 1
    else 0

/-- The predicate of a branch belongs to the branch and no node of the delay
slot comes before it. -/
def checkCondition : Bool :=
  let position := block.nodes.findIdx fun node => node.id == block.terminator.condition
  (block.nodes[position]?).any fun node =>
    node.type == .i1 && node.sourcePc == block.terminator.branchPc &&
      (block.nodes.take position).all fun earlier =>
        earlier.sourcePc != block.terminator.delaySlotPc

/-- `verify_transfer`. -/
def checkEdge (program : Program) (transfer : Transfer) (expected : StateMap) : Bool :=
  mapsEqual transfer.state expected &&
    transfer.cycleCommitDeferred == block.deferredObserver &&
    (block.definition block.nodes.length transfer.pc).any fun node =>
      node.type == .address &&
      if block.terminator.kind = .registerJump then
        node.opcode == .addressFromI32 && node.sourcePc == block.terminator.branchPc &&
          transfer.externalReason == .regionBoundary &&
          ((node.operands[0]?).bind (block.definition block.nodes.length)).any fun target =>
            target.opcode == .extractLow32 && target.sourcePc == block.terminator.branchPc &&
              if h : rs block.controlOpcode < 32 then
                target.operands == [block.controlInput (.slot (.gpr ⟨rs block.controlOpcode, h⟩))]
              else false
      else
        node.opcode == .constantAddress && !transfer.registerTargetProven &&
          transfer.targetBlock ==
            if transfer.externalReason = .regionBoundary then
              program.blockAt (node.literal.setWidth 32)
            else none

/-- The contract of an internal return. -/
def checkRegisterTarget (program : Program) (target : Transfer) : Bool :=
  target.registerTargetProven && target.provenRegisterTargetPc != 0 && target.targetBlock.isSome &&
    block.primaryExpected linkField == block.parameters linkField &&
    target.targetBlock == program.blockAt target.provenRegisterTargetPc &&
    (program.directCalls.any fun call =>
      call.returnJumpPc == block.terminator.branchPc &&
        call.returnPc == target.provenRegisterTargetPc) &&
    block.checkEdge program target block.primaryExpected

/-- The address of an edge that does not depend on a register. -/
def staticPc (transfer : Transfer) : Option (BitVec 32) :=
  (block.definition block.nodes.length transfer.pc).map fun node => node.literal.setWidth 32

def checkTerminator (program : Program) : Bool :=
  let terminator := block.terminator
  block.checkEdge program terminator.taken block.primaryExpected &&
    match terminator.kind with
    | .branch =>
      isConditionalBranch block.controlOpcode &&
        terminator.likely == isLikelyBranch block.controlOpcode &&
        block.checkCondition && terminator.registerTargets.isEmpty &&
        (!terminator.likely || (block.cycleAdvance terminator.branchPc).isSome) &&
        block.checkEdge program terminator.notTaken block.notTakenExpected &&
        block.staticPc terminator.taken ==
          some (branchTarget terminator.branchPc block.controlOpcode) &&
        block.staticPc terminator.notTaken == some (terminator.branchPc + 8)
    | .jump =>
      isStaticJump block.controlOpcode && !terminator.likely &&
        terminator.registerTargets.isEmpty &&
        block.staticPc terminator.taken ==
          some (jumpTarget terminator.branchPc block.controlOpcode)
    | .registerJump =>
      canLowerRegisterJump block.controlOpcode && !terminator.likely &&
        terminator.taken.targetBlock.isNone && !terminator.taken.registerTargetProven &&
        decide (terminator.registerTargets.length ≤ program.maxDirectCalls) &&
        decide (terminator.registerTargets.map Transfer.provenRegisterTargetPc).Nodup &&
        decide (terminator.registerTargets.map Transfer.targetBlock).Nodup &&
        terminator.registerTargets.all (block.checkRegisterTarget program)
    | .transfer =>
      !terminator.likely && terminator.registerTargets.isEmpty &&
        block.staticPc terminator.taken ==
          some (((block.source.getLast?).map fun source => source.pc + 4).getD block.pc)

def check (program : Program) : Bool :=
  block.checkParameters &&
    ((block.nodes.zipIdx.drop parameterCount).all fun entry =>
      block.checkNode entry.1 entry.2) &&
    block.checkSource program && block.checkControl && block.checkLinkCount &&
    block.checkTerminator program

end Block

/-! ### Direct calls -/

/-- The first block whose control instruction is at an address. -/
def Program.controlBlock (program : Program) (pc : BitVec 32) : Option ℕ :=
  program.blocks.findIdx? fun block => block.terminator.branchPc == pc

/-- The successors of a callee block that keeps `r31`; the return block has none. -/
def inspectCallee (program : Program) (returnBlock : ℕ) (returnJumpPc : BitVec 32) (index : ℕ) :
    Option (List ℕ) :=
  match program.blocks[index]? with
  | none => none
  | some block =>
    let terminator := block.terminator
    if index = returnBlock then
      if terminator.kind = .registerJump ∧ terminator.branchPc = returnJumpPc ∧
          terminator.taken.state linkField = block.parameters linkField then
        some []
      else none
    else if terminator.kind ≠ .registerJump ∧ terminator.internalTransfers ≠ [] ∧
        ∀ transfer ∈ terminator.internalTransfers,
          transfer.state linkField = block.parameters linkField then
      some (terminator.internalTransfers.filterMap Transfer.targetBlock)
    else none

/-- The blocks of a callee, when all of them keep `r31` up to the return. -/
def calleeBlocks (program : Program) (returnBlock : ℕ) (returnJumpPc : BitVec 32) (callee : ℕ) :
    Option (List ℕ) :=
  Worklist.explore (inspectCallee program returnBlock returnJumpPc)
    (1 + (program.blocks.map fun block => block.terminator.internalTransfers.length).sum)
    [callee] []

/-- The transfers into a block. -/
def Program.incomingEdges (program : Program) (target : ℕ) : ℕ :=
  (program.blocks.map fun block =>
    ((block.terminator.taken :: (if block.terminator.kind = .branch then
      [block.terminator.notTaken] else []) ++ block.terminator.registerTargets).filter
        fun transfer => transfer.targetBlock == some target).length).sum

/-- The contract of a direct call. -/
def Program.checkCall (program : Program) (call : DirectCallContract) : Bool :=
  call.returnPc == call.callPc + 8 && call.callPc.toNat ≤ 2 ^ 32 - 1 - 8 &&
  ((program.readSourceWord call.callPc).any fun word =>
    primary word == 3 && jumpTarget call.callPc word == call.calleePc) &&
  ((program.readSourceWord call.returnJumpPc).any fun word =>
    primary word == 0 && funct word == 0x08 && rs word == 31) &&
  (program.directCalls.all fun other =>
    other.returnJumpPc != call.returnJumpPc || other.calleePc == call.calleePc) &&
  match program.controlBlock call.callPc, program.blockAt call.calleePc,
      program.blockAt call.returnPc, program.controlBlock call.returnJumpPc with
  | some caller, some callee, some returnTarget, some returnBlock =>
    ((program.blocks[caller]?).any fun block =>
      block.terminator.kind == .jump && block.terminator.taken.targetBlock == some callee) &&
    ((calleeBlocks program returnBlock call.returnJumpPc callee).any fun visited =>
      visited.contains returnBlock) &&
    program.incomingEdges callee ==
      (program.directCalls.filter fun other => other.calleePc == call.calleePc).length &&
    (program.blocks[returnBlock]?).any fun block =>
      (block.terminator.registerTargets.any fun target =>
        target.targetBlock == some returnTarget && target.registerTargetProven &&
          target.provenRegisterTargetPc == call.returnPc) &&
      block.terminator.registerTargets.length ==
        (program.directCalls.filter fun other => other.calleePc == call.calleePc).length
  | _, _, _, _ => false

/-! ### Programs -/

/-- No id occurs twice; the ids seen so far are the bits of a number. -/
def distinctIds : List ValueId → ℕ → Bool
  | [], _ => true
  | id :: rest, seen => !seen.testBit id && distinctIds rest (seen ||| 1 <<< id)

lemma distinctIds_spec {ids : List ValueId} {seen : ℕ} (h : distinctIds ids seen = true) :
    ids.Nodup ∧ ∀ id ∈ ids, seen.testBit id = false := by
  induction ids generalizing seen with
  | nil => simp
  | cons id rest ih =>
    simp only [distinctIds, Bool.and_eq_true, Bool.not_eq_true'] at h
    obtain ⟨hrest, hseen⟩ := ih h.2
    have hother : ∀ other ∈ rest, seen.testBit other = false ∧ id ≠ other := fun other hmem => by
      simpa [Nat.one_shiftLeft, Nat.testBit_two_pow] using hseen other hmem
    exact ⟨List.nodup_cons.mpr ⟨fun hmem => (hother id hmem).2 rfl, hrest⟩,
      List.forall_mem_cons.mpr ⟨h.1, fun other hmem => (hother other hmem).1⟩⟩

/-- Every block is reached from the entry. -/
def Program.checkReachable (program : Program) : Bool :=
  (Worklist.explore
    (fun index => (program.blocks[index]?).map fun block =>
      block.terminator.internalTransfers.filterMap Transfer.targetBlock)
    (1 + (program.blocks.map fun block => block.terminator.internalTransfers.length).sum)
    [program.entryBlock] []).any fun visited =>
      (List.range program.blocks.length).all visited.contains

def verify (program : Program) : Bool :=
  decide (program.entryBlock < program.blocks.length) &&
    distinctIds (program.nodes.map Node.id) 0 &&
    (program.nodes.all fun node => decide (node.id < program.valueCount)) &&
    decide (program.nodes.length = program.valueCount) &&
    decide (program.blocks.map Block.pc).Nodup &&
    decide ((program.blocks.flatMap Block.source).map SourceInstruction.pc).Nodup &&
    decide (program.directCalls.length ≤ program.maxDirectCalls) &&
    decide (program.directCalls.map DirectCallContract.callPc).Nodup &&
    decide (program.directCalls.map DirectCallContract.returnPc).Nodup &&
    program.directCalls.all program.checkCall &&
    (program.blocks.all fun block => block.check program) &&
    program.checkReachable

end VitaSX2.RegionIR
