/-
Lowering of a scanned block: its instructions, its control pair and the state of
each of its transfers.
-/
import VitaSX2.Region.IR.Lower

namespace VitaSX2.RegionIR

/-! ### Scanned blocks -/

inductive RawControlKind
  | none
  | conditionalBranch
  | staticJump
  | registerJump
deriving DecidableEq, Repr

/-- A block of the source before it is lowered. -/
structure RawBlock where
  pc : BitVec 32
  body : List SourceInstruction
  controlKind : RawControlKind
  branchPc : BitVec 32
  branchOpcode : BitVec 32
  delay : SourceInstruction
  transferPc : BitVec 32
  transferReason : ExitReason

/-- `block.source`. -/
def RawBlock.source (raw : RawBlock) : List SourceInstruction :=
  if raw.controlKind = .none then raw.body
  else raw.body ++ [⟨raw.branchPc, raw.branchOpcode, false⟩, raw.delay]

/-- A transfer that no code reads. -/
def unusedTransfer : Transfer where
  targetBlock := none
  pc := Lower.invalidValue
  state := fun _ => Lower.invalidValue
  externalReason := .regionBoundary
  cycleCommitDeferred := false
  pendingRawCycles := 0
  eventHorizonCheck := true
  registerTargetProven := false
  provenRegisterTargetPc := 0

/-- What the lowering of a block reads of its program. -/
structure LiftContext where
  options : LiftOptions
  /-- The division by `1.3f`. -/
  quotient : ℕ → ℕ
  blockIndices : BitVec 32 → Option ℕ
  directCalls : List DirectCallContract
  /-- The source-block contract of a block asks for a scheduler test. -/
  schedulerTest : BitVec 32 → Bool

namespace LiftContext

open Lower

variable (context : LiftContext)

/-- Lower the body and count its raw cycles. -/
def lowerBody : List SourceInstruction → StateMap → ℕ → Lower (StateMap × ℕ)
  | [], state, rawCycles => return (state, rawCycles)
  | instruction :: rest, state, rawCycles => do
    let next ← lowerNonBranch context.options state instruction.opcode instruction.pc
      ⟨state, instruction.pc, rawCycles⟩
    lowerBody rest next (rawCycles + rawRecompilerCycles context.options instruction.opcode)

/-- Write the return address of a linking control instruction. -/
def lowerLink (state : StateMap) (word pc : BitVec 32) : Lower StateMap := do
  if isLinkedControl word ∧ controlLinkRegister word ≠ 0 then
    let link ← constant64 ((pc + 8).setWidth 64) pc
    writeLow64 state (controlLinkRegister word) link pc
  else return state

/-- The raw cycles of a list of instructions. -/
def rawCycleCost (source : List SourceInstruction) : ℕ :=
  (source.map fun instruction => rawRecompilerCycles context.options instruction.opcode).sum

/-- The scaled cycles of a block with some source. -/
def scaledCost (raw : RawBlock) (rawCycles : ℕ) : ℕ :=
  if raw.source.isEmpty then 0 else scaleBlockCycles context.quotient context.options rawCycles

/-- The address a block's own nodes and its last edge carry. -/
def lastPc (raw : RawBlock) : BitVec 32 :=
  ((raw.source.getLast?).map SourceInstruction.pc).getD raw.pc

def lowerConditionalBranch (raw : RawBlock) (state : StateMap) (rawCycles : ℕ) :
    Lower Terminator := do
  let restart : Restart := ⟨state, raw.branchPc, rawCycles⟩
  let likely := isLikelyBranch raw.branchOpcode
  let check := context.schedulerTest raw.pc
  let condition ← lowerBranchCondition state raw.branchOpcode raw.branchPc
  let linked ← lowerLink state raw.branchOpcode raw.branchPc
  let delayed ← lowerNonBranch context.options linked raw.delay.opcode raw.delay.pc restart
  let rawCost := context.rawCycleCost raw.source
  let takenState ← advanceCycles delayed (context.scaledCost raw rawCost) raw.delay.pc
  let notTakenState ←
    if likely then
      advanceCycles linked
        (context.scaledCost raw
          (rawCost - rawRecompilerCycles context.options raw.delay.opcode)) raw.branchPc
    else pure takenState
  let taken ← makeTransfer context.blockIndices takenState
    (branchTarget raw.branchPc raw.branchOpcode) .regionBoundary raw.delay.pc check
  let notTaken ← makeTransfer context.blockIndices notTakenState (raw.branchPc + 8)
    .regionBoundary (if likely then raw.branchPc else raw.delay.pc) check
  return {
    kind := .branch
    likely := likely
    condition := condition
    taken := taken
    notTaken := notTaken
    registerTargets := []
    branchPc := raw.branchPc
    delaySlotPc := raw.delay.pc }

def lowerStaticJump (raw : RawBlock) (state : StateMap) (rawCycles : ℕ) : Lower Terminator := do
  let restart : Restart := ⟨state, raw.branchPc, rawCycles⟩
  let linked ← lowerLink state raw.branchOpcode raw.branchPc
  let delayed ← lowerNonBranch context.options linked raw.delay.opcode raw.delay.pc restart
  let takenState ← advanceCycles delayed
    (context.scaledCost raw (context.rawCycleCost raw.source)) raw.delay.pc
  let taken ← makeTransfer context.blockIndices takenState
    (jumpTarget raw.branchPc raw.branchOpcode) .regionBoundary raw.delay.pc
    (context.schedulerTest raw.pc)
  return {
    kind := .jump
    likely := false
    condition := invalidValue
    taken := taken
    notTaken := unusedTransfer
    registerTargets := []
    branchPc := raw.branchPc
    delaySlotPc := raw.delay.pc }

/-- The internal returns of a block, one for each call that ends in it. -/
def returnTargets (raw : RawBlock) (parameters state : StateMap) (target : ValueId) :
    Option (List Transfer) :=
  (context.directCalls.filter fun call => call.returnJumpPc == raw.branchPc).mapM fun call =>
    match context.blockIndices call.returnPc with
    | some block =>
      if state linkField = parameters linkField then
        some (makeRegisterTransfer state target .regionBoundary (context.schedulerTest raw.pc)
          (some block) call.returnPc)
      else none
    | none => none

def lowerRegisterJump (raw : RawBlock) (parameters state : StateMap) (rawCycles : ℕ) :
    Lower Terminator := do
  let restart : Restart := ⟨state, raw.branchPc, rawCycles⟩
  let low ← low32 state (rs raw.branchOpcode) raw.branchPc
  let target ← addressFromI32 low raw.branchPc
  let linked ← lowerLink state raw.branchOpcode raw.branchPc
  let delayed ← lowerNonBranch context.options linked raw.delay.opcode raw.delay.pc restart
  let takenState ← advanceCycles delayed
    (context.scaledCost raw (context.rawCycleCost raw.source)) raw.delay.pc
  let registerTargets ← (context.returnTargets raw parameters takenState target : Option _)
  return {
    kind := .registerJump
    likely := false
    condition := invalidValue
    taken := makeRegisterTransfer takenState target .regionBoundary
      (context.schedulerTest raw.pc) none 0
    notTaken := unusedTransfer
    registerTargets := registerTargets
    branchPc := raw.branchPc
    delaySlotPc := raw.delay.pc }

/-- A block without control falls through, or stops before an instruction that
cannot be lowered. -/
def lowerFallthrough (raw : RawBlock) (state : StateMap) : Lower Terminator := do
  let rawCost := context.rawCycleCost raw.source
  let taken ←
    if raw.transferReason = .regionBoundary then do
      let state ← advanceCycles state (context.scaledCost raw rawCost) (lastPc raw)
      makeTransfer context.blockIndices state raw.transferPc .regionBoundary (lastPc raw)
        (context.schedulerTest raw.pc)
    else
      makeDeferredObserverTransfer state raw.transferPc raw.transferReason (lastPc raw) rawCost
  return {
    kind := .transfer
    likely := false
    condition := invalidValue
    taken := taken
    notTaken := unusedTransfer
    registerTargets := []
    branchPc := 0
    delaySlotPc := 0 }

/-- Lower a block whose parameters start at `base`. -/
def lowerBlock (raw : RawBlock) (base : ValueId) : Lower Terminator := do
  let parameters := parameterMap base
  let (state, rawCycles) ← context.lowerBody raw.body parameters 0
  match raw.controlKind with
  | .none => context.lowerFallthrough raw state
  | .conditionalBranch => context.lowerConditionalBranch raw state rawCycles
  | .staticJump => context.lowerStaticJump raw state rawCycles
  | .registerJump => context.lowerRegisterJump raw parameters state rawCycles

/-- Lower the blocks from an index on; `nextValue` is the next free value id. -/
def lowerBlocks : List RawBlock → ℕ → ValueId → Option (List Block × ValueId)
  | [], _, nextValue => some ([], nextValue)
  | raw :: rest, index, nextValue => do
    let base := index * parameterCount
    let (terminator, built) ← context.lowerBlock raw base
      ⟨allocateParameters base raw.pc, [], [], nextValue⟩
    let (blocks, nextValue) ← lowerBlocks rest (index + 1) built.nextValue
    return (
      { pc := raw.pc
        parameters := parameterMap base
        nodes := built.nodes
        source := raw.source
        guardedExits := built.guardedExits
        memoryExits := built.memoryExits
        observerExits := []
        terminator := terminator } :: blocks, nextValue)

end LiftContext

/-- The program of a list of scanned blocks in the order of their addresses. -/
def lowerProgram (options : LiftOptions) (quotient : ℕ → ℕ) (schedulerTest : BitVec 32 → Bool)
    (spans : List SourceSpan) (directCalls : List DirectCallContract) (entryPc : BitVec 32)
    (raws : List RawBlock) : Option Program := do
  let blockIndices (pc : BitVec 32) := raws.findIdx? fun raw => raw.pc == pc
  let entryBlock ← blockIndices entryPc
  let context : LiftContext := ⟨options, quotient, blockIndices, directCalls, schedulerTest⟩
  let (blocks, valueCount) ← context.lowerBlocks raws 0 (raws.length * parameterCount)
  return {
    sourceSpans := spans
    directCalls := directCalls
    vu0OverflowClamp := options.vu0OverflowClamp
    maxDirectCalls := options.maxDirectCalls
    entryBlock := entryBlock
    valueCount := valueCount
    blocks := blocks }

end VitaSX2.RegionIR
