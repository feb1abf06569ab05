/-
`Interpret` as a machine that takes one node, or one terminator, a step.

A configuration is the running block, the index of the next node, the value
table, the canonical state and the memory context.  The callbacks of the memory
interface may change their context and are otherwise arbitrary.
-/
import VitaSX2.Region.IR.Evaluate
import Mathlib.Logic.Relation

namespace VitaSX2.RegionIR

/-! ### Memory accesses -/

inductive MemoryAccessKind
  | loadS8
  | loadU8
  | loadS16
  | loadU16
  | loadS32
  | loadU32
  | loadF32Bits
  | load64
  | load128
  | loadVu0Vector
  | store8
  | store16
  | store32
  | storeF32Bits
  | store64
  | store128
  | storeVu0Vector
deriving DecidableEq, Repr

namespace MemoryAccessKind

/-- The kinds in the order of their immediates. -/
def all : List MemoryAccessKind :=
  [loadS8, loadU8, loadS16, loadU16, loadS32, loadU32, loadF32Bits, load64, load128,
    loadVu0Vector, store8, store16, store32, storeF32Bits, store64, store128, storeVu0Vector]

/-- `MemoryAlignmentMask`. -/
def alignmentMask : MemoryAccessKind → BitVec 32
  | loadS16 | loadU16 | store16 => 1
  | loadS32 | loadU32 | loadF32Bits | store32 | storeF32Bits => 3
  | load64 | store64 => 7
  | loadVu0Vector | storeVu0Vector => 15
  | _ => 0

/-- `IsQuadMemoryAccess`. -/
def isQuad : MemoryAccessKind → Bool
  | load128 | store128 | loadVu0Vector | storeVu0Vector => true
  | _ => false

end MemoryAccessKind

/-- The access of a memory node. -/
def Node.accessKind (node : Node) : Option MemoryAccessKind :=
  MemoryAccessKind.all[node.immediate]?

inductive MemoryProbeResult
  | direct
  | handler
  | translation
  | selfModifyingCode
deriving DecidableEq, Repr

structure MemoryRequest where
  sourcePc : BitVec 32
  address : BitVec 32
  kind : MemoryAccessKind

/-- The callbacks over a context `σ`; an absent one is a null pointer. -/
structure RegionMemoryInterface (σ : Type) where
  probe : Option (σ → MemoryRequest → MemoryProbeResult × σ)
  read : Option (σ → MemoryRequest → Option U128 × σ)
  write : Option (σ → MemoryRequest → U128 → Bool × σ)

structure InterpretOptions (σ : Type) where
  /-- All ones when no event is ever due. -/
  nextEventCycle : BitVec 64
  maxBlockExecutions : ℕ
  memory : Option (RegionMemoryInterface σ)

/-- The value of a load: the old register value with the loaded bits in it. -/
def loadedBits (kind : MemoryAccessKind) (oldValue raw : U128) : Option U128 :=
  match kind with
  | .loadS8 => some { oldValue with lo := (raw.lo.setWidth 8).signExtend 64 }
  | .loadU8 => some { oldValue with lo := (raw.lo.setWidth 8).setWidth 64 }
  | .loadS16 => some { oldValue with lo := (raw.lo.setWidth 16).signExtend 64 }
  | .loadU16 => some { oldValue with lo := (raw.lo.setWidth 16).setWidth 64 }
  | .loadS32 => some { oldValue with lo := (raw.lo.setWidth 32).signExtend 64 }
  | .loadU32 | .loadF32Bits => some { oldValue with lo := (raw.lo.setWidth 32).setWidth 64 }
  | .load64 => some { oldValue with lo := raw.lo }
  | .load128 | .loadVu0Vector => some raw
  | _ => none

/-! ### States -/

/-- The slot a binding node writes. -/
def Node.boundSlot (node : Node) : Option StateSlot :=
  match node.opcode with
  | .bindGpr => if h : node.immediate < 32 then some (.gpr ⟨node.immediate, h⟩) else none
  | .bindHi => some .hi
  | .bindLo => some .lo
  | .bindSa => some .sa
  | .bindFpr => if h : node.immediate < 32 then some (.fpr ⟨node.immediate, h⟩) else none
  | .bindVu0Vf => if h : node.immediate < 32 then some (.vu0Vf ⟨node.immediate, h⟩) else none
  | .bindVu0Acc => some .vu0Acc
  | .bindVu0MacFlag => some .vu0MacFlag
  | .bindVu0StatusFlag => some .vu0StatusFlag
  | .bindVu0ViMac => some (.vu0Vi 17)
  | .bindVu0ViStatus => some (.vu0Vi 16)
  | .bindVu0Q => some .vu0Q
  | .bindVu0ViQ => some (.vu0Vi 22)
  | .bindVu0Vi => if h : node.immediate < 32 then some (.vu0Vi ⟨node.immediate, h⟩) else none
  | .bindVu0ClipFlag => some .vu0ClipFlag
  | .bindVu0MicroStatusFlag =>
    if h : node.immediate < 4 then some (.vu0MicroStatusFlag ⟨node.immediate, h⟩) else none
  | .bindFcr31 => some .fcr31
  | .bindAcc => some .acc
  | _ => none

lemma StateSlot.truncate_truncate (slot : StateSlot) (value : U128) :
    slot.truncate (slot.truncate value) = slot.truncate value := by
  simp only [StateSlot.truncate]
  split
  · rfl
  · rfl
  · simp only [bits32, bits, U128.word]
    congr 1
    ext i hi
    simp only [BitVec.getElem_setWidth, BitVec.getLsbD_extractLsb', BitVec.getLsbD_setWidth]
    grind

/-- The words that do not vary: the zero register and the constant vector. -/
def constantSlot : StateSlot → Option U128
  | .gpr index => if index = 0 then some 0 else none
  | .vu0Vf index => if index = 0 then some ⟨0, 0x3f80000000000000#64⟩ else none
  | _ => none

/-- A slot of a published state. -/
def publishedSlot (slot : StateSlot) (value : U128) : U128 :=
  match constantSlot slot with
  | some constant => constant
  | none => slot.truncate value

lemma truncate_publishedSlot (slot : StateSlot) (value : U128) :
    slot.truncate (publishedSlot slot value) = publishedSlot slot value := by
  unfold publishedSlot
  split
  next constant h =>
    cases slot <;> simp only [constantSlot] at h <;> try cases h
    all_goals rfl
  next => exact slot.truncate_truncate value

/-- The state with its constant slots forced. -/
def normalize (state : CanonicalState) : CanonicalState where
  slot s := publishedSlot s (state.slot s)
  pc := state.pc
  fits s := truncate_publishedSlot s _

/-- `materialize`. -/
def materialize (values : ValueId → U128) (transfer : Transfer) : CanonicalState where
  slot s := publishedSlot s (values (transfer.state (.slot s)))
  pc := (values transfer.pc).lo.setWidth 32
  fits s := truncate_publishedSlot s _

/-- The value a state and a memory effect give to a parameter. -/
def CanonicalState.field (state : CanonicalState) (memoryEffect : U128) : StateField → U128
  | .slot s => state.slot s
  | .memoryEffect => memoryEffect

/-- `assign_parameters`. -/
def assignParameters (parameters : StateMap) (state : CanonicalState) (memoryEffect : U128)
    (values : ValueId → U128) : ValueId → U128 :=
  StateField.all.foldl
    (fun table field => Function.update table (parameters field) (state.field memoryEffect field))
    values

/-- The canonical state after a binding or a cycle advance. -/
def bindCurrent (node : Node) (values : ValueId → U128) (result : U128) (current : CanonicalState) :
    CanonicalState :=
  let write (slot : StateSlot) (value : U128) : CanonicalState :=
    { current with
      slot := fun s => if s = slot then s.truncate value else current.slot s
      fits := fun s => by
        show s.truncate (if s = slot then s.truncate value else current.slot s) =
          if s = slot then s.truncate value else current.slot s
        split
        · exact s.truncate_truncate value
        · exact current.fits s }
  match node.boundSlot with
  | some slot => write slot (node.operand values 0)
  | none => if node.opcode = .advanceCycles then write .cycle result else current

/-! ### The machine -/

structure Configuration (σ : Type) where
  block : ℕ
  /-- The index of the next node of the block. -/
  index : ℕ
  values : ValueId → U128
  current : CanonicalState
  memory : σ
  blocksExecuted : ℕ
  sourceInstructionsExecuted : ℕ

structure InterpretResult where
  completed : Bool
  reason : ExitReason
  blocksExecuted : ℕ
  sourceInstructionsExecuted : ℕ
  cycleCommitDeferred : Bool
  pendingRawCycles : ℕ
  memoryAddress : BitVec 32
  error : Option String

inductive Outcome (σ : Type)
  | next (configuration : Configuration σ)
  | finished (output : Option CanonicalState) (result : InterpretResult)
  /-- An index is outside its table. -/
  | undefined

section Machine

variable {σ : Type} (float : FloatUnit) (program : Program) (options : InterpretOptions σ)

/-- The counters of a result that carries no exit yet. -/
def Configuration.result (c : Configuration σ) : InterpretResult where
  completed := false
  reason := .regionBoundary
  blocksExecuted := c.blocksExecuted
  sourceInstructionsExecuted := c.sourceInstructionsExecuted
  cycleCommitDeferred := false
  pendingRawCycles := 0
  memoryAddress := 0
  error := none

def Configuration.fail (c : Configuration σ) (error : String) : Outcome σ :=
  .finished none { c.result with error := some error }

/-- Leave at a transfer before the instruction at its `pc`. -/
def Configuration.leave (c : Configuration σ) (block : Block) (transfer : Transfer)
    (reason : ExitReason) (address : BitVec 32) : Outcome σ :=
  let current := materialize c.values transfer
  .finished (some current)
    { c.result with
      completed := true
      reason := reason
      sourceInstructionsExecuted :=
        c.sourceInstructionsExecuted +
          (block.source.takeWhile fun source => source.pc != current.pc).length
      cycleCommitDeferred := transfer.cycleCommitDeferred
      pendingRawCycles := transfer.pendingRawCycles
      memoryAddress := address }

/-- Store the bits of a node and go on to the next one. -/
def Configuration.store (c : Configuration σ) (node : Node) (result : U128) : Configuration σ :=
  { c with
    index := c.index + 1
    values := Function.update c.values node.id result
    current := bindCurrent node c.values result c.current }

/-- The fallback transfer of an operation. -/
def findExit (exits : List OperationExit) (node : Node) : Option OperationExit :=
  exits.find? fun candidate => candidate.operation == node.id

/-- `exit_before_observer`. -/
def exitBeforeObserver (block : Block) (node : Node) (reason : ExitReason)
    (c : Configuration σ) : Outcome σ :=
  match findExit block.observerExits node with
  | none => c.fail "synchronization observer lacks its verified fallback transfer"
  | some found => c.leave block found.transfer reason 0

/-- `exit_before_memory`. -/
def exitBeforeMemory (block : Block) (node : Node) (address : BitVec 32) (reason : ExitReason)
    (c : Configuration σ) : Outcome σ :=
  match findExit block.memoryExits node with
  | none => c.fail "memory operation lacks its verified fallback transfer"
  | some found => c.leave block found.transfer reason address

/-- A load or a store whose probe was direct. -/
def performAccess (memory : RegionMemoryInterface σ) (node : Node) (kind : MemoryAccessKind)
    (request : MemoryRequest) (c : Configuration σ) : Outcome σ :=
  if node.opcode = .memoryLoad then
    match memory.read with
    | none => c.fail "direct memory load lacks a read callback"
    | some read =>
      match read c.memory request with
      | (none, _) => c.fail "direct memory load callback failed"
      | (some raw, context) =>
        match loadedBits kind (node.operand c.values 2) raw with
        | none => c.fail "load node carries a store kind"
        | some loaded => .next ({ c with memory := context }.store node loaded)
  else
    match memory.write with
    | none => c.fail "direct memory store lacks a write callback"
    | some write =>
      match write c.memory request (node.operand c.values 2) with
      | (false, _) => c.fail "direct memory store callback failed"
      | (true, context) => .next ({ c with memory := context }.store node 0)

def executeMemory (block : Block) (node : Node) (c : Configuration σ) : Outcome σ :=
  match node.accessKind with
  | none => .undefined
  | some kind =>
    let unaligned := (node.operand c.values 1).lo.setWidth 32
    if unaligned &&& kind.alignmentMask ≠ 0 then
      exitBeforeMemory block node unaligned .memoryAlignment c
    else
      let address := if kind.isQuad then unaligned &&& ~~~0xf#32 else unaligned
      let request : MemoryRequest := ⟨node.sourcePc, address, kind⟩
      match options.memory.bind fun memory => memory.probe.map fun probe => (memory, probe) with
      | none => exitBeforeMemory block node address .memoryObserver c
      | some (memory, probe) =>
        match probe c.memory request with
        | (.direct, context) => performAccess memory node kind request { c with memory := context }
        | (.handler, _) => exitBeforeMemory block node address .memoryHandler c
        | (.translation, _) => exitBeforeMemory block node address .memoryTranslation c
        | (.selfModifyingCode, _) => exitBeforeMemory block node address .selfModifyingCode c

/-- A delay-slot node of a likely branch that is not taken. -/
def annulled (block : Block) (values : ValueId → U128) (node : Node) : Bool :=
  block.terminator.kind == .branch && block.terminator.likely && node.opcode != .parameter &&
    node.sourcePc == block.terminator.delaySlotPc &&
      (values block.terminator.condition).lo == 0

def executeNode (block : Block) (node : Node) (c : Configuration σ) : Outcome σ :=
  if annulled block c.values node then .next { c with index := c.index + 1 }
  else
    match node.opcode with
    | .vu0RequireIdle =>
      if (node.operand c.values 0).lo.setWidth 32 &&& 1#32 ≠ 0 then
        exitBeforeObserver block node .helperObserver c
      else .next (c.store node (evaluate float program.vu0OverflowClamp c.values node))
    | .memoryLoad | .memoryStore => executeMemory options block node c
    | .exitIfTrue =>
      if (node.operand c.values 0).lo ≠ 0 then
        match block.guardedExits[node.immediate]? with
        | none => .undefined
        | some transfer => c.leave block transfer transfer.externalReason 0
      else .next (c.store node 0)
    | _ => .next (c.store node (evaluate float program.vu0OverflowClamp c.values node))

/-- The transfer the terminator chooses. -/
def selectTransfer (block : Block) (values : ValueId → U128) : Transfer :=
  let terminator := block.terminator
  match terminator.kind with
  | .branch => if (values terminator.condition).lo = 0 then terminator.notTaken else terminator.taken
  | .registerJump =>
    let targetPc := (values terminator.taken.pc).lo.setWidth 32
    (terminator.registerTargets.find? fun target =>
      target.registerTargetProven && target.provenRegisterTargetPc == targetPc).getD
        terminator.taken
  | _ => terminator.taken

/-- The instructions a block has executed when it ends. -/
def blockSourceInstructions (block : Block) (values : ValueId → U128) : ℕ :=
  if block.terminator.kind = .branch ∧ block.terminator.likely ∧
      (values block.terminator.condition).lo = 0 then
    block.source.length - 1
  else block.source.length

/-- `event_due`. -/
def eventDue (cycle : BitVec 64) : Bool :=
  options.nextEventCycle != BitVec.allOnes 64 && options.nextEventCycle.ule cycle

/-- The head of the loop: take a block from the budget. -/
def enterBlock (target : ℕ) (memoryEffect : U128) (c : Configuration σ) : Outcome σ :=
  match program.blocks[target]? with
  | none => .undefined
  | some block =>
    if options.maxBlockExecutions ≤ c.blocksExecuted then
      .finished (some c.current)
        { c.result with error := some "Region IR execution exceeded its validation block budget" }
    else
      .next
        { c with
          block := target
          index := parameterCount
          values := assignParameters block.parameters c.current memoryEffect c.values
          blocksExecuted := c.blocksExecuted + 1 }

def executeTerminator (block : Block) (c : Configuration σ) : Outcome σ :=
  let transfer := selectTransfer block c.values
  let after : Configuration σ :=
    { c with
      current := materialize c.values transfer
      sourceInstructionsExecuted :=
        c.sourceInstructionsExecuted + blockSourceInstructions block c.values }
  if transfer.eventHorizonCheck ∧ eventDue options (after.current.slot .cycle).lo then
    .finished (some after.current) { after.result with completed := true, reason := .eventHorizon }
  else
    match transfer.targetBlock with
    | none =>
      .finished (some after.current)
        { after.result with
          completed := true
          reason := transfer.externalReason
          cycleCommitDeferred := transfer.cycleCommitDeferred
          pendingRawCycles := transfer.pendingRawCycles }
    | some target => enterBlock program options target (c.values (transfer.state .memoryEffect)) after

def step (c : Configuration σ) : Outcome σ :=
  match program.blocks[c.block]? with
  | none => .undefined
  | some block =>
    match block.nodes[c.index]? with
    | some node => executeNode float program options block node c
    | none => executeTerminator program options block c

/-- The first outcome of a run. -/
def start (input : CanonicalState) (memory : σ) : Outcome σ :=
  let c : Configuration σ :=
    { block := program.entryBlock
      index := parameterCount
      values := fun _ => 0
      current := normalize input
      memory := memory
      blocksExecuted := 0
      sourceInstructionsExecuted := 0 }
  if eventDue options (c.current.slot .cycle).lo then
    .finished (some c.current) { c.result with completed := true, reason := .eventHorizon }
  else enterBlock program options program.entryBlock 0 c

/-- The configurations of the run of `Interpret` on an input. -/
inductive Reaches (input : CanonicalState) (memory : σ) : Configuration σ → Prop
  | init {c : Configuration σ} :
      start program options input memory = .next c → Reaches input memory c
  | tail {c c' : Configuration σ} :
      Reaches input memory c → step float program options c = .next c' → Reaches input memory c'

end Machine

end VitaSX2.RegionIR
