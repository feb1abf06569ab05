/-
The targets of the indirect branches and the analysis of a program
(`InferIndirectResolutions`, `BuildBlocks`, `AnalyzeGpuVu1ProgramImpl`).

A forward analysis keeps, for each integer register, the finite set of link values
it can hold.  The blocks and the targets are computed in turns until the targets
do not change.
-/
import VitaSX2.Lib.Dataflow
import VitaSX2.Vu1.Blocks

namespace VitaSX2.Vu1

/-! ### The values of the integer registers -/

/-- `ViValue`. -/
structure ViValue where
  values : List ℕ := []
  unknown : Bool := false
deriving DecidableEq, Repr

/-- `ViState`. -/
abbrev ViState := Fin 16 → ViValue

/-- `SetKnownViValue`. -/
def ViValue.known (value : ℕ) : ViValue := { values := [value] }

/-- `upper_writes`. -/
def PairPlan.upperWrites (plan : PairPlan) : BitVec 32 :=
  if plan.execUpper then plan.upperViWrite else 0

/-- `lower_writes`. -/
def PairPlan.lowerWrites (plan : PairPlan) : BitVec 32 :=
  if plan.execLower then plan.lowerViWrite else 0

/-- `ApplyPairViWrites`. -/
def applyPairViWrites (state : ViState) (pair : ProgramPair) : ViState :=
  let plan := pair.plan
  let written : ViState := fun reg =>
    if reg ≠ 0 ∧ (plan.upperWrites ||| plan.lowerWrites).getLsbD reg then { unknown := true }
    else state reg
  let link := viIt plan.lower
  let linked :=
    if !pair.delayedPair && plan.execLower &&
        (plan.lowerKind == .bal || plan.lowerKind == .jalr) &&
        (link != 0 && plan.lowerWrites.getLsbD link && !plan.upperWrites.getLsbD link) then
      Function.update written link (.known (afterDelay plan.pc / pairBytes))
    else written
  Function.update linked 0 (.known 0)

/-- `JoinViValue`. -/
def joinViValue (destination source : ViValue) : ViValue × Bool :=
  if destination.unknown then (destination, false)
  else if source.unknown then ({ unknown := true }, true)
  else
    ({ destination with values := source.values.foldl insertKey destination.values },
      source.values.any (· ∉ destination.values))

/-- `JoinViState`. -/
def joinViState (destination source : ViState) : ViState × Bool :=
  (fun reg => (joinViValue (destination reg) (source reg)).1,
    decide (∃ reg, (joinViValue (destination reg) (source reg)).2 = true))

/-! ### The targets of the indirect branches -/

/-- A block by its index. -/
def blockAt (blocks : List BasicBlock) (index : ℕ) : BasicBlock :=
  blocks.getD index { startPc := 0 }

/-- The blocks that the edges of a block lead to. -/
def blockTargets (blocks : List BasicBlock) (index : ℕ) : List ℕ :=
  (blockAt blocks index).successors.filterMap ControlEdge.targetBlock

/-- The analysis of the integer registers. -/
def viAnalysis (blocks : List BasicBlock) : Dataflow.Analysis ℕ ViState where
  transfer index state := (blockAt blocks index).pairs.foldl applyPairViWrites state
  targets := blockTargets blocks
  join := joinViState

/-- The registers where a program starts. -/
def entryViState : ViState :=
  Function.update (fun _ => { unknown := true }) 0 (.known 0)

/-- The state before the branch of a block. -/
def beforeBranch (block : BasicBlock) (state : ViState) : ViState :=
  (block.pairs.take (block.pairs.length - 2)).foldl applyPairViWrites state

/-- The targets of the indirect branch of a block. -/
def inferResolution (block : BasicBlock) (state : ViState) : IndirectResolution :=
  match block.pairs[block.pairs.length - 2]? with
  | none => { unresolved := true }
  | some branchPair =>
    let target := beforeBranch block state (viIs branchPair.plan.lower)
    if target.unknown ∨ target.values = [] then { unresolved := true }
    else
      { targets :=
          (target.values.map fun value => value * pairBytes % vu1ProgSize).foldl insertKey [] }

/-- The inference for one block, when it is reached and ends with an indirect branch. -/
def inferBlock (facts : ℕ → Option ViState) (blocks : List BasicBlock) (index : ℕ) :
    Option (ℕ × IndirectResolution) :=
  let block := blockAt blocks index
  match facts index with
  | none => none
  | some state =>
    if block.indirectBranch ∧ 2 ≤ block.pairs.length then
      some (block.branchPc, inferResolution block state)
    else none

/-- `InferIndirectResolutions`. -/
def inferIndirectResolutions (fuel : ℕ) (blocks : List BasicBlock) (startPc : ℕ) :
    Option (List (ℕ × IndirectResolution)) :=
  match blocks.findIdx? (·.startPc = startPc) with
  | none => some []
  | some entry =>
    (Dataflow.solveFrom (viAnalysis blocks) fuel entry entryViState).map fun facts =>
      (List.range blocks.length).filterMap (inferBlock facts blocks)

/-- One entry of `UpdateIndirectResolutions`. -/
def updateResolution (state : IndirectResolutionMap × Bool) (entry : ℕ × IndirectResolution) :
    IndirectResolutionMap × Bool :=
  match state.1 entry.1 with
  | none => (Function.update state.1 entry.1 (some entry.2), true)
  | some current =>
    (Function.update state.1 entry.1 (some
        { targets := entry.2.targets.foldl insertKey current.targets
          unresolved := current.unresolved || entry.2.unresolved }),
      state.2 || entry.2.targets.any (· ∉ current.targets) ||
        (entry.2.unresolved && !current.unresolved))

/-- `UpdateIndirectResolutions`. -/
def updateIndirectResolutions (inferred : List (ℕ × IndirectResolution))
    (resolutions : IndirectResolutionMap) : IndirectResolutionMap × Bool :=
  inferred.foldl updateResolution (resolutions, false)

section Build

variable (upperTable : UpperTable) (micro : Micro)

/-- `BuildBlocks`, with the passes left and the resolutions so far. -/
def buildBlocks (fuel startPc : ℕ) : ℕ → IndirectResolutionMap → Option (List BasicBlock)
  | 0, _ => none
  | passes + 1, resolutions =>
    (buildBlocksForIndirectResolutions upperTable micro startPc resolutions).bind fun blocks =>
      (inferIndirectResolutions fuel blocks startPc).bind fun inferred =>
        let (next, changed) := updateIndirectResolutions inferred resolutions
        if changed then buildBlocks fuel startPc passes next else some blocks

/-- `ProgramAnalysis`. -/
structure ProgramAnalysis where
  startPc : ℕ
  blocks : List BasicBlock
  resolvedIndirectEdges : ℕ
  hasUnresolvedIndirectControl : Bool
  hasBranchInDelaySlot : Bool
  hasExternalExit : Bool
  resumePcs : List ℕ
  completeCfg : Bool

/-- A block with an indirect branch that may leave the graph. -/
def BasicBlock.unresolvedIndirect (block : BasicBlock) : Bool :=
  block.indirectBranch && block.successors.any (·.kind == .externalExit)

/-- The flags of the analysis, read off the blocks. -/
def summarize (startPc : ℕ) (blocks : List BasicBlock) : ProgramAnalysis :=
  let hasUnresolvedIndirectControl := blocks.any BasicBlock.unresolvedIndirect
  let hasBranchInDelaySlot := blocks.any (·.branchInDelaySlot)
  let hasExternalExit := blocks.any (·.hasExternalExit)
  { startPc, blocks, hasUnresolvedIndirectControl, hasBranchInDelaySlot, hasExternalExit
    resolvedIndirectEdges :=
      (blocks.flatMap (·.successors)).countP (·.kind == .resolvedIndirect)
    resumePcs := ((blocks.filter (·.hasResumePc)).map (·.resumePc)).foldl insertKey []
    completeCfg :=
      !hasUnresolvedIndirectControl && !hasBranchInDelaySlot && !hasExternalExit }

/-- `AnalyzeGpuVu1ProgramImpl` on a whole image, with a bound on the visits of the
register analysis. -/
def analyzeGpuVu1Program (fuel startPc : ℕ) : Option ProgramAnalysis :=
  if startPc % pairBytes ≠ 0 then none
  else
    let start := startPc % vu1ProgSize
    (buildBlocks upperTable micro fuel start (maxVu1Pairs + 1) fun _ => none).bind fun blocks =>
      if blocks.any (·.startPc = start) then some (summarize start blocks) else none

end Build

end VitaSX2.Vu1
