/-
`SemanticIsland::Build`: the loops of a region.

`Build` finds the dominators of every block, orders the blocks along the edges
that are no back edges, and collects the natural loop of every header.  The passes
that do not look at the graph may refuse a program; what they check is left open.
-/
import VitaSX2.Lib.Settle
import VitaSX2.Lib.TopologicalSort
import VitaSX2.Region.IR.Verify

namespace VitaSX2.SemanticIsland

open RegionIR

/-- `MAX_ISLAND_BLOCKS`. -/
def maxIslandBlocks : ℕ := 63

inductive Failure
  | invalidProgram
  | unattestedSource
  | invalidExecutionPlan
  | blockLimit
  | irreducibleControlFlow
  | overlappingLoops
  | missingCompletion
  | invalidExitContract
deriving DecidableEq, Repr

/-- What `Fail` returns. -/
structure BuildFailure where
  failure : Failure
  detail : String
  block : Option ℕ := none
  relatedBlock : Option ℕ := none
deriving DecidableEq, Repr

/-- The text and the place of a failure that another pass reports. -/
structure Report where
  detail : String
  block : Option ℕ
  relatedBlock : Option ℕ

/-- The passes that do not look at the graph. -/
structure Passes where
  /-- What `Verify` reports about a program it refuses. -/
  verifyReport : Program → Report
  /-- `!program.source_blocks.empty()`. -/
  hasSourceBlocks : Program → Bool
  /-- The failure of `RegionExecution::Build`. -/
  execution : Program → Option Report
  /-- The failure of the first exit that `AppendExit` refuses. -/
  appendExits : Program → Option Report
  /-- `plan.completion_exits != 0`. -/
  hasCompletion : Program → Bool

/-- `Build` returns a plan or a failure; a loop without a bound would return nothing. -/
abbrev BuildM := ExceptT BuildFailure Option

/-! ### Edges -/

structure EdgeRef where
  source : ℕ
  target : ℕ
  ordinal : ℕ
  transfer : Transfer

/-- The transfers of `VisitInternalTransfers` and their ordinals, which are bytes;
external ones have no target. -/
def visitTransfers (terminator : Terminator) : List (Transfer × ℕ) :=
  (terminator.taken, 0) :: (if terminator.kind = .branch then [(terminator.notTaken, 1)] else []) ++
    if terminator.kind = .registerJump then
      terminator.registerTargets.zipIdx.map fun (transfer, index) => (transfer, (index + 1) % 256)
    else []

/-- The edges out of a block. -/
def blockEdges (source : ℕ) (block : Block) : List EdgeRef :=
  (visitTransfers block.terminator).filterMap fun (transfer, ordinal) =>
    transfer.targetBlock.map fun target => ⟨source, target, ordinal, transfer⟩

/-- `edges`. -/
def programEdges (program : Program) : List EdgeRef :=
  program.blocks.zipIdx.flatMap fun (block, source) => blockEdges source block

section Graph

variable (edges : List EdgeRef) (blockCount : ℕ)

/-- `predecessors[block]`, once for each edge. -/
def predecessors (block : ℕ) : List ℕ :=
  (edges.filter fun edge => edge.target = block).map EdgeRef.source

/-! ### Dominators -/

/-- A set with one block. -/
def bit (block : ℕ) : BitVec 64 := 1#64 <<< block

/-- The set of all blocks. -/
def allBlocks : BitVec 64 := 1#64 <<< blockCount - 1#64

/-- The dominators of a block, from those of its predecessors. -/
def nextDominators (dominators : ℕ → BitVec 64) (block : ℕ) : BitVec 64 :=
  let incoming :=
    if predecessors edges block = [] then 0#64
    else (predecessors edges block).foldl (fun incoming predecessor =>
      incoming &&& dominators predecessor) (allBlocks blockCount)
  incoming ||| bit block

/-- One block of a pass. -/
def dominatorStep (entry : ℕ) (state : (ℕ → BitVec 64) × Bool) (block : ℕ) :
    (ℕ → BitVec 64) × Bool :=
  if block = entry then state
  else
    let next := nextDominators edges blockCount state.1 block
    if next ≠ state.1 block then (Function.update state.1 block next, true) else state

def dominatorPass (entry : ℕ) (dominators : ℕ → BitVec 64) : (ℕ → BitVec 64) × Bool :=
  (List.range blockCount).foldl (dominatorStep edges blockCount entry) (dominators, false)

/-- `dominators`, after the passes have settled. -/
def computeDominators (entry : ℕ) : Option (ℕ → BitVec 64) :=
  Settle.settle (dominatorPass edges blockCount entry) (blockCount * 64 + 1)
    (Function.update (fun _ => allBlocks blockCount) entry (bit entry))

variable (dominators : ℕ → BitVec 64)

/-- `IsBackedge`. -/
def isBackedge (edge : EdgeRef) : Bool :=
  decide (edge.source < blockCount) && decide (edge.target < blockCount) &&
    (dominators edge.source).getLsbD edge.target

/-! ### The acyclic order -/

/-- `indegree`, of bytes; nothing when one of them is full. -/
def countIndegrees : Option (ℕ → ℕ) :=
  edges.foldlM (fun indegree edge =>
    if isBackedge blockCount dominators edge then some indegree
    else if indegree edge.target = 255 then none
    else some (Function.update indegree edge.target (indegree edge.target + 1))) fun _ => 0

/-- `--indegree[target]`, of a byte. -/
def decrement (indegree : ℕ) : ℕ := (indegree + 255) % 256

/-- The targets of the edges of a block that are no back edges. -/
def forwardTargets (source : ℕ) : List ℕ :=
  (edges.filter fun edge =>
    decide (edge.source = source) && !isBackedge blockCount dominators edge).map EdgeRef.target

/-- `acyclic_order`. -/
def acyclicOrder (indegree : ℕ → ℕ) : Option (List ℕ) :=
  TopologicalSort.sort decrement (forwardTargets edges blockCount dominators) blockCount
    ⟨indegree, (List.range blockCount).filter (indegree · = 0), []⟩

/-! ### Natural loops -/

/-- `latches_by_header[header]`. -/
def latchEdges (header : ℕ) : List EdgeRef :=
  edges.filter fun edge => isBackedge blockCount dominators edge && decide (edge.target = header)

/-- The keys of `latches_by_header`, in ascending order. -/
def headers : List ℕ :=
  (List.range blockCount).filter fun header =>
    !(latchEdges edges blockCount dominators header).isEmpty

/-- One predecessor of a block of the loop, or an entry that bypasses the header. -/
def visitPredecessor (header : ℕ) (state : BitVec 64 × List ℕ) (predecessor : ℕ) :
    Except ℕ (BitVec 64 × List ℕ) :=
  if predecessor = header ∨ state.1.getLsbD predecessor then
    .ok (state.1 ||| bit predecessor, state.2)
  else if !(dominators predecessor).getLsbD header then .error predecessor
  else .ok (state.1 ||| bit predecessor, predecessor :: state.2)

/-- The walk over the predecessors; the last pending block comes first. -/
def walkLoop (header : ℕ) : ℕ → BitVec 64 × List ℕ → Option (Except ℕ (BitVec 64))
  | _, (mask, []) => some (.ok mask)
  | 0, (_, _ :: _) => none
  | fuel + 1, (mask, block :: pending) =>
    match (predecessors edges block).foldlM (visitPredecessor dominators header) (mask, pending) with
    | .error predecessor => some (.error predecessor)
    | .ok state => walkLoop header fuel state

/-- The mask and the pending blocks before the walk. -/
def startLoop (header : ℕ) (latches : List EdgeRef) : BitVec 64 × List ℕ :=
  latches.foldl (fun (mask, pending) latch =>
    (mask ||| bit latch.source, if latch.source ≠ header then latch.source :: pending else pending))
    (bit header, [])

structure Loop where
  headerBlock : ℕ
  latchBlocks : List ℕ
  blocks : List ℕ
  parentLoop : Option ℕ := none
  depth : ℕ := 0
  sourceInstructions : ℕ
  eventCheckedLatches : ℕ
deriving DecidableEq, Repr

/-- The loop of a mask; the latches are sorted and occur once. -/
def loopOf (program : Program) (header : ℕ) (latches : List EdgeRef) (mask : BitVec 64) : Loop :=
  let blocks := (List.range blockCount).filter mask.getLsbD
  { headerBlock := header
    latchBlocks := ((latches.map EdgeRef.source).mergeSort (· ≤ ·)).dedup
    blocks
    sourceInstructions :=
      (blocks.map fun block => ((program.blocks[block]?).elim 0 fun b => b.source.length)).sum
    eventCheckedLatches := latches.countP fun latch => latch.transfer.eventHorizonCheck }

/-- The loop of a header and its mask. -/
def buildLoop (program : Program) (header : ℕ) : BuildM (BitVec 64 × Loop) :=
  let latches := latchEdges edges blockCount dominators header
  ExceptT.mk <| (walkLoop edges dominators header (latches.length + blockCount)
    (startLoop header latches)).map fun
    | .error predecessor => .error
        { failure := .irreducibleControlFlow
          detail := "natural loop has an entry which bypasses its header"
          block := some predecessor
          relatedBlock := some header }
    | .ok mask => .ok (mask, loopOf blockCount program header latches mask)

end Graph

/-! ### Nesting -/

/-- `MaskContains`. -/
def maskContains (outer inner : BitVec 64) : Bool := outer &&& inner == inner

/-- `std::popcount`. -/
def popcount (mask : BitVec 64) : ℕ := (List.range 64).countP mask.getLsbD

/-- Two masks that share a block, and neither contains the other. -/
def overlaps (left right : BitVec 64) : Bool :=
  left &&& right != 0#64 && !maskContains left right && !maskContains right left

/-- The first two loops that overlap. -/
def findOverlap (masks : List (BitVec 64)) : Option (ℕ × ℕ) :=
  ((List.range masks.length).flatMap fun left =>
    ((List.range masks.length).filter (left < ·)).map fun right => (left, right)).find?
      fun (left, right) => overlaps (masks.getD left 0#64) (masks.getD right 0#64)

/-- The smallest loop that strictly contains a loop, and the first of that size. -/
def parentLoop (masks : List (BitVec 64)) (child : ℕ) : Option ℕ :=
  ((List.range masks.length).foldl (fun (best : Option ℕ × ℕ) candidate =>
    let mask := masks.getD candidate 0#64
    if candidate = child ∨ !maskContains mask (masks.getD child 0#64) ∨
        mask = masks.getD child 0#64 then best
    else if popcount mask < best.2 then (some candidate, popcount mask) else best)
    (none, 2 ^ 32 - 1)).1

/-- The length of the chain of parents, at most the guard. -/
def loopDepth (parents : ℕ → Option ℕ) : ℕ → Option ℕ → ℕ
  | _, none => 1
  | 0, some _ => 1
  | guard + 1, some parent => loopDepth parents guard (parents parent) + 1

/-- The loops with their parents and depths. -/
def nestLoops (loops : List (BitVec 64 × Loop)) : List Loop :=
  let parents := parentLoop (loops.map Prod.fst)
  loops.zipIdx.map fun ((_, loop), index) =>
    { loop with
      parentLoop := parents index
      depth := loopDepth parents loops.length (parents index) }

/-! ### Plans -/

structure InternalEdge where
  sourceBlock : ℕ
  targetBlock : ℕ
  ordinal : ℕ
  backedge : Bool
  eventHorizonCheck : Bool
  cycleCommitDeferred : Bool
deriving DecidableEq, Repr

structure Plan where
  entryBlock : ℕ
  acyclicOrder : List ℕ
  internalEdges : List InternalEdge
  loops : List Loop
  maximumLoopDepth : ℕ
  hasRepeatedCore : Bool
deriving DecidableEq, Repr

/-- An edge of the plan. -/
def internalEdge (blockCount : ℕ) (dominators : ℕ → BitVec 64) (edge : EdgeRef) : InternalEdge where
  sourceBlock := edge.source
  targetBlock := edge.target
  ordinal := edge.ordinal
  backedge := isBackedge blockCount dominators edge
  eventHorizonCheck := edge.transfer.eventHorizonCheck
  cycleCommitDeferred := edge.transfer.cycleCommitDeferred

/-- A loop that has no bound of its own returns. -/
def liftLoop {α : Type} (result : Option α) : BuildM α := ExceptT.mk (result.map .ok)

/-- `return Fail(…)` under a condition. -/
def failIf (condition : Bool) (failure : BuildFailure) : BuildM Unit :=
  if condition then throw failure else pure ()

/-- `return Fail(…)` when something has been found. -/
def failOn (found : Option BuildFailure) : BuildM Unit :=
  match found with
  | some failure => throw failure
  | none => pure ()

/-- The failure of another pass. -/
def Report.failure (report : Report) (failure : Failure) : BuildFailure :=
  ⟨failure, report.detail, report.block, report.relatedBlock⟩

/-- What `Build` checks before it looks at the graph. -/
def checkProgram (passes : Passes) (program : Program) : BuildM Unit := do
  failIf (!verify program) ((passes.verifyReport program).failure .invalidProgram)
  failIf (program.sourceSpans.isEmpty || !passes.hasSourceBlocks program)
    { failure := .unattestedSource
      detail := "operation island requires immutable source spans and source-block contracts" }
  failIf (program.blocks.isEmpty || decide (maxIslandBlocks < program.blocks.length) ||
      decide (program.blocks.length ≤ program.entryBlock))
    { failure := .blockLimit, detail := "operation island exceeds the bounded CFG bitset" }
  failOn ((passes.execution program).map (·.failure .invalidExecutionPlan))

/-- The edge that leaves the program. -/
def targetFailure (blockCount : ℕ) (edges : List EdgeRef) : Option BuildFailure :=
  (edges.find? (blockCount ≤ ·.target)).map fun edge =>
    { failure := .invalidProgram
      detail := "internal transfer target is outside the verified CFG"
      block := some edge.source }

/-- The loops that overlap. -/
def overlapFailure (loops : List (BitVec 64 × Loop)) : Option BuildFailure :=
  (findOverlap (loops.map Prod.fst)).map fun (left, right) =>
    { failure := .overlappingLoops
      detail := "reducible loops overlap without a nesting relation"
      block := (loops[left]?).map fun loop => loop.2.headerBlock
      relatedBlock := (loops[right]?).map fun loop => loop.2.headerBlock }

/-- The counters of the acyclic order. -/
def indegrees (blockCount : ℕ) (edges : List EdgeRef) (dominators : ℕ → BitVec 64) :
    BuildM (ℕ → ℕ) :=
  match countIndegrees edges blockCount dominators with
  | some indegree => pure indegree
  | none => throw { failure := .blockLimit, detail := "operation-island indegree overflows" }

/-- The graph of a program: its order, its edges and its loops. -/
def buildTopology (program : Program) : BuildM Plan := do
  let blockCount := program.blocks.length
  let edges := programEdges program
  failOn (targetFailure blockCount edges)
  let dominators ← liftLoop (computeDominators edges blockCount program.entryBlock)
  let indegree ← indegrees blockCount edges dominators
  let order ← liftLoop (acyclicOrder edges blockCount dominators indegree)
  failIf (order.length != blockCount)
    { failure := .irreducibleControlFlow
      detail := "removing dominance backedges does not make the CFG acyclic" }
  let loops ← (headers edges blockCount dominators).mapM
    (buildLoop edges blockCount dominators program)
  failOn (overlapFailure loops)
  return {
    entryBlock := program.entryBlock
    acyclicOrder := order
    internalEdges := edges.map (internalEdge blockCount dominators)
    loops := nestLoops loops
    maximumLoopDepth := ((nestLoops loops).map Loop.depth).foldl max 0
    hasRepeatedCore := !loops.isEmpty }

/-- `Build`. -/
def build (passes : Passes) (program : Program) : BuildM Plan := do
  checkProgram passes program
  let plan ← buildTopology program
  failOn ((passes.appendExits program).map (·.failure .invalidExitContract))
  failIf (!passes.hasCompletion program)
    { failure := .missingCompletion
      detail := "operation island has no exact external RegionBoundary completion" }
  return plan

end VitaSX2.SemanticIsland
