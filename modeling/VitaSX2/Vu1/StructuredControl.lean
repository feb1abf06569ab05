/-
The lexical loop forest of a program (`BuildStructuredControlPlan`) and the exit
reachability it asks for (`AnalyzeExitReachability`).

The plan takes the natural loops whose header the entry reaches, gives every reachable
block to the deepest loop around it, and checks that without the edges from a latch to
its header the graph has no cycle.
-/
import VitaSX2.Lib.Attempt
import VitaSX2.Vu1.NaturalLoops

namespace VitaSX2.Vu1

/-- `StructuredControlLoop`. -/
structure StructuredControlLoop where
  loopIndex : ℕ
  parentLoop : Option ℕ
  headerBlock : ℕ
  latchBlock : ℕ
  nestingDepth : ℕ
  counterReg : Fin 16
  counterLimitReg : Fin 16
  counterStep : ℤ
  exclusivePairCount : ℕ
  exclusiveQwordStoreCount : ℕ
  exclusiveXgkickCount : ℕ
  childLoops : List ℕ
  exclusiveBlocks : List ℕ
deriving DecidableEq, Repr

/-- `StructuredControlPlan`. -/
structure StructuredControlPlan where
  entryBlock : ℕ
  reachablePairCount : ℕ
  qwordStoreSites : ℕ
  xgkickSites : ℕ
  maximumNestingDepth : ℕ
  topLevelBlocks : List ℕ
  blockInnermostLoop : List (Option ℕ)
  loops : List StructuredControlLoop
  hasNestedLoops : Bool
  singleInvocationControlProven : Bool
deriving DecidableEq, Repr

/-- A plan, the text of an error, or no result within a bound. -/
abbrev PlanM := ExceptT String Option

/-- `return Fail(…)` under a condition. -/
def failWith (condition : Bool) (error : String) : PlanM Unit :=
  if condition then throw error else pure ()

/-! ### Exits -/

/-- The blocks with a `ProgramExit` edge. -/
def exitBlocks (blocks : List BasicBlock) : List ℕ :=
  (List.range blocks.length).filter fun index =>
    (blockAt blocks index).successors.any (·.kind == .programExit)

/-- `can_reach_exit`. -/
def canReachExit (blocks : List BasicBlock) : List ℕ :=
  (Marking.mark (predecessors blocks) (fun _ => true) blocks.length
    ⟨exitBlocks blocks, exitBlocks blocks⟩).getD []

/-- `has_program_exit`. -/
def ProgramAnalysis.hasProgramExit (analysis : ProgramAnalysis) : Bool :=
  !(exitBlocks analysis.blocks).isEmpty

/-- `every_block_can_reach_program_exit`. -/
def ProgramAnalysis.everyBlockCanReachProgramExit (analysis : ProgramAnalysis) : Bool :=
  analysis.hasProgramExit &&
    (List.range analysis.blocks.length).all (· ∈ canReachExit analysis.blocks)

/-! ### Counts -/

/-- The pairs of some blocks. -/
def pairsOf (blocks : List BasicBlock) (indices : List ℕ) : List ProgramPair :=
  indices.flatMap fun index => (blockAt blocks index).pairs

/-- The pairs whose lower instruction is executed and of one of the kinds. -/
def countLower (kinds : List LowerKind) (pairs : List ProgramPair) : ℕ :=
  pairs.countP fun pair => pair.plan.execLower && !pair.plan.lowerDiscardedByUpper &&
    decide (pair.plan.lowerKind ∈ kinds)

/-- `qword_store_sites`. -/
def qwordStoreSites : List ProgramPair → ℕ := countLower [.sq, .sqi, .sqd]

/-- `xgkick_sites`. -/
def xgkickSites : List ProgramPair → ℕ := countLower [.xgkick]

/-! ### Loops -/

section Loops

variable (analysis : ProgramAnalysis) (loops : List NaturalLoop)

/-- The loops with a reachable header and their indices, in the order of
`dense_loop_index`. -/
def plannedLoops : List (NaturalLoop × ℕ) :=
  loops.zipIdx.filter fun (loop, _) => loop.headerBlock ∈ analysis.reachableBlocks

/-- What has to hold of a loop of the plan. -/
def checkLoop (loop : NaturalLoop) : PlanM Unit := do
  let latch := blockAt analysis.blocks loop.latchBlock
  failWith (decide (analysis.blocks.length ≤ loop.latchBlock) || loop.blocks.isEmpty)
    "structured VU loop has invalid block ownership"
  failWith (!loop.singleEntry || !loop.affineCounter || loop.counterReg == 0 ||
      loop.counterStep == 0)
    "structured VU loop requires a single-entry affine counter"
  failWith (decide (loop.headerBlock ∉ loop.blocks) || decide (loop.latchBlock ∉ loop.blocks))
    "structured VU loop omits its header or latch"
  failWith (latch.successors.any fun edge => decide (edge.targetBlock = some loop.headerBlock) &&
      ((edge.kind == .branchTaken) != loop.branchTakenRepeats))
    "structured VU loop repeat polarity mismatch"
  failWith (!(latch.successors.any fun edge => edge.targetBlock = some loop.headerBlock) ||
      !(latch.successors.any fun edge => edge.targetBlock.any fun target =>
        decide (target ≠ loop.headerBlock) && decide (target ∉ loop.blocks)) ||
      !latch.conditionalBranch)
    "structured VU loop requires one conditional latch exit"

/-- Two loops share a block, and neither includes the other. -/
def loopsOverlap (left right : NaturalLoop) : Bool :=
  left.blocks.any (· ∈ right.blocks) && !(right.blocks.all (· ∈ left.blocks)) &&
    !(left.blocks.all (· ∈ right.blocks))

/-- Some loops of the plan overlap. -/
def hasOverlap : List (NaturalLoop × ℕ) → Bool
  | [] => false
  | (left, _) :: rest => rest.any (fun right => loopsOverlap left right.1) || hasOverlap rest

/-- The deepest loop around a block, and the last one of that depth. -/
def blockOwner (block : ℕ) : Option ℕ :=
  (loops.zipIdx.foldl (fun (owner : Option ℕ × ℕ) (loop, index) =>
    if block ∉ loop.blocks then owner
    else if owner.1 = none ∨ owner.2 ≤ loop.nestingDepth then (some index, loop.nestingDepth)
    else owner) (none, 0)).1

/-- A loop of the plan with the blocks it owns. -/
def structuredLoop (loop : NaturalLoop) (index : ℕ) : StructuredControlLoop :=
  let exclusive := analysis.reachableBlocks.filter fun block => blockOwner loops block = some index
  let pairs := pairsOf analysis.blocks exclusive
  { loopIndex := index
    parentLoop := loop.parentLoop
    headerBlock := loop.headerBlock
    latchBlock := loop.latchBlock
    nestingDepth := loop.nestingDepth
    counterReg := loop.counterReg
    counterLimitReg := loop.counterLimitReg
    counterStep := loop.counterStep
    exclusivePairCount := pairs.length
    exclusiveQwordStoreCount := qwordStoreSites pairs
    exclusiveXgkickCount := xgkickSites pairs
    childLoops := loop.childLoops.filter fun child =>
      (loops[child]?).any fun loop => loop.headerBlock ∈ analysis.reachableBlocks
    exclusiveBlocks := exclusive }

/-! ### The acyclic rest -/

/-- `is_backedge`. -/
def isLoopEdge (source target : ℕ) : Bool :=
  loops.any fun loop => source == loop.latchBlock && target == loop.headerBlock

/-- The targets that `visit_dag` goes on to. -/
def dagTargets (block : ℕ) : List ℕ :=
  (blockTargets analysis.blocks block).filter fun target => !isLoopEdge loops block target

/-- `visit_dag`: 1 is a block that is being visited, 2 one that is done. -/
def visitDag : ℕ → (ℕ → ℕ) → ℕ → PlanM (ℕ → ℕ)
  | fuel, visit, block =>
    if block ∉ analysis.reachableBlocks then pure visit
    else if visit block = 1 then throw "structured VU control retains an unclassified cycle"
    else if visit block = 2 then pure visit
    else
      match fuel with
      | 0 => ExceptT.mk none
      | fuel + 1 => do
        let done ← (dagTargets analysis loops block).foldlM (fun visit target =>
          if analysis.blocks.length ≤ target then
            throw "structured VU control retains an unclassified cycle"
          else visitDag fuel visit target) (Function.update visit block 1)
        return Function.update done block 2

/-- `BuildStructuredControlPlan`, with a bound on the depth of the visit. -/
def buildStructuredControlPlan (fuel : ℕ) : PlanM StructuredControlPlan := do
  failWith (analysis.blocks.isEmpty || !analysis.completeCfg || !analysis.hasProgramExit ||
      !analysis.everyBlockCanReachProgramExit)
    "structured VU control requires a complete exiting CFG"
  let reachable := analysis.reachableBlocks
  let some entry :=
      (reachable.filter fun index => (blockAt analysis.blocks index).startPc = analysis.startPc).getLast?
    | throw "structured VU control has no reachable entry block"
  let planned := plannedLoops analysis loops
  planned.forM fun (loop, _) => checkLoop analysis loop
  failWith (hasOverlap planned) "structured VU control has overlapping loops"
  failWith (reachable.any fun block =>
      (blockOwner loops block).any fun owner => owner ∉ planned.map Prod.snd)
    "structured VU block has no dense loop owner"
  let _ ← visitDag analysis loops fuel (fun _ => 0) entry
  let pairs := pairsOf analysis.blocks reachable
  return {
    entryBlock := entry
    reachablePairCount := pairs.length
    qwordStoreSites := qwordStoreSites pairs
    xgkickSites := xgkickSites pairs
    maximumNestingDepth := (planned.map fun (loop, _) => loop.nestingDepth).foldl max 0
    topLevelBlocks := reachable.filter fun block => blockOwner loops block = none
    blockInnermostLoop := (List.range analysis.blocks.length).map fun block =>
      if block ∈ reachable then blockOwner loops block else none
    loops := planned.map fun (loop, index) => structuredLoop analysis loops loop index
    hasNestedLoops := planned.any fun (loop, _) => loop.nestingDepth ≠ 0
    singleInvocationControlProven := true }

end Loops

end VitaSX2.Vu1
