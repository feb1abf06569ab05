/-
The natural loops of a program and their counters (`ComputeDominators`,
`CollectNaturalLoop`, `AnalyzeLoopCounter`, `FindNaturalLoops`).

A loop belongs to an edge whose target dominates its source.  Its counter is the
operand of the branch of the latch that pairs of the loop update, and the step is
the sum of all these updates.
-/
import VitaSX2.Vu1.Reachability

namespace VitaSX2.Vu1

/-- `NaturalLoop`. -/
structure NaturalLoop where
  headerBlock : ℕ
  latchBlock : ℕ
  blocks : List ℕ
  parentLoop : Option ℕ := none
  childLoops : List ℕ := []
  nestingDepth : ℕ := 0
  counterReg : Fin 16 := 0
  counterLimitReg : Fin 16 := 0
  counterStep : ℤ := 0
  branchKind : LowerKind := .none
  singleEntry : Bool := false
  branchTakenRepeats : Bool := false
  affineCounter : Bool := false
deriving DecidableEq, Repr

section Dominators

variable (blocks : List BasicBlock)

/-- `predecessors`, in the order of the edges. -/
def predecessors (index : ℕ) : List ℕ :=
  (List.range blocks.length).flatMap fun source =>
    ((blockTargets blocks source).filter (· = index)).map fun _ => source

/-- The dominators of a block, from those of its predecessors. -/
def nextDominators (dominators : List (List Bool)) (block : ℕ) : List Bool :=
  let joined :=
    if predecessors blocks block = [] then List.replicate blocks.length false
    else (predecessors blocks block).foldl (fun next predecessor =>
      next.zipWith (· && ·) (dominators.getD predecessor [])) (List.replicate blocks.length true)
  joined.set block true

/-- One block of a pass. -/
def dominatorStep (entry : ℕ) (state : List (List Bool) × Bool) (block : ℕ) :
    List (List Bool) × Bool :=
  if block = entry then state
  else
    let next := nextDominators blocks state.1 block
    if next ≠ state.1.getD block [] then (state.1.set block next, true) else state

/-- The passes of `ComputeDominators`, up to a bound on their number. -/
def dominatorPasses (entry : ℕ) : ℕ → List (List Bool) → Option (List (List Bool))
  | 0, _ => none
  | passes + 1, dominators =>
    let next := (List.range blocks.length).foldl (dominatorStep blocks entry) (dominators, false)
    if next.2 then dominatorPasses entry passes next.1 else some next.1

/-- `ComputeDominators`. -/
def computeDominators (fuel entry : ℕ) : Option (List (List Bool)) :=
  dominatorPasses blocks entry fuel <|
    (List.replicate blocks.length (List.replicate blocks.length true)).set entry
      ((List.replicate blocks.length false).set entry true)

/-- `CollectNaturalLoop`: the blocks that reach the latch without the header. -/
def collectNaturalLoop (header latch : ℕ) : Option (List ℕ) :=
  let start : Marking.Marks ℕ :=
    if latch = header then ⟨[header], []⟩ else ⟨[latch, header], [latch]⟩
  (Marking.mark (predecessors blocks) (· ≠ header) blocks.length start).map fun members =>
    (List.range blocks.length).filter (· ∈ members)

end Dominators

/-! ### Counters -/

/-- `BranchCounterOperands`. -/
def branchCounterOperands (latch : BasicBlock) : Option (Fin 16 × Fin 16) :=
  if !latch.hasBranch || !latch.conditionalBranch then none
  else if latch.pairs.length < 2 then none
  else
    (latch.pairs[latch.pairs.length - 2]?).bind fun pair =>
      let is := viIs pair.plan.lower
      let it := viIt pair.plan.lower
      match latch.branchKind with
      | .ibeq | .ibne => if is = it then none else some (is, it)
      | .ibltz | .ibgtz | .iblez | .ibgez => if is = 0 then none else some (is, 0)
      | _ => none

/-- `CounterUpdate`. -/
def counterUpdate (pair : ProgramPair) (reg : Fin 16) : Option ℤ :=
  let code := pair.plan.lower
  if !pair.plan.execLower || !pair.plan.lowerViWrite.getLsbD reg then none
  else if viIt code = reg ∧ viIs code = reg then
    match pair.plan.lowerKind with
    | .iaddi => some (imm5 code).toInt
    | .iaddiu => some (imm15 code).toNat
    | .isubiu => some (-(imm15 code).toNat)
    | _ => none
  else none

/-- One pair in `register_evolution`: the writes and the step so far. -/
def evolvePair (reg : Fin 16) (state : ℕ × ℤ) (pair : ProgramPair) : Option (ℕ × ℤ) :=
  if !pair.plan.lowerViWrite.getLsbD reg then some state
  else (counterUpdate pair reg).map fun update => (state.1 + 1, state.2 + update)

/-- `register_evolution`: the number of writes in the loop and the sum of the steps. -/
def registerEvolution (blocks : List BasicBlock) (members : List ℕ) (reg : Fin 16) :
    Option (ℕ × ℤ) :=
  if reg = 0 then some (0, 0)
  else (members.flatMap fun index => (blockAt blocks index).pairs).foldlM (evolvePair reg) (0, 0)

/-- The edge of the latch to the header repeats the loop when the branch is taken. -/
def branchTakenRepeats (blocks : List BasicBlock) (header latch : ℕ) : Bool :=
  match (blockAt blocks latch).successors.find? (·.targetBlock = some header) with
  | some edge => edge.kind == .branchTaken
  | none => false

/-- The counter of a loop, its limit and its step. -/
def loopCounter (blocks : List BasicBlock) (loop : NaturalLoop) : Option (Fin 16 × Fin 16 × ℤ) :=
  (branchCounterOperands (blockAt blocks loop.latchBlock)).bind fun (first, second) =>
    (registerEvolution blocks loop.blocks first).bind fun (firstWrites, firstStep) =>
      (registerEvolution blocks loop.blocks second).bind fun (secondWrites, secondStep) =>
        if firstWrites ≠ 0 ∧ secondWrites = 0 ∧ firstStep ≠ 0 then some (first, second, firstStep)
        else if secondWrites ≠ 0 ∧ firstWrites = 0 ∧ secondStep ≠ 0 then
          some (second, first, secondStep)
        else none

/-- `AnalyzeLoopCounter`. -/
def analyzeLoopCounter (blocks : List BasicBlock) (loop : NaturalLoop) : NaturalLoop :=
  let loop :=
    { loop with
      branchKind := (blockAt blocks loop.latchBlock).branchKind
      branchTakenRepeats := branchTakenRepeats blocks loop.headerBlock loop.latchBlock }
  match loopCounter blocks loop with
  | none => loop
  | some (counterReg, counterLimitReg, counterStep) =>
    { loop with counterReg, counterLimitReg, counterStep, affineCounter := true }

/-! ### The loops of an analysis -/

/-- The loop of a back edge. -/
def backEdgeLoop (blocks : List BasicBlock) (source target : ℕ) : Option NaturalLoop :=
  (collectNaturalLoop blocks target source).map fun members =>
    analyzeLoopCounter blocks { headerBlock := target, latchBlock := source, blocks := members }

/-- The back edges: those whose target dominates their source. -/
def backEdges (blocks : List BasicBlock) (dominators : List (List Bool)) : List (ℕ × ℕ) :=
  (List.range blocks.length).flatMap fun source =>
    ((blockTargets blocks source).filter fun target =>
      (dominators.getD source []).getD target false).map fun target => (source, target)

/-- No reachable block outside the loop leads into it past the header. -/
def singleEntry (analysis : ProgramAnalysis) (loop : NaturalLoop) : Bool :=
  loop.blocks.all fun index =>
    (predecessors analysis.blocks index).all fun predecessor =>
      !(decide (predecessor ∈ analysis.reachableBlocks) && decide (predecessor ∉ loop.blocks) &&
        decide (index ≠ loop.headerBlock))

/-- The smallest other loop that holds more blocks, all of this one among them. -/
def parentLoop (loops : List NaturalLoop) (loopIndex : ℕ) (loop : NaturalLoop) : Option ℕ :=
  (loops.zipIdx.foldl (fun (parent : Option ℕ × Option ℕ) (candidate, index) =>
    if index = loopIndex ∨ candidate.blocks.length ≤ loop.blocks.length ∨
        (∃ size ∈ parent.2, size ≤ candidate.blocks.length) ∨
        ¬ loop.blocks.all (· ∈ candidate.blocks) then parent
    else (some index, some candidate.blocks.length)) (none, none)).1

/-- The number of loops around a loop. -/
def nestingDepth (parents : List (Option ℕ)) : ℕ → Option ℕ → ℕ
  | fuel + 1, some parent => nestingDepth parents fuel (parents.getD parent none) + 1
  | _, _ => 0

/-- The loop forest of `FindNaturalLoops`. -/
def loopForest (analysis : ProgramAnalysis) (loops : List NaturalLoop) : List NaturalLoop :=
  let parents := loops.zipIdx.map fun (loop, index) => parentLoop loops index loop
  loops.zipIdx.map fun (loop, index) =>
    { loop with
      singleEntry := singleEntry analysis loop
      parentLoop := parents.getD index none
      childLoops := (List.range loops.length).filter fun child => parents.getD child none = some index
      nestingDepth := nestingDepth parents loops.length (parents.getD index none) }

/-- `FindNaturalLoops`. -/
def findNaturalLoops (fuel : ℕ) (analysis : ProgramAnalysis) : Option (List NaturalLoop) :=
  analysis.entryBlock.bind fun entry =>
    (computeDominators analysis.blocks fuel entry).bind fun dominators =>
      ((backEdges analysis.blocks dominators).mapM fun (source, target) =>
        backEdgeLoop analysis.blocks source target).map (loopForest analysis)

end VitaSX2.Vu1
