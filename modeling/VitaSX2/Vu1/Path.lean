/-
Runs of the step machine, paths in the control-flow graph, and what it means that a
run follows the graph.
-/
import VitaSX2.Vu1.Values

namespace VitaSX2.Vu1

/-! ### Paths -/

/-- An edge to a block is taken; a block with an indirect branch is left over a
resolved target. -/
def Leads (blocks : List BasicBlock) (source target : ℕ) : Prop :=
  ∃ edge ∈ (blockAt blocks source).successors, edge.targetBlock = some target ∧
    edge.targetPc = (blockAt blocks target).startPc ∧
    ((blockAt blocks source).indirectBranch = true → edge.kind = .resolvedIndirect)

/-- The blocks that have been left, and the one that is being executed. -/
inductive Path (blocks : List BasicBlock) (entry : ℕ) : List ℕ → ℕ → Prop where
  | start : Path blocks entry [] entry
  | next {path : List ℕ} {index target : ℕ} : Path blocks entry path index →
    Leads blocks index target → Path blocks entry (path ++ [index]) target

/-- The addresses of the pairs of the blocks that have been left and of those
executed in the last one. -/
def pairSequence (blocks : List BasicBlock) (path : List ℕ) (executed : List ProgramPair) : List ℕ :=
  (path.flatMap (fun index => (blockAt blocks index).pairs) ++ executed).map (·.plan.pc)

/-! ### Runs -/

section Run

variable {D : Type} (semantics : Semantics D) (upperTable : UpperTable) (micro : Micro)
  (fbrst : BitVec 32)

/-- Where a run has got to: between two pairs, of which the next one may be in the
delay slot of the last one, or finished. -/
inductive Outcome (D : Type) where
  | running (vu : Vu D) (delayed : Bool)
  | finished (vu : Vu D)

/-- A pair with a branch or an E-bit has a delay slot. -/
def opensDelaySlot (pc : ℕ) : Bool :=
  match decodePair upperTable micro pc with
  | some plan => plan.branches || plan.ebit
  | none => false

/-- The pairs that a run executes, each from a state that is allowed. -/
inductive Run (allowed : Bool → Vu D → Prop) (start : Vu D) : List ℕ → Outcome D → Prop where
  | start : Run allowed start [] (.running start false)
  | pair {pcs : List ℕ} {vu vu' : Vu D} {delayed : Bool} :
    Run allowed start pcs (.running vu delayed) → allowed delayed vu →
    step semantics upperTable micro fbrst vu = .pairCompleted vu' →
    Run allowed start (pcs ++ [vu.pc])
      (.running vu' (!delayed && opensDelaySlot upperTable micro vu.pc))
  | finish {pcs : List ℕ} {vu vu' : Vu D} {delayed : Bool} :
    Run allowed start pcs (.running vu delayed) → allowed delayed vu →
    step semantics upperTable micro fbrst vu = .programFinished vu' →
    Run allowed start (pcs ++ [vu.pc]) (.finished vu')

/-- The registers where a program starts: no branch and no E-bit is under way. -/
structure Starts (startPc : ℕ) (vu : Vu D) : Prop where
  pc : vu.pc = startPc % vu1ProgSize
  branch : vu.branch = 0
  takedelaybranch : vu.takedelaybranch = false
  ebit : vu.ebit = 0

/-- The step executes a pair. -/
def Proceeds (result : StepResult D) : Prop :=
  ∃ vu, result = .pairCompleted vu ∨ result = .programFinished vu

/-- A run follows the graph: its pairs are those of the blocks of a path, it goes on
inside a block, and it ends where the exit of a block is taken. -/
def FollowsCfg (blocks : List BasicBlock) (entry : ℕ) (pcs : List ℕ) : Outcome D → Prop
  | .running vu _ => ∃ path index executed rest, Path blocks entry path index ∧
      (blockAt blocks index).pairs = executed ++ rest ∧ rest ≠ [] ∧
      pcs = pairSequence blocks path executed ∧
      Proceeds (step semantics upperTable micro fbrst vu)
  | .finished vu => ∃ path index, Path blocks entry path index ∧
      pcs = pairSequence blocks path (blockAt blocks index).pairs ∧
      (∃ edge ∈ (blockAt blocks index).successors, edge.kind = .programExit) ∧
      vu.pc = (blockAt blocks index).resumePc

/-- The graph is sound for the runs from allowed states: every such run that starts
at the start address follows the graph from the block of that address. -/
def CfgSound (allowed : Bool → Vu D → Prop) (analysis : ProgramAnalysis) : Prop :=
  ∃ entry < analysis.blocks.length, (blockAt analysis.blocks entry).startPc = analysis.startPc ∧
    ∀ start : Vu D, Starts analysis.startPc start → ∀ pcs outcome,
      Run semantics upperTable micro fbrst allowed start pcs outcome →
      FollowsCfg semantics upperTable micro fbrst analysis.blocks entry pcs outcome

/-! ### The steps that the graph accounts for -/

/-- The E-bit of a pair. -/
def pairEbit (pc : ℕ) : Bool := (readWord micro (pc % vu1ProgSize + 4)).getLsbD 30

/-- The pair after the delay slot of a pair. -/
def successorPc (plan : PairPlan) (vu : Vu D) : ℕ :=
  match (vu.issue plan).target semantics plan with
  | some target => target % vu1ProgSize
  | none => afterDelay vu.pc

/-- A pair outside a delay slot does nothing that the analysis overlooks: a jump
through register 0 finds it zero, a linking jump through its own link register
finds the link there, an E-bit comes neither with a branch to another place nor
with an E-bit in its delay slot, and an E-bit in the delay slot of a branch is
renewed by the pair after it. -/
structure Regular (vu : Vu D) (plan : PairPlan) : Prop where
  zero : plan.branches = true → isIndirectBranch plan.lowerKind = true → viIs plan.lower = 0 →
    (vu.vi 0).toNat % maxVu1Pairs = 0
  link : plan.branches = true → plan.lowerKind = .jalr → viIs plan.lower = viIt plan.lower →
    viIs plan.lower ≠ 0 →
    (vu.vi (viIs plan.lower)).toNat % maxVu1Pairs = afterDelay vu.pc / pairBytes
  exit_target : plan.ebit = true → successorPc semantics plan vu = afterDelay vu.pc
  exit_delay : plan.ebit = true → pairEbit micro (nextPc vu.pc) = false
  branch_delay : plan.ebit = false → plan.branches = true →
    pairEbit micro (nextPc vu.pc) = true → pairEbit micro (successorPc semantics plan vu) = true

/-- The condition on a step; a pair in a delay slot is judged with the pair before it. -/
def RegularStep (delayed : Bool) (vu : Vu D) : Prop :=
  delayed = false → ∀ plan, decodePair upperTable micro vu.pc = some plan →
    Regular semantics micro vu plan

end Run

end VitaSX2.Vu1
