/-
The basic blocks of a VU1 image (`ScanBlock`, `BuildBlocksForIndirectResolutions`).

A block runs from a leader to the next leader, or through the delay slot of its
branch or of its E-bit.  The leaders are split until a pass finds no new one, and
then all blocks are scanned once more with that set.
-/
import VitaSX2.Vu1.PairPlan
import Mathlib.Data.List.Sort

namespace VitaSX2.Vu1

/-- `ControlEdgeKind`. -/
inductive ControlEdgeKind where
  | fallthrough | branchTaken | branchNotTaken | resolvedIndirect | programExit | externalExit
deriving DecidableEq, Repr

/-- `ControlEdge`; the block is there when the edge has a target. -/
structure ControlEdge where
  kind : ControlEdgeKind
  targetPc : ℕ
  targetBlock : Option ℕ
deriving DecidableEq, Repr

/-- `ProgramPair`. -/
structure ProgramPair where
  plan : PairPlan
  delayedPair : Bool
deriving DecidableEq, Repr

/-- `BasicBlock`. -/
structure BasicBlock where
  startPc : ℕ
  pairs : List ProgramPair := []
  successors : List ControlEdge := []
  branchPc : ℕ := 0
  branchKind : LowerKind := .none
  hasBranch : Bool := false
  conditionalBranch : Bool := false
  indirectBranch : Bool := false
  branchInDelaySlot : Bool := false
  endsProgram : Bool := false
  resumePc : ℕ := 0
  hasResumePc : Bool := false
  hasExternalExit : Bool := false
deriving DecidableEq, Repr

/-- `PendingBlock`. -/
structure PendingBlock where
  block : BasicBlock
  targets : List (ControlEdgeKind × ℕ)
deriving DecidableEq, Repr

/-- `IndirectResolution`. -/
structure IndirectResolution where
  targets : List ℕ := []
  unresolved : Bool := false
deriving DecidableEq, Repr

/-- `IndirectResolutionMap`. -/
abbrev IndirectResolutionMap := ℕ → Option IndirectResolution

/-- `std::set::insert`. -/
def insertKey (keys : List ℕ) (key : ℕ) : List ℕ :=
  if key ∈ keys then keys else keys.orderedInsert (· ≤ ·) key

/-- The address of the next pair, in the wrapping micro memory. -/
def nextPc (pc : ℕ) : ℕ := (pc + pairBytes) % vu1ProgSize

/-- The address after the delay slot of a pair. -/
def afterDelay (pc : ℕ) : ℕ := (pc + 2 * pairBytes) % vu1ProgSize

/-- `BranchTarget`. -/
def branchTarget (pc : ℕ) (lower : BitVec 32) : ℕ :=
  (((pc + pairBytes : ℕ) + imm11 lower * pairBytes) % vu1ProgSize).toNat

section Scan

variable (upperTable : UpperTable) (micro : Micro)

/-- The edges of an indirect branch. -/
def indirectTargets : Option IndirectResolution → List (ControlEdgeKind × ℕ)
  | none => [(.externalExit, 0)]
  | some resolution =>
    resolution.targets.map (.resolvedIndirect, ·) ++
      if resolution.targets = [] ∨ resolution.unresolved then [(.externalExit, 0)] else []

/-- The edges of a pair with a branch or an E-bit. -/
def terminatorTargets (resolutions : IndirectResolutionMap) (plan : PairPlan) :
    List (ControlEdgeKind × ℕ) :=
  if plan.ebit then [(.programExit, 0)]
  else if isIndirectBranch plan.lowerKind then indirectTargets (resolutions plan.pc)
  else
    (.branchTaken, branchTarget plan.pc plan.lower) ::
      if isConditionalImmediateBranch plan.lowerKind then
        [(.branchNotTaken, afterDelay plan.pc)]
      else []

/-- The leaders that a pair with a branch or an E-bit discovers: every target but
that of the exits. -/
def discoveredTargets (targets : List (ControlEdgeKind × ℕ)) : List ℕ :=
  (targets.filter fun target => target.1 != .programExit && target.1 != .externalExit).map Prod.snd

/-- The end of `ScanBlock` at a pair with a branch or an E-bit. -/
def scanTerminator (startPc : ℕ) (resolutions : IndirectResolutionMap) (plan : PairPlan) :
    Option (PendingBlock × List ℕ) :=
  (decodePair upperTable micro (nextPc plan.pc)).map fun delay =>
    let targets := terminatorTargets resolutions plan
    ({ block :=
        { startPc
          pairs := [⟨plan, false⟩, ⟨delay, true⟩]
          branchPc := plan.pc
          branchKind := plan.lowerKind
          hasBranch := plan.branches
          conditionalBranch := plan.branches && isConditionalImmediateBranch plan.lowerKind
          indirectBranch := plan.branches && isIndirectBranch plan.lowerKind
          branchInDelaySlot := delay.branches
          endsProgram := plan.ebit
          resumePc := if plan.ebit then nextPc (nextPc plan.pc) else 0
          hasResumePc := plan.ebit
          hasExternalExit := plan.dflag || plan.tflag || (delay.dflag || delay.tflag) }
       targets },
     discoveredTargets targets)

/-- The loop of `ScanBlock`, from one pair on. -/
def scanFrom (startPc : ℕ) (leaders : List ℕ) (resolutions : IndirectResolutionMap) :
    ℕ → List ℕ → ℕ → Option (PendingBlock × List ℕ)
  | 0, _, _ => none
  | fuel + 1, localPcs, pc =>
    if pc ≠ startPc ∧ pc ∈ leaders then
      some (⟨{ startPc }, [(.fallthrough, pc)]⟩, [])
    else if pc ∈ localPcs then
      some (⟨{ startPc }, [(.fallthrough, pc)]⟩, [pc])
    else
      (decodePair upperTable micro pc).bind fun plan =>
        if plan.branches || plan.ebit then scanTerminator upperTable micro startPc resolutions plan
        else
          (scanFrom startPc leaders resolutions fuel (pc :: localPcs) (nextPc pc)).map
            fun (rest, discovered) =>
              ({ rest with
                  block :=
                    { rest.block with
                      pairs := ⟨plan, false⟩ :: rest.block.pairs
                      hasExternalExit := plan.dflag || plan.tflag || rest.block.hasExternalExit } },
                discovered)

/-- `ScanBlock`. -/
def scanBlock (leaders : List ℕ) (resolutions : IndirectResolutionMap) (startPc : ℕ) :
    Option (PendingBlock × List ℕ) :=
  scanFrom upperTable micro startPc leaders resolutions maxVu1Pairs [] startPc

/-! ### Leaders -/

/-- One leader of a split pass: the new leaders, and whether there are any. -/
def splitLeader (resolutions : IndirectResolutionMap) (state : List ℕ × Bool) (leader : ℕ) :
    Option (List ℕ × Bool) :=
  (scanBlock upperTable micro state.1 resolutions leader).map fun (_, discovered) =>
    (discovered.foldl insertKey state.1, state.2 || discovered.any (· ∉ state.1))

/-- The split passes, up to a bound on their number. -/
def splitLeaders (resolutions : IndirectResolutionMap) : ℕ → List ℕ → Option (List ℕ)
  | 0, _ => none
  | passes + 1, leaders =>
    (leaders.foldlM (splitLeader upperTable micro resolutions) (leaders, false)).bind
      fun (next, changed) => if changed then splitLeaders resolutions passes next else some next

/-- The last scan of a block, with the stable leaders. -/
def rebuildBlock (leaders : List ℕ) (resolutions : IndirectResolutionMap) (leader : ℕ) :
    Option PendingBlock :=
  (scanBlock upperTable micro leaders resolutions leader).bind fun (pending, discovered) =>
    if discovered.all (· ∈ leaders) then some pending else none

/-- The edge of a block to the block of its target. -/
def linkEdge (leaders : List ℕ) (target : ControlEdgeKind × ℕ) : Option ControlEdge :=
  if target.1 = .programExit ∨ target.1 = .externalExit then some ⟨target.1, target.2, none⟩
  else (leaders.findIdx? (· = target.2)).map fun index => ⟨target.1, target.2, some index⟩

/-- A block with its edges. -/
def linkBlock (leaders : List ℕ) (pending : PendingBlock) : Option BasicBlock :=
  (pending.targets.mapM (linkEdge leaders)).map fun successors => { pending.block with successors }

/-- `BuildBlocksForIndirectResolutions`. -/
def buildBlocksForIndirectResolutions (startPc : ℕ) (resolutions : IndirectResolutionMap) :
    Option (List BasicBlock) :=
  (splitLeaders upperTable micro resolutions maxVu1Pairs [startPc]).bind fun leaders =>
    (leaders.mapM (rebuildBlock upperTable micro leaders resolutions)).bind fun pending =>
      pending.mapM (linkBlock leaders)

end Scan

end VitaSX2.Vu1
