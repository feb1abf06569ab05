/-
The linear scan over the intervals of each block, and the coalescing of block
parameters behind it (`RegionAllocation::Build`).

The scan gives registers to the intervals that still have no location, in the order
in which they begin.  Registers that an overlapping interval prefers are taken.
When no register is free, an interval that lives longer may be evicted to the frame.
Afterwards a block parameter takes over the register that all of its incoming edges
supply, unless another value of the block is in the way.
-/
import VitaSX2.Region.Locations.Affinity

namespace VitaSX2.RegionAllocation

open RegionIR (StateField)

/-- The locations so far, and the intervals of the block that hold registers. -/
structure ScanState where
  assignment : Assignment
  activeCore : List ℕ := []
  activeVfp : List ℕ := []
  activeNeon : List ℕ := []

/-- A window of core registers whose holders can be evicted. -/
structure Eviction where
  first : ℕ
  victims : List ℕ
  uses : ℕ
  latestEnd : ℕ

/-- The interval of an index. -/
def Assignment.at (assignment : Assignment) (index : ℕ) : Interval :=
  assignment.intervals.getD index {}

/-- The active intervals that have not ended. -/
def Assignment.expire (assignment : Assignment) (start : ℕ) (active : List ℕ) : List ℕ :=
  active.filter fun candidate => ¬ (assignment.at candidate).stop ≤ start

namespace LocationInput

variable (input : LocationInput) (plan : AffinityPlan)

/-- `allocate_spill`. -/
def spillInterval (blockIndex : ℕ) (assignment : Assignment) (index : ℕ) :
    Except BuildError Assignment :=
  match assignment.allocateSpill index (input.representations (assignment.at index).value) with
  | none => .error (.spillCapacity, blockIndex, (assignment.at index).value)
  | some assignment => .ok assignment

/-- The locations of one kind that other intervals prefer while this one is alive. -/
def reservedLocations (plan : AffinityPlan) (assignment : Assignment) (kind : LocationKind)
    (index : ℕ) : List Location :=
  ((assignment.intervals.zip plan.preference).zipIdx.filter fun ((other, preference), otherIndex) =>
    otherIndex != index && preference.kind == kind &&
      other.overlaps (assignment.at index)).map fun entry => entry.1.2

/-- The first free register, from the preferred one on if that is free. -/
def firstFree (preference : Location) (kind : LocationKind) (count : ℕ) (used : ℕ → Bool) :
    Option ℕ :=
  let first :=
    if preference.kind = kind ∧ preference.index < count ∧ ¬ used preference.index then
      preference.index
    else 0
  (List.range' first (count - first)).find? fun register => !used register

/-- Give a VFP register to an interval. -/
def scanVfp (blockIndex : ℕ) (state : ScanState) (index : ℕ) : Except BuildError ScanState :=
  let assignment := state.assignment
  let interval := assignment.at index
  let representation := input.representations interval.value
  let active := assignment.expire interval.start state.activeVfp
  let used := fun s => active.any (fun candidate => (assignment.at candidate).location.index == s) ||
    (reservedLocations plan assignment .vfpS index).any (·.index == s)
  match firstFree (plan.preference.getD index {}) .vfpS input.allocatableVfpSRegisters used with
  | some s =>
    .ok { state with
      assignment := assignment.setLocation index ⟨.vfpS, s, 1, representation.wordMask⟩
      activeVfp := active ++ [index] }
  | none =>
    (input.spillInterval blockIndex assignment index).map fun assignment =>
      { state with assignment := assignment, activeVfp := active }

/-- The active vector that lives the longest beyond an interval. -/
def neonVictim (plan : AffinityPlan) (assignment : Assignment) (active : List ℕ) (index : ℕ) :
    Option ℕ :=
  let preference := plan.preference.getD index {}
  active.foldl (fun victim candidate =>
    if (plan.preference.getD candidate {}).kind ≠ .none ∨
        (assignment.at candidate).stop ≤ (assignment.at index).stop ∨
        (preference.kind = .neonQ ∧
          (assignment.at candidate).location.index ≠ preference.index) then victim
    else
      match victim with
      | none => some candidate
      | some other =>
        if (assignment.at candidate).stop > (assignment.at other).stop then some candidate
        else some other) none

/-- Give a vector register to an interval. -/
def scanNeon (blockIndex : ℕ) (state : ScanState) (index : ℕ) : Except BuildError ScanState :=
  let assignment := state.assignment
  let interval := assignment.at index
  let representation := input.representations interval.value
  let active := assignment.expire interval.start state.activeNeon
  let used := fun q => active.any (fun candidate => (assignment.at candidate).location.index == q) ||
    (reservedLocations plan assignment .neonQ index).any (·.index == q)
  match firstFree (plan.preference.getD index {}) .neonQ input.neonQRegisters used with
  | some q =>
    .ok { state with
      assignment := assignment.setLocation index ⟨.neonQ, q, 4, representation.wordMask⟩
      activeNeon := active ++ [index] }
  | none =>
    match neonVictim plan assignment active index with
    | some victim =>
      let q := (assignment.at victim).location.index
      (input.spillInterval blockIndex assignment victim).map fun assignment =>
        { state with
          assignment := assignment.setLocation index ⟨.neonQ, q, 4, representation.wordMask⟩
          activeNeon := active.filter (· != victim) ++ [index] }
    | none =>
      (input.spillInterval blockIndex assignment index).map fun assignment =>
        { state with assignment := assignment, activeNeon := active }

/-- The windows whose holders may be evicted for an interval that ends earlier; the
least used one wins, and among these the one that is held the longest. -/
def bestEviction (assignment : Assignment) (active : List ℕ) (words stop : ℕ) : Option Eviction :=
  (List.range (input.allocatableCoreRegisterWords + 1 - words)).foldl (fun best first =>
    let victims := active.filter fun candidate =>
      rangesMeet first words (assignment.at candidate).location.index
        (assignment.at candidate).location.words
    let candidate : Eviction :=
      ⟨first, victims, (victims.map fun victim => (assignment.at victim).uses).sum,
        victims.foldl (fun latest victim => max latest (assignment.at victim).stop) 0⟩
    if victims = [] ∨ candidate.latestEnd ≤ stop then best
    else
      match best with
      | none => some candidate
      | some other =>
        if candidate.uses < other.uses ∨
            (candidate.uses = other.uses ∧ candidate.latestEnd > other.latestEnd) then some candidate
        else some other) none

/-- Give core registers to an interval. -/
def scanCore (blockIndex : ℕ) (state : ScanState) (index : ℕ) : Except BuildError ScanState :=
  let assignment := state.assignment
  let interval := assignment.at index
  let representation := input.representations interval.value
  let words := representation.words
  let active := assignment.expire interval.start state.activeCore
  let taken := active.map (fun candidate => (assignment.at candidate).location) ++
    reservedLocations plan assignment .core index
  let free := fun first =>
    first + words ≤ input.allocatableCoreRegisterWords &&
      (List.range words).all fun word =>
        !taken.any fun location => rangesMeet (first + word) 1 location.index location.words
  let preference := plan.preference.getD index {}
  let first :=
    if preference.kind = .core ∧ preference.words = words ∧ free preference.index then preference.index
    else 0
  let place := fun (assignment : Assignment) first =>
    assignment.setLocation index ⟨.core, first, words, representation.wordMask⟩
  match (List.range' first (input.allocatableCoreRegisterWords + 1 - words - first)).find? free with
  | some first =>
    .ok { state with assignment := place assignment first, activeCore := active ++ [index] }
  | none =>
    match input.bestEviction assignment active words interval.stop with
    | some best =>
      (best.victims.foldlM (input.spillInterval blockIndex) assignment).map fun assignment =>
        { state with
          assignment := place assignment best.first
          activeCore := active.filter (!best.victims.contains ·) ++ [index] }
    | none =>
      (input.spillInterval blockIndex assignment index).map fun assignment =>
        { state with assignment := assignment, activeCore := active }

/-- Give a register, or a place in the frame, to an interval. -/
def scanInterval (blockIndex : ℕ) (state : ScanState) (index : ℕ) : Except BuildError ScanState :=
  match (input.representations (state.assignment.at index).value).kind with
  | .vfpWord => input.scanVfp plan blockIndex state index
  | .neonQ => input.scanNeon plan blockIndex state index
  | .coreWords => input.scanCore plan blockIndex state index
  | _ =>
    (input.spillInterval blockIndex state.assignment index).map fun assignment =>
      { state with assignment := assignment }

def beginsBefore (left right : Interval) : Bool :=
  if left.start ≠ right.start then left.start < right.start else left.stop > right.stop

/-- The intervals of a block that have no location, in the order of the scan. -/
def scanOrder (assignment : Assignment) (blockIndex : ℕ) : List ℕ :=
  input.sorting.sort (fun left right => beginsBefore (assignment.at left) (assignment.at right))
    ((List.range assignment.intervals.length).filter fun index =>
      (assignment.at index).block == blockIndex && (assignment.at index).location.kind == .none)

def scanBlock (assignment : Assignment) (blockIndex : ℕ) : Except BuildError Assignment :=
  ((input.scanOrder assignment blockIndex).foldlM (input.scanInterval plan blockIndex)
    { assignment := assignment }).map ScanState.assignment

/-- The linear scan, block by block. -/
def linearScan (assignment : Assignment) : Except BuildError Assignment :=
  (List.range input.program.blocks.length).foldlM (input.scanBlock plan) assignment

/-! ### Coalescing block parameters -/

/-- The locations that the incoming edges supply for a slot. -/
def suppliedLocations (intervals : List Interval) (targetBlock : ℕ) (field : StateField) :
    List (Option Location) :=
  (input.edges.filter fun edge =>
    edge.transfer.targetBlock == some targetBlock && edge.propagated field).map fun edge => do
      let source := edge.transfer.state field
      guard (source < input.program.valueCount)
      let index ← intervalFor intervals (input.aliasRoot source)
      let interval ← intervals[index]?
      guard (interval.location.kind ≠ .immediate ∧ interval.location.kind ≠ .none)
      return interval.location

/-- The location on which all incoming edges agree. -/
def unanimousLocation : List (Option Location) → Option Location
  | some candidate :: rest => if rest.all (· == some candidate) then some candidate else none
  | _ => none

/-- The parameter of a slot, and the register that it takes over. -/
def coalescedParameter (intervals : List Interval) (step : ℕ × StateField) :
    Option (ℕ × Location) := do
  let block ← input.program.blocks[step.1]?
  let target ← intervalFor intervals (block.parameters step.2)
  let interval ← intervals[target]?
  let candidate ← unanimousLocation (input.suppliedLocations intervals step.1 step.2)
  guard ((candidate.kind = .core ∨ candidate.kind = .neonQ) ∧
    (candidate.kind = interval.location.kind ∨ interval.location.kind = .spill) ∧
    candidate.words = interval.location.words ∧ candidate.wordMask = interval.location.wordMask)
  guard (¬ intervals.zipIdx.any fun (other, index) =>
    index != target && other.block == step.1 &&
      interval.start < other.stop && other.start < interval.stop &&
      locationsOverlap candidate other.location)
  return (target, candidate)

def coalesceSlot (assignment : Assignment) (step : ℕ × StateField) : Assignment :=
  match input.coalescedParameter assignment.intervals step with
  | none => assignment
  | some (target, candidate) => assignment.setLocation target candidate

/-- The slots of all blocks. -/
def coalesceSteps : List (ℕ × StateField) :=
  (List.range input.program.blocks.length).product StateField.all

def coalesce (assignment : Assignment) : Assignment :=
  input.coalesceSteps.foldl input.coalesceSlot assignment

end LocationInput

end VitaSX2.RegionAllocation
