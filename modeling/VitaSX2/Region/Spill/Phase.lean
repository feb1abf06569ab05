/-
The spill phase of the EE region allocator (the end of `RegionAllocation::Build`
in `VitaEeRegionAllocation.cpp`).

Intervals that live in the private frame come in spill groups.  The phase joins
the groups at the two ends of an internal edge when their members do not
interfere, makes one spill class of every group, and places the classes in the
frame one after the other, the larger ones first, each at the first aligned offset
where it overlaps no interfering class that has been placed.

Word counts are bytes of the source, and an offset that is searched stays below
the ends of the placed classes, so no sum of the phase leaves its 32 bits.
-/
import VitaSX2.Lib.FirstFit
import VitaSX2.Lib.Grouping
import VitaSX2.Lib.Settle
import VitaSX2.Region.EdgeCopy.Schedule
import Mathlib.Data.List.Sort

namespace VitaSX2.RegionAllocation

open Grouping Tiling

/-- The lifetime of a value in one block, from `begin` up to `end`, the number of its
uses, and its location. -/
structure Interval where
  value : ValueId := invalidValue
  block : ℕ := invalidBlock
  start : ℕ := 0
  stop : ℕ := 0
  uses : ℕ := 0
  location : Location := {}
deriving DecidableEq, Repr

/-- Two lifetimes of one block meet. -/
def Interval.overlaps (a b : Interval) : Bool :=
  a.block == b.block && a.start < b.stop && b.start < a.stop

/-- `EDGE_STATE_SLOTS`: the slots of a state map and its memory effect. -/
def edgeStateSlots : ℕ := 153 + 1

/-- An internal CFG edge: the block that its transfer enters, the values of its
state map by slot, and the slots that are propagated. -/
structure InternalEdge where
  targetBlock : Option ℕ
  state : List ValueId
  propagated : List ℕ

/-- What the spill phase reads. -/
structure SpillInput where
  intervals : List Interval
  /-- The spill group of each interval, `SIZE_MAX` being none. -/
  spillGroup : List (Option ℕ)
  edges : List InternalEdge
  valueCount : ℕ
  /-- The state parameters of each block, by slot. -/
  blockParameters : List (List ValueId)
  aliasRoot : ValueId → ValueId
  intervalForValue : List (Option ℕ)
  maxSpillBytes : ℕ

namespace SpillInput

variable (input : SpillInput)

/-- The index of the interval of a value. -/
def intervalFor (value : ValueId) : Option ℕ :=
  input.intervalForValue.getD value none

/-! ### Joining groups along the edges -/

/-- The two intervals that a slot of an edge connects, if both live in the frame
with one representation. -/
def spillPair (edge : InternalEdge) (slot : ℕ) : Option (ℕ × ℕ) := do
  let targetBlock ← edge.targetBlock
  let parameters ← input.blockParameters[targetBlock]?
  guard (edge.propagated.contains slot)
  let sourceValue := edge.state.getD slot invalidValue
  let sourceRoot :=
    if sourceValue < input.valueCount then input.aliasRoot sourceValue else invalidValue
  let source ← input.intervalFor sourceRoot
  let destination ← input.intervalFor (parameters.getD slot invalidValue)
  let sourceInterval ← input.intervals[source]?
  let destinationInterval ← input.intervals[destination]?
  guard (source ≠ destination ∧ sourceInterval.location.kind = .spill ∧
    destinationInterval.location.kind = .spill ∧
    sourceInterval.location.words = destinationInterval.location.words ∧
    normalizedWordMask sourceInterval.location = normalizedWordMask destinationInterval.location)
  return (source, destination)

/-- A member of the first group meets a member of the second one. -/
def groupsInterfere (groups : List (Option ℕ)) (sourceGroup destinationGroup : ℕ) : Bool :=
  input.intervals.zipIdx.any fun (a, left) =>
    groupAt groups left == some sourceGroup && a.location.kind == .spill &&
      input.intervals.zipIdx.any fun (b, right) =>
        groupAt groups right == some destinationGroup && b.location.kind == .spill && a.overlaps b

/-- Join the groups of the two intervals that a slot of an edge connects. -/
def mergeSlot (t : List (Option ℕ) × Bool) (candidate : InternalEdge × ℕ) :
    List (Option ℕ) × Bool :=
  match input.spillPair candidate.1 candidate.2 with
  | none => t
  | some (source, destination) =>
    match groupAt t.1 source, groupAt t.1 destination with
    | some sourceGroup, some destinationGroup =>
      if sourceGroup = destinationGroup ∨ input.groupsInterfere t.1 sourceGroup destinationGroup
      then t
      else (join sourceGroup destinationGroup t.1, true)
    | _, _ => t

/-- One pass over the slots of all edges, from the second slot on. -/
def mergePass (groups : List (Option ℕ)) : List (Option ℕ) × Bool :=
  (input.edges.product (List.range' 1 (edgeStateSlots - 1))).foldl input.mergeSlot (groups, false)

end SpillInput

/-! ### Spill classes -/

structure SpillClass where
  id : ℕ
  members : List ℕ
  bytes : ℕ := 0
  offset : ℕ := 0
deriving DecidableEq, Repr

/-- The class of an interval: its group, or its own index. -/
def spillClassOf (groups : List (Option ℕ)) (index : ℕ) : ℕ :=
  (groupAt groups index).getD index

/-- Add a member to the class of the given id, which is created if it is new. -/
def addMember (group index bytes : ℕ) : List SpillClass → List SpillClass
  | [] => [{ id := group, members := [index], bytes := max 0 bytes }]
  | candidate :: classes =>
    if candidate.id = group then
      { candidate with
        members := candidate.members ++ [index]
        bytes := max candidate.bytes bytes } :: classes
    else candidate :: addMember group index bytes classes

def spillClasses (intervals : List Interval) (groups : List (Option ℕ)) : List SpillClass :=
  intervals.zipIdx.foldl (fun classes (interval, index) =>
    if interval.location.kind = .spill then
      addMember (spillClassOf groups index) index (interval.location.words * 4) classes
    else classes) []

/-- The order in which classes are placed. -/
def placedBefore (left right : SpillClass) : Prop :=
  if left.bytes ≠ right.bytes then left.bytes > right.bytes else left.id < right.id

instance : DecidableRel placedBefore := fun _ _ => inferInstanceAs (Decidable (ite ..))

/-! ### Placing the classes -/

/-- `AlignUp`, on words. -/
def alignUpWord (value alignment : ℕ) : ℕ :=
  ((BitVec.ofNat 32 value + BitVec.ofNat 32 alignment - 1#32) &&&
    ~~~ (BitVec.ofNat 32 alignment - 1#32)).toNat

def classesInterfere (intervals : List Interval) (left right : SpillClass) : Bool :=
  left.members.any fun leftIndex => right.members.any fun rightIndex =>
    match intervals[leftIndex]?, intervals[rightIndex]? with
    | some a, some b => a.overlaps b
    | _, _ => false

/-- The bytes of a class in the frame. -/
def SpillClass.range (spillClass : SpillClass) : ℕ × ℕ :=
  (spillClass.offset, spillClass.bytes)

def Interval.setOffset (offset : ℕ) (interval : Interval) : Interval :=
  { interval with location := { interval.location with index := offset % 2 ^ 16 } }

/-- What has been placed, the intervals with their offsets, and the bytes of the
frame that are in use. -/
structure SpillFrame where
  placed : List SpillClass := []
  intervals : List Interval
  spillBytes : ℕ := 0

/-- A failed build: what failed, and the block and the value it failed at. -/
abbrev BuildError := BuildFailure × ℕ × ValueId

/-- The first offset where the class overlaps no interfering class. -/
def findOffset (fuel : ℕ) (frame : SpillFrame) (current : SpillClass) : Option ℕ :=
  FirstFit.search (alignUpWord · (min current.bytes 16)) current.bytes
    ((frame.placed.filter (classesInterfere frame.intervals current)).map SpillClass.range) fuel 0

/-- Place one class. -/
def placeClass (fuel maxSpillBytes : ℕ) (frame : SpillFrame) (current : SpillClass) :
    Option (Except BuildError SpillFrame) :=
  (findOffset fuel frame current).map fun offset =>
    if offset > maxSpillBytes ∨ current.bytes > maxSpillBytes - offset ∨ offset > 2 ^ 16 - 1 then
      let failed := (current.members.head?.bind (frame.intervals[·]?)).getD {}
      .error (.spillCapacity, failed.block, failed.value)
    else
      .ok
        { placed := frame.placed ++ [{ current with offset := offset }]
          intervals := current.members.foldl (fun intervals member =>
            intervals.modify member (Interval.setOffset offset)) frame.intervals
          spillBytes := max frame.spillBytes (offset + current.bytes) }

def placeClasses (fuel maxSpillBytes : ℕ) :
    List SpillClass → SpillFrame → Option (Except BuildError SpillFrame)
  | [], frame => some (.ok frame)
  | current :: classes, frame =>
    match placeClass fuel maxSpillBytes frame current with
    | none => none
    | some (.error failure) => some (.error failure)
    | some (.ok frame) => placeClasses fuel maxSpillBytes classes frame

/-- The outcome of the phase. -/
structure SpillPlan where
  intervals : List Interval
  spillGroup : List (Option ℕ)
  spillBytes : ℕ

/-- The spill phase, with a bound on the passes of each of its two loops. -/
def spillPhase (fuel : ℕ) (input : SpillInput) : Option (Except BuildError SpillPlan) :=
  (Settle.settle input.mergePass fuel input.spillGroup).bind fun groups =>
    let classes := (spillClasses input.intervals groups).insertionSort placedBefore
    (placeClasses fuel input.maxSpillBytes classes { intervals := input.intervals }).map fun result =>
      result.map fun frame => ⟨frame.intervals, groups, frame.spillBytes⟩

end VitaSX2.RegionAllocation
