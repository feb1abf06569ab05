/-
Register affinities of the phi webs (`RegionAllocation::Build`).

A propagated slot of an internal edge ties the interval of its source to the one of
its target.  The ties make webs, and inside a web the intervals are joined into
classes along the ties, the hot ones first, as long as no two members of a class are
alive together.  A class prefers the first window of registers that no other class
prefers at the same time.  A class without a window goes to the frame as one spill
group.
-/
import VitaSX2.Region.Locations.Preset

namespace VitaSX2.RegionAllocation

open RegionIR (Program Block DirectCallContract StateField)

/-- A tie between the intervals at the two ends of a propagated slot. -/
structure PhiAffinity where
  source : ℕ
  target : ℕ
  seamPriority : ℕ
  weight : ℕ
deriving DecidableEq, Repr

def isLowPrefixMask (mask : ℕ) : Bool :=
  mask != 0 && mask &&& ((mask + 1) % 2 ^ 8) == 0

/-- Both ends of a tie can share a register. -/
def Representation.compatible (source target : Representation) : Bool :=
  (source.kind == .coreWords || source.kind == .vfpWord || source.kind == .neonQ) &&
    (target == source ||
      (source.kind == .coreWords && target.kind == .coreWords && isLowPrefixMask source.wordMask &&
        isLowPrefixMask target.wordMask && source.wordMask &&& target.wordMask == target.wordMask))

/-- Backedges come before other edges, the seams of direct calls before backedges. -/
def seamPriority (calls : List DirectCallContract) (sourceBlock targetBlock : ℕ)
    (source target : Block) : ℕ :=
  calls.foldl (fun priority call =>
    let priority :=
      if source.terminator.branchPc = call.callPc ∧ target.pc = call.calleePc then max priority 2
      else priority
    if source.terminator.branchPc = call.returnJumpPc ∧ target.pc = call.returnPc then
      max priority 3
    else priority) (if targetBlock ≤ sourceBlock then 1 else 0)

/-- The affinity classes: the location that an interval prefers, and the spill group
of its class. -/
structure AffinityPlan where
  preference : List Location
  spillAffinity : List (Option ℕ)

/-- The registers of one kind, and the words that a location in one of them has. -/
structure RegisterBank where
  kind : LocationKind
  count : ℕ
  words : ℕ

namespace LocationInput

variable (input : LocationInput) (intervals : List Interval)

/-! ### Ties -/

/-- The tie of one slot of an edge. -/
def phiAffinity (edge : RegionEdge) (field : StateField) : Option PhiAffinity := do
  let targetBlock ← edge.transfer.targetBlock
  let target ← input.program.blocks[targetBlock]?
  let source ← input.program.blocks[edge.sourceBlock]?
  guard (edge.propagated field)
  let sourceValue := edge.transfer.state field
  guard (sourceValue < input.program.valueCount)
  let sourceRoot := input.aliasRoot sourceValue
  let parameter := target.parameters field
  let sourceIndex ← intervalFor intervals sourceRoot
  let targetIndex ← intervalFor intervals parameter
  let sourceInterval ← intervals[sourceIndex]?
  let targetInterval ← intervals[targetIndex]?
  guard (sourceInterval.location.kind ≠ .canonicalState ∧
    targetInterval.location.kind ≠ .canonicalState)
  guard ((input.representations sourceRoot).compatible (input.representations parameter))
  return ⟨sourceIndex, targetIndex,
    seamPriority input.program.directCalls edge.sourceBlock targetBlock source target,
    sourceInterval.uses + targetInterval.uses⟩

/-- The ties of all edges, from the second slot on. -/
def phiAffinities : List PhiAffinity :=
  input.edges.flatMap fun edge =>
    (StateField.all.drop 1).filterMap (input.phiAffinity intervals edge)

/-- `join_phi`, on the table of the roots of `phi_parent`. -/
def joinPhi (roots : List ℕ) (affinity : PhiAffinity) : List ℕ :=
  let left := roots.getD affinity.source 0
  let right := roots.getD affinity.target 0
  roots.map fun root => if root = right then left else root

def phiRoots : List ℕ :=
  (input.phiAffinities intervals).foldl joinPhi (List.range intervals.length)

/-! ### Webs and classes -/

def groupWeight (intervals : List Interval) (group : List ℕ) : ℕ :=
  (group.map fun index => (intervals.getD index {}).uses).sum

/-- The larger group first, then the one that is used more. -/
def largerGroup (intervals : List Interval) (left right : List ℕ) : Bool :=
  if left.length ≠ right.length then left.length > right.length
  else groupWeight intervals left > groupWeight intervals right

/-- The webs in the order in which they are colored. -/
def phiWebs : List (List ℕ) :=
  let roots := input.phiRoots intervals
  input.sorting.sort (largerGroup intervals) ((List.range intervals.length).map fun root =>
    (List.range intervals.length).filter fun index => roots.getD index 0 == root)

def hotterAffinity (left right : PhiAffinity) : Bool :=
  if left.seamPriority ≠ right.seamPriority then left.seamPriority > right.seamPriority
  else if left.weight ≠ right.weight then left.weight > right.weight
  else if left.source ≠ right.source then left.source < right.source
  else left.target < right.target

/-- The ties of one web, the hottest first. -/
def orderedAffinities (web : List ℕ) : List PhiAffinity :=
  let roots := input.phiRoots intervals
  input.sorting.sort hotterAffinity ((input.phiAffinities intervals).filter fun affinity =>
    roots.getD affinity.source 0 == roots.getD (web.headD 0) 0)

/-- `class_for_interval`: the class that has an interval as its member. -/
def classFor (classes : List (List ℕ)) (index : ℕ) : Option ℕ :=
  classes.findIdx? (·.contains index)

/-- A member of the one class is alive together with a member of the other. -/
def groupsMeet (intervals : List Interval) (left right : List ℕ) : Bool :=
  left.any fun i => right.any fun j =>
    (intervals.getD i {}).overlaps (intervals.getD j {})

/-- Join the classes at the two ends of a tie. -/
def joinClasses (intervals : List Interval) (classes : List (List ℕ)) (affinity : PhiAffinity) :
    List (List ℕ) :=
  match classFor classes affinity.source, classFor classes affinity.target with
  | some source, some target =>
    if source = target ∨
        groupsMeet intervals (classes.getD source []) (classes.getD target []) then classes
    else (classes.set source (classes.getD source [] ++ classes.getD target [])).set target []
  | _, _ => classes

/-- The classes of a web in the order in which they are colored. -/
def affinityClasses (web : List ℕ) : List (List ℕ) :=
  input.sorting.sort (largerGroup intervals)
    (((input.orderedAffinities intervals web).foldl (joinClasses intervals)
      (web.map fun index => [index])).filter fun group => !group.isEmpty)

/-! ### Coloring -/

def representationOf (index : ℕ) : Representation :=
  input.representations (intervals.getD index {}).value

/-- The registers for a representation, which a value that is no register does not have. -/
def registerBank (representation : Representation) : Option RegisterBank :=
  match representation.kind with
  | .coreWords =>
    some ⟨.core, input.allocatableCoreRegisterWords, representation.words⟩
  | .vfpWord => some ⟨.vfpS, input.allocatableVfpSRegisters, 1⟩
  | .neonQ => some ⟨.neonQ, input.neonQRegisters, 4⟩
  | .none | .immediate | .fixedCycle => none

/-- The words that a member of a class occupies. -/
def memberWords (bank : RegisterBank) (representation : Representation) : ℕ :=
  if representation.kind = .coreWords then representation.words else bank.words

/-- The registers that every member of a web fits into. -/
def webWidth (representation : Representation) (web : List ℕ) : ℕ :=
  if representation.kind = .coreWords then
    web.foldl (fun width index => max width (input.representationOf intervals index).words)
      representation.words
  else 1

def webCompatible (representation : Representation) (web : List ℕ) : Bool :=
  web.all fun index =>
    let member := input.representationOf intervals index
    if representation.kind = .coreWords then
      member.kind == .coreWords && isLowPrefixMask member.wordMask
    else member == representation

/-- The location of an interval in the window that begins at the given register. -/
def windowLocation (bank : RegisterBank) (first index : ℕ) : Location :=
  let member := input.representationOf intervals index
  ⟨bank.kind, first, memberWords bank member, member.wordMask⟩

/-- No member of the class meets an interval that prefers a register of the window. -/
def windowFree (bank : RegisterBank) (plan : AffinityPlan) (group : List ℕ) (first : ℕ) : Bool :=
  group.all fun index =>
    (intervals.zip plan.preference).all fun (other, preference) =>
      preference.kind == .none || !other.overlaps (intervals.getD index {}) ||
        !locationsOverlap (input.windowLocation intervals bank first index) preference

/-- The first free window of a class of two or more members. -/
def colorClass (bank : RegisterBank) (width : ℕ) (plan : AffinityPlan) (group : List ℕ) :
    AffinityPlan :=
  if group.length < 2 then plan
  else
    let plan := { plan with
      spillAffinity := group.foldl (fun table index => table.set index group.head?)
        plan.spillAffinity }
    match (List.range (bank.count + 1 - width)).find?
        (input.windowFree intervals bank plan group) with
    | none => plan
    | some first =>
      { plan with
        preference := group.foldl (fun table index =>
          table.set index (input.windowLocation intervals bank first index)) plan.preference }

/-- The classes of one web. -/
def colorWeb (plan : AffinityPlan) (web : List ℕ) : AffinityPlan :=
  let representation := input.representationOf intervals (web.headD 0)
  match input.registerBank representation with
  | none => plan
  | some bank =>
    let width := input.webWidth intervals representation web
    if web.length < 2 ∨ width = 0 ∨ bank.count < width ∨
        ¬ input.webCompatible intervals representation web then plan
    else (input.affinityClasses intervals web).foldl (input.colorClass intervals bank width) plan

def affinityPlan : AffinityPlan :=
  (input.phiWebs intervals).foldl (input.colorWeb intervals)
    ⟨List.replicate intervals.length {}, List.replicate intervals.length none⟩

/-- The members of a class without registers go to the frame. -/
def spillClass (plan : AffinityPlan) (assignment : Assignment) (index : ℕ) : Assignment :=
  assignment.spillAffinity index (plan.spillAffinity.getD index none)
    (plan.preference.getD index {}).kind (input.representationOf intervals index)

/-- The locations with which the scan begins. -/
def spillUncolored (plan : AffinityPlan) : Assignment :=
  (List.range intervals.length).foldl (input.spillClass intervals plan)
    ⟨intervals, List.replicate intervals.length none⟩

end LocationInput

end VitaSX2.RegionAllocation
