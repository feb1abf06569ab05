/-
The edge-copy scheduler of the EE region allocator
(`BuildEdgeCopySchedule` in `VitaEeRegionAllocation.cpp`).

The SSA transfers of one internal CFG edge form a parallel copy.  The scheduler
turns it into a sequence of destructive copies: a move whose target is the
source of no pending move goes first, and when there is none the source of the
first pending move is saved in a scratch slot of the spill frame.

The loop over the pending moves is given a number of iterations (`fuel`); the
result is `none` when they are used up.
-/
import VitaSX2.Region.EdgeCopy.Location

namespace VitaSX2.RegionAllocation

inductive EdgeCopyStepKind
  | copy
  | saveScratch
deriving DecidableEq, Repr

structure EdgeCopyStep where
  kind : EdgeCopyStepKind := .copy
  sourceBlock : ℕ := invalidBlock
  targetBlock : ℕ := invalidBlock
  edgeIndex : ℕ := 0
  source : ValueId := invalidValue
  targetParameter : ValueId := invalidValue
  sourceLocation : Location := {}
  targetLocation : Location := {}
  wordMask : ℕ := 0
deriving DecidableEq, Repr

inductive BuildFailure
  | none
  | invalidExecutionPlan
  | invalidValue
  | edgeCopyConflict
  | spillCapacity
deriving DecidableEq, Repr

structure EdgeCopyScheduleResult where
  steps : List EdgeCopyStep := []
  failure : BuildFailure := .none
  block : ℕ := invalidBlock
  value : ValueId := invalidValue
  spillBytes : ℕ := 0
  scratchOffset : ℕ := 0
  scratchBytes : ℕ := 0
deriving DecidableEq, Repr

/-! ### The moves of one edge -/

def sameEdge (left right : EdgeMove) : Bool :=
  left.sourceBlock == right.sourceBlock && left.targetBlock == right.targetBlock &&
    left.edgeIndex == right.edgeIndex

def copyMask (move : EdgeMove) : ℕ :=
  if move.wordMask ≠ 0 then move.wordMask else normalizedWordMask move.targetLocation

/-- The checks made on a move when it is added to its group. -/
def validMove (move : EdgeMove) : Bool :=
  isMoveSource move.sourceLocation && isMoveTarget move.targetLocation &&
    move.targetLocation.words != 0 &&
    (normalizedWordMask move.targetLocation &&& copyMask move) == copyMask move &&
    (normalizedWordMask move.sourceLocation &&& copyMask move) == copyMask move &&
    countWords (copyMask move) ≤ move.targetLocation.words

def completeQCopy (move : EdgeMove) : Bool :=
  move.sourceLocation.kind == .neonQ && move.targetLocation.kind == .neonQ &&
    move.sourceLocation.words == 4 && move.targetLocation.words == 4 &&
    normalizedWordMask move.sourceLocation == 0x0f &&
    normalizedWordMask move.targetLocation == 0x0f && copyMask move == 0x0f

def markFragmentedQ (fragmentedQ : List ℕ) (location : Location) : List ℕ :=
  if location.kind = .neonQ ∧ location.index ∉ fragmentedQ then
    fragmentedQ ++ [location.index]
  else fragmentedQ

/-- The Neon registers used on the edge by a copy that is not a complete one. -/
def fragmentedQ (logicalGroup : List EdgeMove) : List ℕ :=
  logicalGroup.foldl (fun marked move =>
    if completeQCopy move then marked
    else markFragmentedQ (markFragmentedQ marked move.sourceLocation) move.targetLocation) []

def atomicQ (fragmented : List ℕ) (move : EdgeMove) : Bool :=
  completeQCopy move && move.sourceLocation.index ∉ fragmented &&
    move.targetLocation.index ∉ fragmented

def normalizedMove (move : EdgeMove) : EdgeMove :=
  { move with
    sourceLocation :=
      { move.sourceLocation with wordMask := normalizedWordMask move.sourceLocation }
    targetLocation :=
      { move.targetLocation with wordMask := normalizedWordMask move.targetLocation }
    wordMask := copyMask move }

def fragmentOf (move : EdgeMove) (word : ℕ) : EdgeMove :=
  { move with
    sourceLocation := componentLocation move.sourceLocation word
    targetLocation := componentLocation move.targetLocation word
    wordMask := 2 ^ word }

/-- The components of a value that a mask selects. -/
def maskWords (mask : ℕ) : List ℕ :=
  (List.range 4).filter (mask.testBit ·)

/-- A move as the scheduler handles it: whole when it is an atomic copy of a
Neon register, one fragment for each copied component otherwise. -/
def fragmentMove (fragmented : List ℕ) (move : EdgeMove) : Option (List EdgeMove) :=
  if atomicQ fragmented move then some [normalizedMove move]
  else
    let fragments := (maskWords (copyMask move)).map (fragmentOf move)
    if fragments.any fun fragment =>
        fragment.sourceLocation.kind == .none || fragment.targetLocation.kind == .none then none
    else some fragments

/-- The fragments of a group, or the first move that has none. -/
def fragmentGroup (fragmented : List ℕ) : List EdgeMove → Except EdgeMove (List EdgeMove)
  | [] => .ok []
  | move :: rest =>
    match fragmentMove fragmented move with
    | none => .error move
    | some fragments =>
      match fragmentGroup fragmented rest with
      | .error bad => .error bad
      | .ok group => .ok (fragments ++ group)

/-- The first move whose target collides with the target of an earlier one. -/
def targetCollision : List EdgeMove → Option EdgeMove
  | [] => none
  | left :: rest =>
    match rest.find? fun right =>
        locationsOverlap left.targetLocation right.targetLocation with
    | some right => some right
    | none => targetCollision rest

/-! ### The loop over the pending moves -/

structure PendingMove where
  move : EdgeMove
  source : Location
deriving DecidableEq, Repr

/-- The byte offset that stands for the scratch slot until it is allocated. -/
def scratchPlaceholder : ℕ := 2 ^ 16 - 1

/-- The moves of the group that are not already in place. -/
def movesToSchedule (group : List EdgeMove) : List EdgeMove :=
  group.filter fun move => !samePhysicalStorage move.sourceLocation move.targetLocation

def initialPending (group : List EdgeMove) : List PendingMove :=
  (movesToSchedule group).map fun move => ⟨move, move.sourceLocation⟩

/-- No pending move still reads the target of the candidate. -/
def isReady (pending : List PendingMove) (candidate : PendingMove) : Bool :=
  pending.all fun other => !locationsOverlap candidate.move.targetLocation other.source

def copyStep (identity : EdgeMove) (item : PendingMove) : EdgeCopyStep where
  kind := .copy
  sourceBlock := identity.sourceBlock
  targetBlock := identity.targetBlock
  edgeIndex := identity.edgeIndex
  source := item.move.source
  targetParameter := item.move.targetParameter
  sourceLocation := item.source
  targetLocation := item.move.targetLocation
  wordMask :=
    if item.move.wordMask ≠ 0 then item.move.wordMask
    else normalizedWordMask item.move.targetLocation

def placeholderFor (source : Location) : Location where
  kind := .spill
  index := scratchPlaceholder
  words := source.words
  wordMask := normalizedWordMask source

def saveScratchStep (identity : EdgeMove) (breaker : PendingMove) : EdgeCopyStep where
  kind := .saveScratch
  sourceBlock := identity.sourceBlock
  targetBlock := identity.targetBlock
  edgeIndex := identity.edgeIndex
  source := breaker.move.source
  targetParameter := invalidValue
  sourceLocation := breaker.source
  targetLocation := placeholderFor breaker.source
  wordMask := normalizedWordMask breaker.source

/-- Every pending move that reads the saved storage reads the scratch slot instead. -/
def redirectToScratch (saved : Location) (item : PendingMove) : PendingMove :=
  if samePhysicalStorage item.source saved then
    { item with
      source :=
        { placeholderFor saved with wordMask := normalizedWordMask item.move.sourceLocation } }
  else item

/-- What one turn of the loop does. -/
inductive DrainStep
  | finished
  | next (step : EdgeCopyStep) (pending : List PendingMove) (scratchBytes : ℕ)
  | conflict (value : ValueId)
deriving DecidableEq, Repr

def drainStep (identity : EdgeMove) (pending : List PendingMove) : DrainStep :=
  match pending with
  | [] => .finished
  | breaker :: _ =>
    match pending.find? (isReady pending) with
    | some item => .next (copyStep identity item) (pending.eraseP (isReady pending)) 0
    | none =>
      -- every pending move overwrites a source that is still needed
      if breaker.source.kind = .immediate ∨ breaker.source.kind = .none then
        .conflict breaker.move.source
      else
        let bytes := breaker.source.words * 4
        if bytes = 0 ∨ bytes > 16 then .conflict breaker.move.source
        else .next (saveScratchStep identity breaker)
          (pending.map (redirectToScratch breaker.source)) bytes

structure ScheduleState where
  steps : List EdgeCopyStep := []
  scratchBytes : ℕ := 0
deriving DecidableEq, Repr

/-- The `while` loop of the scheduler; a conflict carries the offending value. -/
def drain (identity : EdgeMove) :
    ℕ → List PendingMove → ScheduleState → Option (ScheduleState × Option ValueId)
  | 0, _, _ => none
  | fuel + 1, pending, state =>
    match drainStep identity pending with
    | .finished => some (state, none)
    | .conflict value => some (state, some value)
    | .next step pending' bytes =>
      drain identity fuel pending'
        { steps := state.steps ++ [step], scratchBytes := max state.scratchBytes bytes }

/-! ### All edges -/

def conflictAt (state : ScheduleState) (spillBytes block : ℕ) (value : ValueId) :
    EdgeCopyScheduleResult where
  steps := state.steps
  failure := .edgeCopyConflict
  block := block
  value := value
  spillBytes := spillBytes

/-- Schedule the group of moves of one edge. -/
def scheduleEdge (fuel spillBytes : ℕ) (identity : EdgeMove) (logicalGroup : List EdgeMove)
    (state : ScheduleState) : Option (Except EdgeCopyScheduleResult ScheduleState) :=
  match logicalGroup.find? fun move => !validMove move with
  | some move => some (.error (conflictAt state spillBytes move.sourceBlock move.source))
  | none =>
    match fragmentGroup (fragmentedQ logicalGroup) logicalGroup with
    | .error move => some (.error (conflictAt state spillBytes move.sourceBlock move.source))
    | .ok group =>
      match targetCollision group with
      | some right =>
        some (.error (conflictAt state spillBytes identity.sourceBlock right.targetParameter))
      | none =>
        match drain identity fuel (initialPending group) state with
        | none => none
        | some (state', some value) =>
          some (.error (conflictAt state' spillBytes identity.sourceBlock value))
        | some (state', none) => some (.ok state')

/-- The loop over the moves; `grouped` holds the moves whose edge is done. -/
def scheduleEdges (fuel spillBytes : ℕ) (grouped : List EdgeMove) :
    List EdgeMove → ScheduleState → Option (Except EdgeCopyScheduleResult ScheduleState)
  | [], state => some (.ok state)
  | identity :: rest, state =>
    if grouped.any (sameEdge identity) then scheduleEdges fuel spillBytes grouped rest state
    else
      match scheduleEdge fuel spillBytes identity
          ((identity :: rest).filter (sameEdge identity)) state with
      | none => none
      | some (.error result) => some (.error result)
      | some (.ok state') =>
        scheduleEdges fuel spillBytes (identity :: grouped) rest state'

/-- `AlignUp` on the powers of two it is called with. -/
def alignUp (value alignment : ℕ) : ℕ :=
  (value + alignment - 1) / alignment * alignment

def resolveScratch (scratchOffset : ℕ) (location : Location) : Location :=
  if location.kind = .spill ∧ location.index = scratchPlaceholder then
    { location with index := scratchOffset }
  else location

def resolveStep (scratchOffset : ℕ) (step : EdgeCopyStep) : EdgeCopyStep :=
  { step with
    sourceLocation := resolveScratch scratchOffset step.sourceLocation
    targetLocation := resolveScratch scratchOffset step.targetLocation }

/-- Allocate the scratch slot behind the spill frame and name it in the steps. -/
def allocateScratch (spillBytes maxSpillBytes : ℕ) (state : ScheduleState) :
    EdgeCopyScheduleResult :=
  if state.scratchBytes = 0 then { steps := state.steps, spillBytes := spillBytes }
  else
    let scratchOffset := alignUp spillBytes (min state.scratchBytes 16)
    if scratchOffset > maxSpillBytes ∨ state.scratchBytes > maxSpillBytes - scratchOffset ∨
        scratchOffset > 2 ^ 16 - 1 then
      { steps := state.steps, failure := .spillCapacity, spillBytes := spillBytes }
    else
      { steps := state.steps.map (resolveStep scratchOffset)
        spillBytes := scratchOffset + state.scratchBytes
        scratchOffset := scratchOffset
        scratchBytes := state.scratchBytes }

def buildEdgeCopySchedule (fuel : ℕ) (moves : List EdgeMove) (spillBytes maxSpillBytes : ℕ) :
    Option EdgeCopyScheduleResult :=
  if spillBytes > maxSpillBytes ∨ spillBytes > 2 ^ 16 - 1 then
    some { failure := .spillCapacity, spillBytes := spillBytes }
  else
    match scheduleEdges fuel spillBytes [] moves {} with
    | none => none
    | some (.error result) => some result
    | some (.ok state) => some (allocateScratch spillBytes maxSpillBytes state)

end VitaSX2.RegionAllocation
