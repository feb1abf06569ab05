/-
From the preset locations to the final plan (`RegionAllocation::Build`).

The passes that assign locations hand over to the spill phase, and the plan that
comes out is checked: every location fits its bank, and no two values that are alive
together overlap.  Neither the spill phase nor the check moves an interval that is
not in the frame.
-/
import VitaSX2.Region.Locations.ScanMoves
import VitaSX2.Region.Spill.Place

namespace VitaSX2.RegionAllocation

open RegionIR (StateField)

namespace LocationInput

variable (input : LocationInput)

/-- The locations after the scan. -/
def scanned : Except BuildError Assignment := do
  let intervals ← input.presetIntervals
  let plan := input.affinityPlan intervals
  input.linearScan plan (input.spillUncolored intervals plan)

/-- The locations before the spill phase. -/
def assignLocations : Except BuildError Assignment :=
  input.scanned.map input.coalesce

/-- What the spill phase reads. -/
def spillInput (assignment : Assignment) : SpillInput where
  intervals := assignment.intervals
  spillGroup := assignment.spillGroup
  edges := input.edges.map fun edge =>
    { targetBlock := edge.transfer.targetBlock
      state := StateField.all.map edge.transfer.state
      propagated := (StateField.all.zipIdx.filter fun entry => edge.propagated entry.1).map Prod.snd }
  valueCount := input.program.valueCount
  blockParameters := input.program.blocks.map fun block => StateField.all.map block.parameters
  aliasRoot := input.aliasRoot
  intervalForValue := (List.range input.program.valueCount).map (intervalFor assignment.intervals)
  maxSpillBytes := input.maxSpillBytes

/-- A location fits into its bank. -/
def inBounds (spillBytes : ℕ) (location : Location) : Bool :=
  (location.kind != .core || location.index + location.words ≤ input.coreRegisterWords) &&
    (location.kind != .vfpS || location.index < input.availableVfpSRegisters) &&
    (location.kind != .neonQ || location.index < input.neonQRegisters) &&
    (location.kind != .spill || location.index + location.words * 4 ≤ spillBytes) &&
    countWords (normalizedWordMask location) ≤ location.words

/-- The check of the finished plan. -/
def checkPlan (spillBytes : ℕ) : List Interval → Except BuildError Unit
  | [] => .ok ()
  | interval :: rest =>
    if ¬ input.inBounds spillBytes interval.location then
      .error (.invalidValue, interval.block, interval.value)
    else if rest.any fun other => interval.overlaps other &&
        interval.location.kind != .fixedCycle && other.location.kind != .fixedCycle &&
        locationsOverlap interval.location other.location then
      .error (.edgeCopyConflict, interval.block, interval.value)
    else checkPlan spillBytes rest

/-- The location part of `Build`. -/
def allocate : Option (Except BuildError SpillPlan) :=
  match input.assignLocations with
  | .error failure => some (.error failure)
  | .ok assignment =>
    (spillPhase (assignment.spillGroup.length + 2 ^ 17 + 1) (input.spillInput assignment)).map
      fun result => do
        let plan ← result
        input.checkPlan plan.spillBytes plan.intervals
        return plan

end LocationInput

/-- `value_locations`. -/
def SpillPlan.valueLocation (plan : SpillPlan) (value : ValueId) : Location :=
  match intervalFor plan.intervals value with
  | none => {}
  | some index => (plan.intervals.getD index {}).location

/-! ### Intervals and their values -/

section Intervals

variable {intervals intervals' : List Interval} {value : ValueId} {index : ℕ}

/-- Where a value has its interval does not depend on the locations. -/
lemma intervalFor_congr (h : intervals'.map Interval.bare = intervals.map Interval.bare) :
    intervalFor intervals' value = intervalFor intervals value := by
  have hbare : ∀ l : List Interval,
      intervalFor l value = (l.map Interval.bare).findIdx? (·.value == value) := by
    intro l
    rw [List.findIdx?_map]
    rfl
  rw [hbare, hbare, h]

lemma length_eq_of_bare (h : intervals'.map Interval.bare = intervals.map Interval.bare) :
    intervals'.length = intervals.length := by
  have := congrArg List.length h
  rwa [List.length_map, List.length_map] at this

end Intervals

/-! ### The spill phase leaves the registers alone -/

section Frame

variable {intervals : List Interval} {groups : List (Option ℕ)}

/-- Only offsets of intervals of the frame are assigned. -/
def OffsetsOnly (before after : List Interval) : Prop :=
  ∀ i : ℕ, after[i]? = before[i]? ∨ ∃ a offset, before[i]? = some a ∧ a.location.kind = .spill ∧
    after[i]? = some (a.setOffset offset)

lemma mem_spillClasses {spillClass : SpillClass} (hmem : spillClass ∈ spillClasses intervals groups)
    {i : ℕ} (hi : i ∈ spillClass.members) :
    ∃ a, intervals[i]? = some a ∧ a.location.kind = .spill := by
  unfold spillClasses at hmem
  refine List.foldlRecOn (motive := fun classes : List SpillClass => ∀ spillClass ∈ classes,
    ∀ i ∈ spillClass.members, ∃ a, intervals[i]? = some a ∧ a.location.kind = .spill)
    intervals.zipIdx _ ?_ ?_ spillClass hmem i hi
  · exact nofun
  rintro classes hclasses ⟨interval, index⟩ hentry spillClass hmem i hi
  dsimp only at hmem
  split at hmem
  next hspill =>
    rcases mem_addMember hmem with hold | ⟨old, hold, -, rfl⟩
    · exact hclasses spillClass hold i hi
    · rcases List.mem_append.mp hi with hi | hi
      · rcases hold with hold | rfl
        · exact hclasses old hold i hi
        · exact absurd hi List.not_mem_nil
      · obtain rfl := List.mem_singleton.mp hi
        exact ⟨interval, List.mem_zipIdx_iff_getElem?.mp hentry, hspill⟩
  next => exact hclasses spillClass hmem i hi

lemma placeClass_offsetsOnly {fuel limit : ℕ} {frame frame' : SpillFrame} {current : SpillClass}
    (hmembers : ∀ i ∈ current.members, ∃ a, frame.intervals[i]? = some a ∧ a.location.kind = .spill)
    (h : placeClass fuel limit frame current = some (.ok frame')) :
    OffsetsOnly frame.intervals frame'.intervals := by
  obtain ⟨offset, -, hplace⟩ := Option.map_eq_some_iff.mp h
  split at hplace
  · cases hplace
  cases hplace
  intro i
  dsimp only
  rw [getElem?_setOffsets]
  split
  next hi =>
    obtain ⟨a, ha, hspill⟩ := hmembers i hi
    exact .inr ⟨a, offset, ha, hspill, by rw [ha, Option.map_some]⟩
  next => exact .inl rfl

lemma OffsetsOnly.trans {first second third : List Interval} (h : OffsetsOnly first second)
    (h' : OffsetsOnly second third) : OffsetsOnly first third := by
  intro i
  rcases h i with heq | ⟨a, offset, ha, hspill, hset⟩
  · rw [← heq]
    exact h' i
  · refine .inr ⟨a, ?_⟩
    rcases h' i with heq' | ⟨b, offset', hb, -, hset'⟩
    · exact ⟨offset, ha, hspill, heq'.trans hset⟩
    · rw [hset] at hb
      cases hb
      exact ⟨offset', ha, hspill, hset'⟩

lemma OffsetsOnly.spilled {before after : List Interval} (h : OffsetsOnly before after) {i : ℕ}
    (hi : ∃ a, before[i]? = some a ∧ a.location.kind = .spill) :
    ∃ a, after[i]? = some a ∧ a.location.kind = .spill := by
  obtain ⟨a, ha, hspill⟩ := hi
  rcases h i with heq | ⟨b, offset, hb, hspill', hset⟩
  · exact ⟨a, heq.trans ha, hspill⟩
  · exact ⟨b.setOffset offset, hset, hspill'⟩

lemma placeClasses_offsetsOnly {fuel limit : ℕ} {todo : List SpillClass} {frame frame' : SpillFrame}
    (hmembers : ∀ spillClass ∈ todo, ∀ i ∈ spillClass.members,
      ∃ a, frame.intervals[i]? = some a ∧ a.location.kind = .spill)
    (h : placeClasses fuel limit todo frame = some (.ok frame')) :
    OffsetsOnly frame.intervals frame'.intervals := by
  induction todo generalizing frame with
  | nil =>
    cases h
    exact fun i => .inl rfl
  | cons current todo ih =>
    rw [placeClasses] at h
    split at h
    · cases h
    · cases h
    next middle hplace =>
      have hfirst := placeClass_offsetsOnly (hmembers current List.mem_cons_self) hplace
      refine hfirst.trans (ih (fun spillClass hmem i hi => hfirst.spilled ?_) h)
      exact hmembers spillClass (List.mem_cons_of_mem _ hmem) i hi

/-- The spill phase assigns offsets in the frame and nothing else. -/
lemma spillPhase_offsetsOnly {fuel : ℕ} {input : SpillInput} {plan : SpillPlan}
    (h : spillPhase fuel input = some (.ok plan)) : OffsetsOnly input.intervals plan.intervals := by
  obtain ⟨groups, -, hplaced⟩ := Option.bind_eq_some_iff.mp h
  obtain ⟨result, hresult, hplan⟩ := Option.map_eq_some_iff.mp hplaced
  cases result with
  | error failure => cases hplan
  | ok frame =>
    cases hplan
    refine placeClasses_offsetsOnly (fun spillClass hmem i hi => ?_) hresult
    exact mem_spillClasses ((List.perm_insertionSort _ _).mem_iff.mp hmem) hi

lemma OffsetsOnly.bare {before after : List Interval} (h : OffsetsOnly before after) :
    after.map Interval.bare = before.map Interval.bare := by
  refine List.ext_getElem? fun i => ?_
  rw [List.getElem?_map, List.getElem?_map]
  rcases h i with heq | ⟨a, offset, ha, -, hset⟩
  · rw [heq]
  · rw [hset, ha]
    rfl

/-- A location outside the frame is held before the spill phase if and only if it is
held behind it. -/
lemma OffsetsOnly.location_iff {before after : List Interval} (h : OffsetsOnly before after) {i : ℕ}
    {location : Location} (hlocation : location.kind ≠ .spill) :
    (after.getD i {}).location = location ↔ (before.getD i {}).location = location := by
  rw [List.getD_eq_getElem?_getD, List.getD_eq_getElem?_getD]
  rcases h i with heq | ⟨a, offset, ha, hspill, hset⟩
  · rw [heq]
  · rw [hset, ha, Option.getD_some, Option.getD_some]
    constructor
    · intro heq
      exact absurd (congrArg Location.kind heq.symm |>.trans hspill) hlocation
    · intro heq
      exact absurd (congrArg Location.kind heq.symm |>.trans hspill) hlocation

end Frame

end VitaSX2.RegionAllocation
