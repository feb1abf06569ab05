/-
Values that the options name as region resident (`RegionAllocation::Build`).

A resident value begins in its core word, and the scan never moves it.  Two later
passes do not ask whether a location was preset: the spilling of affinity classes
without registers, which puts all members of a class into the frame, and the
coalescing of block parameters, which gives a parameter the register of its incoming
values.  A resident value keeps its word exactly when neither of them takes it.
-/
import VitaSX2.Region.IR.Lift
import VitaSX2.Region.Locations.Allocate

namespace VitaSX2.RegionAllocation

open RegionIR (StateField verify verified_of_verify)

namespace LocationInput

variable {input : LocationInput} {intervals : List Interval} {plan : AffinityPlan}
  {assignment : Assignment}

/-! ### Classes without registers -/

/-- The interval is in a class, and the class has found no register. -/
def Uncolored (plan : AffinityPlan) (index : ℕ) : Prop :=
  plan.spillAffinity.getD index none ≠ none ∧ (plan.preference.getD index {}).kind = .none

lemma spillClass_cases (plan : AffinityPlan) (assignment : Assignment) (index : ℕ) :
    (¬ Uncolored plan index ∧ input.spillClass intervals plan assignment index = assignment) ∨
      (Uncolored plan index ∧ ∃ words wordMask group,
        input.spillClass intervals plan assignment index =
          assignment.toFrame index words wordMask group) := by
  unfold spillClass Assignment.spillAffinity Uncolored
  split
  next hnone => exact .inl ⟨fun h => h.1 hnone, rfl⟩
  next group hgroup =>
    split
    next hkind => exact .inl ⟨fun h => hkind h.2, rfl⟩
    next hkind =>
      exact .inr ⟨⟨by rw [hgroup]; exact Option.some_ne_none _, not_not.mp hkind⟩, _, _, _, rfl⟩

/-- The spilling of the classes without registers. -/
structure SpillsUncolored (plan : AffinityPlan) (done : List ℕ) (before after : Assignment) : Prop where
  bare : after.intervals.map Interval.bare = before.intervals.map Interval.bare
  kept : ∀ i, ¬ Uncolored plan i → after.at i = before.at i
  spilled : ∀ i ∈ done, i < before.intervals.length → Uncolored plan i →
    (after.at i).location.kind = .spill
  unclaimed : ∀ i, (after.at i).location.kind ≠ .spill → after.at i = before.at i

lemma SpillsUncolored.step {done : List ℕ} {before after : Assignment} (index : ℕ)
    (h : SpillsUncolored plan done before after) :
    SpillsUncolored plan (done ++ [index]) before (input.spillClass intervals plan after index) := by
  rcases spillClass_cases plan after index with ⟨hcolored, heq⟩ | ⟨huncolored, words, mask, group, heq⟩
  · rw [heq]
    refine ⟨h.bare, h.kept, fun i hi hlt huncolored => ?_, h.unclaimed⟩
    rcases List.mem_append.mp hi with hi | hi
    · exact h.spilled i hi hlt huncolored
    · exact absurd (List.mem_singleton.mp hi ▸ huncolored) hcolored
  · rw [heq]
    have hset := fun i => @Assignment.at_setLocation_cases after index i
      ⟨.spill, 0, words % 2 ^ 8, mask⟩
    refine ⟨?_, fun i hi => ?_, fun i hi hlt huncolored' => ?_, fun i hi => ?_⟩
    · rw [Assignment.toFrame_intervals, Assignment.bare_setLocation, h.bare]
    · have hne : index ≠ i := fun hindex => hi (hindex ▸ huncolored)
      exact (Assignment.at_setLocation_of_ne _ hne).trans (h.kept i hi)
    · by_cases hne : index = i
      · subst hne
        rw [← length_eq_of_bare h.bare] at hlt
        exact congrArg (Location.kind ∘ Interval.location)
          (Assignment.at_setLocation_self ⟨.spill, 0, words % 2 ^ 8, mask⟩ hlt)
      · have hdone : i ∈ done := (List.mem_append.mp hi).resolve_right
          fun hmem => hne (List.mem_singleton.mp hmem).symm
        exact (congrArg (Location.kind ∘ Interval.location)
          (Assignment.at_setLocation_of_ne _ hne)).trans (h.spilled i hdone hlt huncolored')
    · rcases hset i with hnew | hold
      · exact absurd (congrArg Location.kind hnew) hi
      · refine hold.trans (h.unclaimed i fun hspill => hi ?_)
        exact (congrArg (Location.kind ∘ Interval.location) hold).trans hspill

lemma spillUncolored_spec (plan : AffinityPlan) :
    SpillsUncolored plan (List.range intervals.length)
      ⟨intervals, List.replicate intervals.length none⟩ (input.spillUncolored intervals plan) := by
  have hrun : ∀ (rest done : List ℕ) (before after : Assignment),
      SpillsUncolored plan done before after →
      SpillsUncolored plan (done ++ rest) before
        (rest.foldl (input.spillClass intervals plan) after) := by
    intro rest
    induction rest with
    | nil =>
      intro done before after h
      rwa [List.append_nil]
    | cons index rest ih =>
      intro done before after h
      rw [List.append_cons, List.foldl_cons]
      exact ih _ _ _ (h.step index)
  exact hrun _ [] _ _ ⟨rfl, fun _ _ => rfl, nofun, fun _ _ => rfl⟩

/-! ### Coalesced parameters -/

lemma unanimousLocation_mem {supplied : List (Option Location)} {location : Location}
    (h : unanimousLocation supplied = some location) : some location ∈ supplied := by
  unfold unanimousLocation at h
  split at h
  next candidate rest =>
    split at h
    · rw [← h]
      exact List.mem_cons_self
    · cases h
  next => cases h

/-- A parameter takes over a register that another interval has. -/
lemma coalescedParameter_spec {step : ℕ × StateField} {target : ℕ} {location : Location}
    (h : input.coalescedParameter intervals step = some (target, location)) :
    ∃ block, input.program.blocks[step.1]? = some block ∧
      intervalFor intervals (block.parameters step.2) = some target ∧
      ∃ (i : ℕ) (interval : Interval), intervals[i]? = some interval ∧
        interval.location = location := by
  simp only [coalescedParameter, Option.bind_eq_bind, Option.bind_eq_some_iff, Option.pure_def] at h
  obtain ⟨block, hblock, index, hindex, interval, -, candidate, hcandidate, -, -, -, -, heq⟩ := h
  cases heq
  refine ⟨block, hblock, hindex, ?_⟩
  obtain ⟨edge, -, hedge⟩ := List.mem_map.mp (unanimousLocation_mem hcandidate)
  simp only [Option.bind_eq_bind, Option.bind_eq_some_iff, Option.pure_def] at hedge
  obtain ⟨-, -, i, -, source, hsource, -, -, heq⟩ := hedge
  exact ⟨i, source, hsource, Option.some.inj heq⟩

lemma coalesceSlot_bare (step : ℕ × StateField) :
    (input.coalesceSlot assignment step).intervals.map Interval.bare =
      assignment.intervals.map Interval.bare := by
  unfold coalesceSlot
  split
  · rfl
  · exact Assignment.bare_setLocation _

lemma foldl_coalesceSlot_bare (steps : List (ℕ × StateField)) :
    (steps.foldl input.coalesceSlot assignment).intervals.map Interval.bare =
      assignment.intervals.map Interval.bare := by
  induction steps generalizing assignment with
  | nil => rfl
  | cons step steps ih => rw [List.foldl_cons, ih, coalesceSlot_bare]

/-- Coalescing hands on places that are held, and no others. -/
lemma foldl_coalesceSlot_unclaimed {location : Location} (steps : List (ℕ × StateField))
    (h : ∀ i, (assignment.at i).location ≠ location) (i : ℕ) :
    ((steps.foldl input.coalesceSlot assignment).at i).location ≠ location := by
  induction steps generalizing assignment with
  | nil => exact h i
  | cons step steps ih =>
    refine ih fun j => ?_
    unfold coalesceSlot
    split
    · exact h j
    next target candidate hstep =>
      rcases @Assignment.at_setLocation_cases assignment target j candidate with hnew | hold
      · obtain ⟨-, -, -, source, interval, hsource, rfl⟩ := coalescedParameter_spec hstep
        rw [hnew, ← Assignment.at_eq hsource]
        exact h source
      · rw [hold]
        exact h j

/-- Steps that give a place to other intervals leave an interval alone. -/
lemma foldl_coalesceSlot_kept {location : Location} {index : ℕ} (steps : List (ℕ × StateField))
    (hat : (assignment.at index).location = location)
    (h : ∀ before step after, steps = before ++ step :: after → ∀ candidate,
      input.coalescedParameter (before.foldl input.coalesceSlot assignment).intervals step =
        some (index, candidate) → candidate = location) :
    ((steps.foldl input.coalesceSlot assignment).at index).location = location := by
  induction steps generalizing assignment with
  | nil => exact hat
  | cons step steps ih =>
    refine ih ?_ fun before other after hsteps candidate hother => ?_
    · unfold coalesceSlot
      split
      · exact hat
      next target candidate hstep =>
        rcases @Assignment.at_setLocation_cases assignment target index candidate with hnew | hold
        · by_cases hne : target = index
          · subst hne
            rw [hnew]
            exact h [] step steps rfl candidate hstep
          · rw [Assignment.at_setLocation_of_ne _ hne]
            exact hat
        · rw [hold]
          exact hat
    · exact h (step :: before) other after (by rw [hsteps, List.cons_append]) candidate hother

lemma stateField_all_nodup : StateField.all.Nodup := by
  refine List.Nodup.of_map StateField.index ?_
  rw [StateField.map_index]
  exact List.nodup_range

lemma coalesceSteps_nodup : input.coalesceSteps.Nodup :=
  List.Nodup.product List.nodup_range stateField_all_nodup

/-- A parameter is the target of one step only. -/
lemma step_eq_of_coalescedParameter (hverify : verify input.program = true)
    {intervals' : List Interval} {step step' : ℕ × StateField} {target : ℕ}
    {location location' : Location}
    (hbare : intervals'.map Interval.bare = intervals.map Interval.bare)
    (h : input.coalescedParameter intervals step = some (target, location))
    (h' : input.coalescedParameter intervals' step' = some (target, location')) : step = step' := by
  have hv := verified_of_verify hverify
  obtain ⟨block, hblock, htarget, -⟩ := coalescedParameter_spec h
  obtain ⟨block', hblock', htarget', -⟩ := coalescedParameter_spec h'
  rw [intervalFor_congr hbare] at htarget'
  obtain ⟨interval, hinterval, hvalue⟩ := getElem?_of_intervalFor htarget
  obtain ⟨interval', hinterval', hvalue'⟩ := getElem?_of_intervalFor htarget'
  rw [hinterval] at hinterval'
  cases hinterval'
  -- both steps are about the same parameter
  have hparameter : block.parameters step.2 = block'.parameters step'.2 := hvalue.symm.trans hvalue'
  obtain ⟨_, node, -, -, hnode, hid, -⟩ := (hv.block_of_mem hblock).parameter step.2
  obtain ⟨_, node', -, -, hnode', hid', -⟩ := (hv.block_of_mem hblock').parameter step'.2
  have hindex : step.1 = step'.1 := hv.block_eq hblock hblock' (List.mem_of_getElem? hnode)
    (List.mem_of_getElem? hnode') (hid.trans (hparameter.trans hid'.symm))
  rw [hindex] at hblock
  rw [hblock] at hblock'
  cases hblock'
  exact Prod.ext hindex (hv.parameters_injective hblock hparameter)

/-- A parameter that has been given a register keeps it. -/
lemma foldl_coalesceSlot_given (hverify : verify input.program = true)
    {before after : List (ℕ × StateField)} {step : ℕ × StateField} {target : ℕ} {location : Location}
    (hsteps : (before ++ step :: after).Nodup)
    (h : input.coalescedParameter (before.foldl input.coalesceSlot assignment).intervals step =
      some (target, location)) :
    (((before ++ step :: after).foldl input.coalesceSlot assignment).at target).location = location := by
  rw [List.foldl_append, List.foldl_cons]
  refine foldl_coalesceSlot_kept after ?_ fun middle other rest hafter candidate hother => ?_
  · obtain ⟨_, -, htarget, -⟩ := coalescedParameter_spec h
    obtain ⟨interval, hinterval, -⟩ := getElem?_of_intervalFor htarget
    rw [coalesceSlot, h]
    dsimp only
    rw [Assignment.at_setLocation_self _ (List.getElem?_eq_some_iff.mp hinterval).1]
  · exfalso
    have hbare := (@foldl_coalesceSlot_bare input
      (input.coalesceSlot (before.foldl input.coalesceSlot assignment) step) middle).trans
      (coalesceSlot_bare step)
    have heq := step_eq_of_coalescedParameter hverify hbare h hother
    have hnodup := (List.nodup_cons.mp (List.nodup_append.mp hsteps).2.1).1
    exact hnodup (heq ▸ hafter ▸ List.mem_append_right _ List.mem_cons_self)

/-! ### When a resident value keeps its word -/

/-- Neither of the two passes takes the core word of a resident value: it can live in
a register, it is in no affinity class without registers, and no coalescing step gives
it the register of its incoming values. -/
structure KeepsResident (input : LocationInput) (value : ValueId) (location : Location) : Prop where
  typed : ∀ node, RegionExecution.definition input.program value = some node →
    node.type ≠ .void ∧ node.type ≠ .memoryEffect
  colored : ∀ intervals index, input.presetIntervals = .ok intervals →
    intervalFor intervals value = some index → ¬ Uncolored (input.affinityPlan intervals) index
  unmoved : ∀ assignment index, input.scanned = .ok assignment →
    intervalFor assignment.intervals value = some index →
    ∀ before step after, input.coalesceSteps = before ++ step :: after → ∀ candidate,
      input.coalescedParameter (before.foldl input.coalesceSlot assignment).intervals step =
        some (index, candidate) → candidate = location

/-- The stages of a successful allocation. -/
structure Stages (input : LocationInput) (intervals : List Interval) (scanned : Assignment)
    (plan : SpillPlan) : Prop where
  preset_eq : input.presetIntervals = .ok intervals
  scanned_eq : input.scanned = .ok scanned
  moves : input.Moves (Unplaced (input.spillUncolored intervals (input.affinityPlan intervals)))
    (input.spillUncolored intervals (input.affinityPlan intervals)) scanned
  offsets : OffsetsOnly (input.coalesce scanned).intervals plan.intervals

lemma exists_stages {plan : SpillPlan} (h : input.allocate = some (.ok plan)) :
    ∃ intervals scanned, Stages input intervals scanned plan := by
  unfold allocate assignLocations at h
  cases hscanned : input.scanned with
  | error failure =>
    rw [hscanned] at h
    cases h
  | ok scanned =>
    rw [hscanned] at h
    obtain ⟨result, hspill, hplan⟩ := Option.map_eq_some_iff.mp h
    have hresult : result = .ok plan := by
      cases result with
      | error failure => cases hplan
      | ok frame =>
        cases hcheck : input.checkPlan frame.spillBytes frame.intervals with
        | error failure =>
          simp [hcheck, bind, Except.bind] at hplan
        | ok _ =>
          simpa [hcheck, bind, Except.bind, pure, Except.pure] using hplan
    subst hresult
    have hscan := hscanned
    unfold LocationInput.scanned at hscan
    cases hpreset : input.presetIntervals with
    | error failure =>
      rw [hpreset] at hscan
      cases hscan
    | ok intervals =>
      rw [hpreset] at hscan
      exact ⟨intervals, scanned, hpreset, hscanned, linearScan_moves hscan,
        spillPhase_offsetsOnly hspill⟩

/-- A value that can live in a register and has executable uses has an interval. -/
lemma PresetIntervals.exists_interval {value : ValueId} (h : PresetIntervals input intervals)
    (hbound : value < input.program.valueCount) (huses : (input.ranges value).uses ≠ 0) :
    intervalFor intervals value ≠ none ↔
      ∀ node, RegionExecution.definition input.program value = some node →
        node.type ≠ .void ∧ node.type ≠ .memoryEffect := by
  obtain ⟨interval, hinterval, hmem⟩ := h.complete value hbound
  cases interval with
  | some a =>
    obtain ⟨rfl, node, hnode, hvoid, heffect, -⟩ := presetInterval_spec hinterval
    obtain ⟨i, hi⟩ := List.mem_iff_getElem?.mp (hmem a rfl)
    refine iff_of_true (h.intervalFor_eq hi ▸ Option.some_ne_none _) fun other hother => ?_
    rw [hnode] at hother
    cases hother
    exact ⟨hvoid, heffect⟩
  | none =>
    refine iff_of_false (fun hne => ?_) fun htyped => ?_
    · obtain ⟨i, hi⟩ := Option.ne_none_iff_exists'.mp hne
      obtain ⟨a, ha, rfl⟩ := getElem?_of_intervalFor hi
      rw [h.preset a (List.mem_of_getElem? ha)] at hinterval
      cases hinterval
    · unfold presetInterval at hinterval
      split at hinterval
      · cases hinterval
      next node hnode =>
        dsimp only at hinterval
        split at hinterval
        next huntyped =>
          obtain ⟨hvoid, heffect⟩ := htyped node hnode
          rcases huntyped with hunused | hvoid' | heffect'
          · exact huses hunused
          · exact hvoid hvoid'
          · exact heffect heffect'
        next =>
          split at hinterval
          · cases hinterval
          · obtain ⟨location, -, hsome⟩ := map_eq_ok hinterval
            cases hsome

lemma not_allocatable_residentLocation (position : ℕ) :
    ¬ input.Allocatable (input.residentLocation position) := by
  intro h
  have := h.core rfl
  simp only [residentLocation] at this
  omega

namespace Stages

variable {scanned : Assignment} {plan : SpillPlan} (h : Stages input intervals scanned plan)
  {value : ValueId} {position index : ℕ}
include h

lemma scanned_bare : scanned.intervals.map Interval.bare = intervals.map Interval.bare :=
  h.moves.bare.trans (spillUncolored_spec _).bare

/-- The location of a value in the final plan. -/
lemma valueLocation_iff (hindex : intervalFor intervals value = some index) {location : Location}
    (hlocation : location.kind ≠ .spill) :
    plan.valueLocation value = location ↔
      ((input.coalesce scanned).at index).location = location := by
  have hbare : plan.intervals.map Interval.bare = intervals.map Interval.bare :=
    h.offsets.bare.trans ((foldl_coalesceSlot_bare _).trans h.scanned_bare)
  rw [SpillPlan.valueLocation, intervalFor_congr hbare, hindex]
  exact h.offsets.location_iff hlocation

/-- A resident value that is in no class without registers still has its word when the
scan has ended. -/
lemma scanned_location (hvalue : input.residentCoreValues[position]? = some value)
    (hindex : intervalFor intervals value = some index)
    (hcolored : ¬ Uncolored (input.affinityPlan intervals) index) :
    (scanned.at index).location = input.residentLocation position := by
  have hplaced : ((input.spillUncolored intervals (input.affinityPlan intervals)).at index).location =
      input.residentLocation position := by
    rw [(spillUncolored_spec _).kept index hcolored]
    exact (presetIntervals_spec h.preset_eq).resident_location hvalue hindex
  rw [h.moves.untouched fun hunplaced => ?_]
  · exact hplaced
  · rw [Unplaced, hplaced] at hunplaced
    cases hunplaced

/-- Nobody has the word of a resident value that has been spilled with its class. -/
lemma scanned_unclaimed (hvalue : input.residentCoreValues[position]? = some value)
    (hindex : intervalFor intervals value = some index)
    (huncolored : Uncolored (input.affinityPlan intervals) index) (i : ℕ) :
    (scanned.at i).location ≠ input.residentLocation position := by
  intro hi
  have hspills := @spillUncolored_spec input intervals (input.affinityPlan intervals)
  have hbefore := h.moves.unclaimed (not_allocatable_residentLocation position) nofun hi
  have hsame := hspills.unclaimed i (by rw [hbefore]; exact nofun)
  have hholder := (presetIntervals_spec h.preset_eq).value_of_residentLocation hvalue
    ((congrArg Interval.location hsame).symm.trans hbefore)
  rw [hindex] at hholder
  cases hholder
  obtain ⟨interval, hinterval, -⟩ := getElem?_of_intervalFor hindex
  have hlt := (List.getElem?_eq_some_iff.mp hinterval).1
  have hspilled := hspills.spilled index (List.mem_range.mpr hlt) hlt huncolored
  rw [hbefore] at hspilled
  cases hspilled

end Stages

/-- `addi v0, v0, 1`, `mtsab v0, 5`, and back with `bne v0, zero` as long as `v0` is not
zero. -/
def residentLoopProgram : RegionIR.Program :=
  (RegionIR.lowerProgram ⟨2, 0, false, false, true, 8, 64, 0⟩ id (fun _ => true)
    [⟨0x1000, [0x20420001, 0x04580005, 0x1440fffd, 0x00000000]⟩] [] 0x1000
    [⟨0x1000, [⟨0x1000, 0x20420001, false⟩, ⟨0x1004, 0x04580005, false⟩], .conditionalBranch,
      0x1008, 0x1440fffd, ⟨0x100c, 0x00000000, true⟩, 0, .regionBoundary⟩]).get (by decide +kernel)

/-- The loop with three core words, of which one is for the value that is moved to the
shift amount register.  The two words that are left go to `v0`, whose values before
and after the addition are one class; the shift amounts are the other class. -/
def residentLoop : LocationInput where
  program := residentLoopProgram
  ranges value :=
    match value with
    | 0 => ⟨0, 1, 26, 3⟩
    | 2 => ⟨0, 1, 7, 3⟩
    | 34 => ⟨0, 1, 7, 1⟩
    | 152 => ⟨0, 1, 23, 3⟩
    | 155 => ⟨0, 3, 4, 1⟩
    | 156 => ⟨0, 4, 8, 1⟩
    | 158 => ⟨0, 6, 7, 1⟩
    | 160 => ⟨0, 8, 26, 8⟩
    | 164 => ⟨0, 12, 13, 1⟩
    | 165 => ⟨0, 13, 15, 1⟩
    | 166 => ⟨0, 14, 15, 1⟩
    | 167 => ⟨0, 15, 26, 3⟩
    | 175 => ⟨0, 23, 26, 5⟩
    | 176 => ⟨0, 24, 26, 1⟩
    | 177 => ⟨0, 25, 26, 1⟩
    | _ => {}
  representations value :=
    match value with
    | 0 | 155 | 158 | 164 | 166 | 176 | 177 => ⟨.immediate, 1, 1⟩
    | 34 | 156 | 165 | 167 => ⟨.coreWords, 1, 1⟩
    | 2 | 160 => ⟨.coreWords, 2, 3⟩
    | 152 | 175 => ⟨.fixedCycle, 2, 3⟩
    | _ => {}
  canonicalParameters _ := false
  residentNormalize _ := false
  aliasRoot value :=
    match value with
    | 154 => 2
    | 161 | 163 | 169 => 160
    | 170 => 0
    | _ => value
  propagated _ field :=
    field == .slot (.gpr 0) || field == .slot (.gpr 2) || field == .slot .sa || field == .slot .cycle
  residentCoreValues := [167]
  coreRegisterWords := 3
  vfpSRegisters := 14
  scalarOnlyVfpBank := true
  neonQRegisters := 8
  maxSpillBytes := 4096
  sorting := insertionSorting

lemma exists_residentLoop_plan : ∃ plan, residentLoop.allocate = some (.ok plan) ∧
    plan.valueLocation 167 = ⟨.spill, 8, 1, 1⟩ := by
  have hplan : residentLoop.allocate.map (·.toOption.map fun plan => plan.valueLocation 167) =
      some (some ⟨.spill, 8, 1, 1⟩) := by decide +kernel
  obtain ⟨result, hresult, hlocation⟩ := Option.map_eq_some_iff.mp hplan
  cases result with
  | error failure => cases hlocation
  | ok plan => exact ⟨plan, hresult, Option.some.inj hlocation⟩

lemma verify_residentLoop : verify residentLoop.program = true := by decide +kernel

end LocationInput

end VitaSX2.RegionAllocation
