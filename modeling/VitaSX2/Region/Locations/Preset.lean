/-
The locations that `RegionAllocation::Build` gives out before it scans the blocks.

Every value with executable uses has one interval.  A value that the options name
as region resident owns one of the highest core words, the word of its position in
the list; the words below are the ones that the allocator may hand out.  Immediates,
unchanged parameters and cycle values have their places as well, and every other
interval is still without one.

The ranges, representations and aliases are those that the passes in front of this
one leave behind.
-/
import VitaSX2.Region.IR.Facts
import VitaSX2.Region.Plan.Extension
import VitaSX2.Region.Spill.Merge

namespace VitaSX2.RegionAllocation

open RegionIR (Program Node Opcode ValueType StateField Transfer)

/-- The block of a value, the positions of its definition and of its last use, and the
number of its uses. -/
structure ValueRange where
  block : ℕ := invalidBlock
  start : ℕ := 0
  stop : ℕ := 0
  uses : ℕ := 0

/-- An internal CFG edge of the program and the slots that are propagated on it. -/
structure RegionEdge where
  sourceBlock : ℕ
  transfer : Transfer
  propagated : StateField → Bool

/-- `std::sort`, which leaves the order of equivalent elements open. -/
structure StandardSort where
  sort : {α : Type} → (α → α → Bool) → List α → List α
  perm : ∀ {α : Type} (before : α → α → Bool) (l : List α), (sort before l).Perm l
  sorted : ∀ {α : Type} (before : α → α → Bool) (l : List α),
    (∀ a b, before a b = true → before b a = false) →
    (∀ a b c, before b a = false → before c b = false → before c a = false) →
    (sort before l).Pairwise fun a b => before b a = false

/-- One of the ways to sort. -/
def insertionSorting : StandardSort where
  sort before l := l.insertionSort fun a b => before b a = false
  perm before l := List.perm_insertionSort _ l
  sorted before l hasymm htrans := by
    have htotal : Std.Total fun a b => before b a = false := ⟨fun a b => by
      cases hba : before b a with
      | false => exact .inl rfl
      | true => exact .inr (hasymm b a hba)⟩
    have htrans' : IsTrans _ fun a b => before b a = false := ⟨htrans⟩
    exact List.pairwise_insertionSort _ l

/-- What the assignment of locations reads. -/
structure LocationInput where
  program : Program
  ranges : ValueId → ValueRange
  representations : ValueId → Representation
  /-- The parameters that are read from the canonical state. -/
  canonicalParameters : ValueId → Bool
  /-- The normalized COP1 inputs that stay in a VFP register of their own. -/
  residentNormalize : ValueId → Bool
  aliasRoot : ValueId → ValueId
  /-- The slots that are propagated on the edge of a given number. -/
  propagated : ℕ → StateField → Bool
  residentCoreValues : List ValueId
  coreRegisterWords : ℕ
  vfpSRegisters : ℕ
  /-- No value needs a vector register, and the low half of the VFP bank is free. -/
  scalarOnlyVfpBank : Bool
  neonQRegisters : ℕ
  maxSpillBytes : ℕ
  sorting : StandardSort

namespace LocationInput

variable (input : LocationInput)

def allocatableCoreRegisterWords : ℕ :=
  input.coreRegisterWords - input.residentCoreValues.length

def availableVfpSRegisters : ℕ :=
  input.vfpSRegisters + if input.scalarOnlyVfpBank then 16 else 0

/-- The values that own a VFP register, in their order. -/
def residentVfpValues : List ValueId :=
  (List.range input.program.valueCount).filter (input.residentNormalize ·)

def allocatableVfpSRegisters : ℕ :=
  input.availableVfpSRegisters - input.residentVfpValues.length

/-- The internal edges in the order in which they are visited. -/
def edges : List RegionEdge :=
  (input.program.blocks.zipIdx.flatMap fun (block, index) =>
    block.terminator.internalTransfers.map (index, ·)).zipIdx.map
      fun ((index, transfer), number) => ⟨index, transfer, input.propagated number⟩

/-- The checks of the options that bear on locations. -/
def checkOptions : Except BuildError Unit :=
  if input.coreRegisterWords > 16 ∨ input.vfpSRegisters > 14 ∨ input.neonQRegisters > 8 ∨
      input.residentCoreValues.length > input.coreRegisterWords ∨
      (input.residentCoreValues ≠ [] ∧
        input.residentCoreValues.length = input.coreRegisterWords) ∨
      input.residentVfpValues.length > input.availableVfpSRegisters then
    .error (.invalidExecutionPlan, input.program.entryBlock, invalidValue)
  else .ok ()

/-- A resident value is a value of the program, no alias, and named once. -/
def checkResidents : List ValueId → List ValueId → Except BuildError Unit
  | _, [] => .ok ()
  | seen, value :: rest =>
    if value ≥ input.program.valueCount ∨ input.aliasRoot value ≠ value ∨ value ∈ seen then
      .error (.invalidValue, input.program.entryBlock, value)
    else checkResidents (seen ++ [value]) rest

def residentCoreIndex (value : ValueId) : Option ℕ :=
  (input.residentCoreValues.idxOf? value).map (input.allocatableCoreRegisterWords + ·)

def residentVfpIndex (value : ValueId) : Option ℕ :=
  (input.residentVfpValues.idxOf? value).map (input.allocatableVfpSRegisters + ·)

def isConstant : Opcode → Bool
  | .constantI1 | .constantI32 | .constantI64 | .constantAddress => true
  | _ => false

/-- The place that a value has before the scan, if there is one. -/
def presetLocation (value : ValueId) (node : Node) : Except BuildError Location :=
  let representation := input.representations value
  match input.residentCoreIndex value with
  | some index =>
    if representation.kind ≠ .coreWords ∨ representation.words ≠ 1 ∨ representation.wordMask ≠ 1 then
      .error (.invalidValue, (input.ranges value).block, value)
    else .ok ⟨.core, index, 1, 1⟩
  | none =>
    match input.residentVfpIndex value with
    | some index =>
      if representation.kind ≠ .vfpWord ∨ representation.words ≠ 1 ∨ representation.wordMask ≠ 1 then
        .error (.invalidValue, input.program.entryBlock, value)
      else .ok ⟨.vfpS, index, 1, 1⟩
    | none =>
      if isConstant node.opcode ∨ representation.kind = .immediate then
        .ok ⟨.immediate, 0, representation.words, representation.wordMask⟩
      else if input.canonicalParameters value then
        .ok ⟨.canonicalState, node.immediate % 2 ^ 16, representation.words, representation.wordMask⟩
      else if node.type = .cycle then .ok ⟨.fixedCycle, 0, 2, 3⟩
      else .ok {}

/-- The interval of a value, which a value without executable uses does not have. -/
def presetInterval (value : ValueId) : Except BuildError (Option Interval) :=
  match RegionExecution.definition input.program value with
  | none => .error (.invalidValue, invalidBlock, value)
  | some node =>
    let range := input.ranges value
    if range.uses = 0 ∨ node.type = .void ∨ node.type = .memoryEffect then .ok none
    else if (input.representations value).kind = .none ∨ (input.representations value).words = 0 then
      .error (.invalidValue, range.block, value)
    else
      (input.presetLocation value node).map fun location =>
        some ⟨value, range.block, range.start, range.stop, range.uses, location⟩

def collectIntervals : List ValueId → Except BuildError (List Interval)
  | [] => .ok []
  | value :: rest => do
    let interval ← input.presetInterval value
    let intervals ← collectIntervals rest
    return interval.toList ++ intervals

/-- The intervals in the order of their values. -/
def presetIntervals : Except BuildError (List Interval) := do
  input.checkOptions
  input.checkResidents [] input.residentCoreValues
  input.collectIntervals (List.range input.program.valueCount)

end LocationInput

/-- `interval_for`: the position of the interval of a value. -/
def intervalFor (intervals : List Interval) (value : ValueId) : Option ℕ :=
  intervals.findIdx? (·.value == value)

lemma getElem?_of_intervalFor {intervals : List Interval} {value : ValueId} {index : ℕ}
    (h : intervalFor intervals value = some index) :
    ∃ interval, intervals[index]? = some interval ∧ interval.value = value := by
  obtain ⟨hlt, hvalue, -⟩ := List.findIdx?_eq_some_iff_getElem.mp h
  exact ⟨intervals[index], List.getElem?_eq_getElem hlt, by simpa using hvalue⟩

/-! ### The preset locations -/

namespace LocationInput

variable {input : LocationInput} {intervals : List Interval} {value : ValueId}

/-- The place of a resident value. -/
def residentLocation (input : LocationInput) (position : ℕ) : Location :=
  ⟨.core, input.allocatableCoreRegisterWords + position, 1, 1⟩

lemma checkResidents_spec {seen residents : List ValueId}
    (h : input.checkResidents seen residents = .ok ()) :
    residents.Nodup ∧ ∀ value ∈ residents, value < input.program.valueCount ∧ value ∉ seen := by
  induction residents generalizing seen with
  | nil => exact ⟨List.nodup_nil, nofun⟩
  | cons value rest ih =>
    rw [checkResidents] at h
    split at h
    · cases h
    next hvalid =>
      rw [not_or, not_or, ge_iff_le, not_le] at hvalid
      obtain ⟨hnodup, hrest⟩ := ih h
      refine ⟨List.nodup_cons.mpr ⟨fun hmem => ?_, hnodup⟩, fun other hother => ?_⟩
      · exact (hrest value hmem).2 (List.mem_append_right _ (List.mem_singleton_self _))
      · rcases List.mem_cons.mp hother with rfl | hother
        · exact ⟨hvalid.1, hvalid.2.2⟩
        · exact ⟨(hrest other hother).1,
            fun hseen => (hrest other hother).2 (List.mem_append_left _ hseen)⟩

/-- What the interval of a value says. -/
lemma presetInterval_spec {interval : Interval}
    (h : input.presetInterval value = .ok (some interval)) :
    interval.value = value ∧ ∃ node, RegionExecution.definition input.program value = some node ∧
      node.type ≠ .void ∧ node.type ≠ .memoryEffect ∧
      input.presetLocation value node = .ok interval.location := by
  unfold presetInterval at h
  split at h
  · cases h
  next node hnode =>
    dsimp only at h
    split at h
    · cases h
    next hvalue =>
      rw [not_or, not_or] at hvalue
      split at h
      · cases h
      cases hlocation : input.presetLocation value node with
      | error failure =>
        rw [hlocation] at h
        cases h
      | ok location =>
        rw [hlocation] at h
        cases h
        exact ⟨rfl, node, hnode, hvalue.2.1, hvalue.2.2, hlocation⟩

/-- What the intervals of the values are. -/
lemma collectIntervals_spec {values : List ValueId}
    (h : input.collectIntervals values = .ok intervals) :
    (intervals.map Interval.value).Sublist values ∧
      (∀ interval ∈ intervals, input.presetInterval interval.value = .ok (some interval)) ∧
      ∀ value ∈ values, ∃ interval, input.presetInterval value = .ok interval ∧
        ∀ a, interval = some a → a ∈ intervals := by
  induction values generalizing intervals with
  | nil =>
    cases h
    exact ⟨List.Sublist.slnil, nofun, nofun⟩
  | cons value rest ih =>
    rw [collectIntervals] at h
    cases hvalue : input.presetInterval value with
    | error failure =>
      rw [hvalue] at h
      cases h
    | ok interval =>
      rw [hvalue] at h
      cases hrest : input.collectIntervals rest with
      | error failure =>
        rw [hrest] at h
        cases h
      | ok others =>
        rw [hrest] at h
        cases h
        obtain ⟨hsub, hintervals, hvalues⟩ := ih hrest
        refine ⟨?_, ?_, ?_⟩
        · cases interval with
          | none => exact hsub.cons _
          | some a =>
            rw [← (presetInterval_spec hvalue).1]
            exact hsub.cons_cons _
        · intro a ha
          rcases List.mem_append.mp ha with ha | ha
          · obtain rfl := Option.mem_toList.mp ha
            rwa [(presetInterval_spec hvalue).1]
          · exact hintervals a ha
        · intro other hother
          rcases List.mem_cons.mp hother with rfl | hother
          · exact ⟨interval, hvalue, fun a ha => List.mem_append_left _ (Option.mem_toList.mpr ha)⟩
          · obtain ⟨found, hfound, hmem⟩ := hvalues other hother
            exact ⟨found, hfound, fun a ha => List.mem_append_right _ (hmem a ha)⟩

/-- The preset intervals, one for each value. -/
structure PresetIntervals (input : LocationInput) (intervals : List Interval) : Prop where
  residents : input.residentCoreValues.Nodup
  bounded : ∀ value ∈ input.residentCoreValues, value < input.program.valueCount
  values : (intervals.map Interval.value).Nodup
  preset : ∀ interval ∈ intervals, input.presetInterval interval.value = .ok (some interval)
  complete : ∀ value < input.program.valueCount, ∃ interval,
    input.presetInterval value = .ok interval ∧ ∀ a, interval = some a → a ∈ intervals

lemma presetIntervals_spec (h : input.presetIntervals = .ok intervals) :
    PresetIntervals input intervals := by
  unfold presetIntervals at h
  cases hoptions : input.checkOptions with
  | error failure =>
    rw [hoptions] at h
    cases h
  | ok _ =>
    rw [hoptions] at h
    cases hresidents : input.checkResidents [] input.residentCoreValues with
    | error failure =>
      rw [hresidents] at h
      cases h
    | ok _ =>
      rw [hresidents] at h
      obtain ⟨hnodup, hbounded⟩ := checkResidents_spec hresidents
      obtain ⟨hsub, hpreset, hcomplete⟩ := collectIntervals_spec h
      exact ⟨hnodup, fun value hvalue => (hbounded value hvalue).1, hsub.nodup List.nodup_range,
        hpreset, fun value hvalue => hcomplete value (List.mem_range.mpr hvalue)⟩

namespace PresetIntervals

variable (h : PresetIntervals input intervals)
include h

/-- The interval of a value is found at its position. -/
lemma intervalFor_eq {i : ℕ} {interval : Interval} (hi : intervals[i]? = some interval) :
    intervalFor intervals interval.value = some i := by
  cases hfind : intervalFor intervals interval.value with
  | none =>
    have hnone := List.findIdx?_eq_none_iff.mp hfind interval (List.mem_of_getElem? hi)
    simp at hnone
  | some j =>
    obtain ⟨other, hj, hvalue⟩ := getElem?_of_intervalFor hfind
    obtain ⟨hi', hget⟩ := List.getElem?_eq_some_iff.mp hi
    obtain ⟨hj', hget'⟩ := List.getElem?_eq_some_iff.mp hj
    have hi'' : i < (intervals.map Interval.value).length := by simpa using hi'
    have hj'' : j < (intervals.map Interval.value).length := by simpa using hj'
    have hij := (@List.Nodup.getElem_inj_iff _ _ h.values j hj'' i hi'').mp (by
      simp [hget, hget', hvalue])
    rw [hij]

/-- Nobody but the resident value has its place. -/
lemma value_of_residentLocation {position i : ℕ} {value : ValueId}
    (hvalue : input.residentCoreValues[position]? = some value)
    (hi : (intervals.getD i {}).location = input.residentLocation position) :
    intervalFor intervals value = some i := by
  rw [List.getD_eq_getElem?_getD] at hi
  cases hget : intervals[i]? with
  | none =>
    rw [hget] at hi
    cases hi
  | some interval =>
    rw [hget, Option.getD_some] at hi
    obtain ⟨-, node, -, -, -, hlocation⟩ := presetInterval_spec (h.preset _ (List.mem_of_getElem? hget))
    rw [hi] at hlocation
    suffices interval.value = value from this ▸ h.intervalFor_eq hget
    unfold presetLocation at hlocation
    dsimp only at hlocation
    split at hlocation
    next index hindex =>
      split at hlocation
      · cases hlocation
      · obtain ⟨found, hfound, rfl⟩ := Option.map_eq_some_iff.mp hindex
        simp only [residentLocation, Except.ok.injEq, Location.mk.injEq, true_and, and_true,
          Nat.add_left_cancel_iff] at hlocation
        subst hlocation
        obtain ⟨hlt, heq, -⟩ := List.findIdx?_eq_some_iff_getElem.mp hfound
        have hposition := (List.getElem?_eq_getElem hlt).symm.trans hvalue
        rw [← Option.some.inj hposition]
        exact (beq_iff_eq.mp heq).symm
    next =>
      exfalso
      split at hlocation
      · split at hlocation <;> cases hlocation
      · split at hlocation
        · cases hlocation
        · split at hlocation
          · cases hlocation
          · split at hlocation <;> cases hlocation

/-- A resident value with an interval begins in its place. -/
lemma resident_location {position index : ℕ} {value : ValueId}
    (hvalue : input.residentCoreValues[position]? = some value)
    (hindex : intervalFor intervals value = some index) :
    (intervals.getD index {}).location = input.residentLocation position := by
  obtain ⟨interval, hget, rfl⟩ := getElem?_of_intervalFor hindex
  obtain ⟨-, node, -, -, -, hlocation⟩ := presetInterval_spec (h.preset _ (List.mem_of_getElem? hget))
  have hposition : input.residentCoreIndex interval.value =
      some (input.allocatableCoreRegisterWords + position) := by
    obtain ⟨hlt, heq⟩ := List.getElem?_eq_some_iff.mp hvalue
    refine Option.map_eq_some_iff.mpr ⟨position, ?_, rfl⟩
    refine List.findIdx?_eq_some_iff_getElem.mpr ⟨hlt, beq_iff_eq.mpr heq, fun j hj heq' => ?_⟩
    -- no earlier position names the value
    rw [← heq, beq_iff_eq, h.residents.getElem_inj_iff] at heq'
    omega
  rw [List.getD_eq_getElem?_getD, hget, Option.getD_some]
  rw [presetLocation, hposition] at hlocation
  dsimp only at hlocation
  split at hlocation
  · cases hlocation
  · exact (Except.ok.inj hlocation).symm

end PresetIntervals

end LocationInput

end VitaSX2.RegionAllocation
