/-
The joining of spill groups along the internal edges.

Joining keeps the members of a group apart, because two groups are joined only if
no member of the one meets a member of the other; it ends, because every join
leaves one group less.  The build hands over groups in which every interval of the
frame has its group.
-/
import VitaSX2.Region.Spill.Phase

namespace VitaSX2.RegionAllocation

open Grouping

variable {intervals : List Interval} {groups : List (Option ℕ)} {input : SpillInput}

lemma Interval.overlaps_symm {a b : Interval} (h : a.overlaps b = true) : b.overlaps a = true := by
  simp only [Interval.overlaps, Bool.and_eq_true, beq_iff_eq, decide_eq_true_eq] at h ⊢
  exact ⟨⟨h.1.1.symm, h.2⟩, h.1.2⟩

/-- Two intervals of the frame whose lifetimes meet in one block. -/
def SpillsMeet (intervals : List Interval) (i j : ℕ) : Prop :=
  ∃ a b, intervals[i]? = some a ∧ intervals[j]? = some b ∧ a.location.kind = .spill ∧
    b.location.kind = .spill ∧ a.overlaps b = true

lemma spillsMeet_symm (i j : ℕ) (h : SpillsMeet intervals i j) : SpillsMeet intervals j i := by
  obtain ⟨a, b, ha, hb, hspill, hspill', hoverlaps⟩ := h
  exact ⟨b, a, hb, ha, hspill', hspill, Interval.overlaps_symm hoverlaps⟩

/-- The members of a group never overlap in one block, and an interval of the frame
that has no group is not the namesake of one. -/
structure SpillGroups (intervals : List Interval) (groups : List (Option ℕ)) : Prop where
  separate : Separate (SpillsMeet intervals) groups
  ungrouped : ∀ i a, intervals[i]? = some a → a.location.kind = .spill →
    groupAt groups i = none → some i ∉ groups

lemma not_spillsMeet_of_groups {source target : ℕ}
    (h : input.groupsInterfere groups source target = false) :
    ∀ i j, groupAt groups i = some source → groupAt groups j = some target →
      ¬ SpillsMeet input.intervals i j := by
  rintro i j hi hj ⟨a, b, ha, hb, hspill, hspill', hoverlaps⟩
  refine Bool.eq_false_iff.mp h (List.any_eq_true.mpr ⟨(a, i), ?_, ?_⟩)
  · exact List.mem_zipIdx_iff_getElem?.mpr ha
  · have hright : (b, j) ∈ input.intervals.zipIdx := List.mem_zipIdx_iff_getElem?.mpr hb
    simp only [hi, hspill, beq_self_eq_true, Bool.and_true, Bool.true_and]
    exact List.any_eq_true.mpr ⟨(b, j), hright, by simp [hj, hspill', hoverlaps]⟩

lemma SpillGroups.join {source target : ℕ} (h : SpillGroups intervals groups)
    (hsource : some source ∈ groups)
    (hapart : ∀ i j, groupAt groups i = some source → groupAt groups j = some target →
      ¬ SpillsMeet intervals i j) :
    SpillGroups intervals (join source target groups) where
  separate := h.separate.join spillsMeet_symm hapart
  ungrouped := by
    intro i a ha hspill hnone hmem
    rw [groupAt_join] at hnone
    split at hnone
    next => cases hnone
    next =>
      obtain ⟨group, hgroup, heq⟩ := List.mem_map.mp hmem
      split at heq
      next => exact h.ungrouped i a ha hspill hnone (heq ▸ hsource)
      next => exact h.ungrouped i a ha hspill hnone (heq ▸ hgroup)

/-- What one slot of one edge does to the groups. -/
lemma mergeSlot_advance {t : List (Option ℕ) × Bool} (h : SpillGroups input.intervals t.1)
    (candidate : InternalEdge × ℕ) :
    Settle.Advance (SpillGroups input.intervals) (fun groups => (names groups).card) t
      (input.mergeSlot t candidate) := by
  unfold SpillInput.mergeSlot
  split
  next => exact .refl h
  next source destination _ =>
    split
    next sourceGroup destinationGroup hsource hdestination =>
      split
      next => exact .refl h
      next hjoin =>
        rw [not_or, Bool.not_eq_true] at hjoin
        have hmem := mem_of_groupAt hsource
        exact .change (h.join hmem (not_spillsMeet_of_groups hjoin.2))
          (card_names_join hmem (mem_of_groupAt hdestination) hjoin.1)
    next => exact .refl h

/-- The joining ends, with groups whose members do not overlap. -/
theorem exists_groups {fuel : ℕ} (h : SpillGroups input.intervals input.spillGroup)
    (hfuel : input.spillGroup.length < fuel) :
    ∃ groups, Settle.settle input.mergePass fuel input.spillGroup = some groups ∧
      SpillGroups input.intervals groups := by
  have hpass : ∀ groups, SpillGroups input.intervals groups →
      Settle.Advance (SpillGroups input.intervals) (fun groups => (names groups).card)
        (groups, false) (input.mergePass groups) :=
    fun groups hgroups => Settle.Advance.foldl _ _ (fun t ht candidate _ =>
      mergeSlot_advance ht candidate) hgroups
  obtain ⟨groups, hgroups⟩ :=
    Settle.exists_settle hpass h (lt_of_le_of_lt card_names_le hfuel)
  obtain ⟨before, hbefore, hquiet⟩ := Settle.exists_quiet_pass hpass h hgroups
  have hlast := (hpass before hbefore).1
  rw [hquiet] at hlast
  exact ⟨groups, hgroups, hlast⟩

/-! ### The groups that the build hands over -/

inductive RepresentationKind
  | none
  | immediate
  | coreWords
  | fixedCycle
  | vfpWord
  | neonQ
deriving DecidableEq, Repr

structure Representation where
  kind : RepresentationKind := .none
  words : ℕ := 0
  wordMask : ℕ := 0
deriving DecidableEq, Repr

/-- The intervals and their spill groups while locations are assigned. -/
structure Assignment where
  intervals : List Interval
  spillGroup : List (Option ℕ)

/-- Put one interval into the frame, in the given group. -/
def Assignment.toFrame (assignment : Assignment) (index words wordMask group : ℕ) : Assignment where
  intervals := assignment.intervals.modify index fun interval =>
    { interval with location := ⟨.spill, 0, words % 2 ^ 8, wordMask⟩ }
  spillGroup := assignment.spillGroup.set index (some group)

/-- A member of an affinity class that found no common register goes to the frame
in the group of its class. -/
def Assignment.spillAffinity (assignment : Assignment) (index : ℕ) (affinity : Option ℕ)
    (preference : LocationKind) (representation : Representation) : Assignment :=
  match affinity with
  | none => assignment
  | some group =>
    if preference ≠ .none then assignment
    else assignment.toFrame index
      (if representation.kind = .neonQ then 4 else representation.words) representation.wordMask group

/-- `allocate_spill`: an interval goes to the frame in a group of its own. -/
def Assignment.allocateSpill (assignment : Assignment) (index : ℕ)
    (representation : Representation) : Option Assignment :=
  let bytes := if representation.kind = .neonQ then 16 else representation.words * 4
  if bytes = 0 then none
  else if assignment.spillGroup.length ≤ index then none
  else some (assignment.toFrame index (bytes / 4) representation.wordMask index)

/-- Assign a register, or another place outside the frame. -/
def Assignment.setLocation (assignment : Assignment) (index : ℕ) (location : Location) :
    Assignment :=
  { assignment with
    intervals := assignment.intervals.modify index fun interval =>
      { interval with location := location } }

/-- What the assignment of locations can lead to before the spill phase. -/
inductive Assigned : Assignment → Prop
  | preset (intervals : List Interval) (h : ∀ a ∈ intervals, a.location.kind ≠ .spill) :
      Assigned ⟨intervals, List.replicate intervals.length none⟩
  | affinity {assignment : Assignment} (index : ℕ) (affinity : Option ℕ) (preference : LocationKind)
      (representation : Representation) (h : Assigned assignment) :
      Assigned (assignment.spillAffinity index affinity preference representation)
  | spill {assignment assignment' : Assignment} (index : ℕ) (representation : Representation)
      (h : Assigned assignment)
      (hspill : assignment.allocateSpill index representation = some assignment') :
      Assigned assignment'
  | location {assignment : Assignment} (index : ℕ) (location : Location)
      (hlocation : location.kind ≠ .spill) (h : Assigned assignment) :
      Assigned (assignment.setLocation index location)

/-- Every interval of the frame has a group. -/
structure Assignment.Grouped (assignment : Assignment) : Prop where
  length : assignment.spillGroup.length = assignment.intervals.length
  grouped : ∀ i a, assignment.intervals[i]? = some a → a.location.kind = .spill →
    groupAt assignment.spillGroup i ≠ none

lemma Assignment.Grouped.toFrame {assignment : Assignment} (h : assignment.Grouped)
    (index words wordMask group : ℕ) : (assignment.toFrame index words wordMask group).Grouped where
  length := by simp only [Assignment.toFrame, List.length_set, List.length_modify, h.length]
  grouped := by
    intro i a ha hspill
    have hlt : i < assignment.intervals.length := by
      have := (List.getElem?_eq_some_iff.mp ha).1
      rwa [Assignment.toFrame, List.length_modify] at this
    simp only [Assignment.toFrame, List.getElem?_modify, groupAt, List.getD_eq_getElem?_getD,
      List.getElem?_set] at ha ⊢
    by_cases hi : index = i
    · subst hi
      rw [if_pos rfl, if_pos (h.length ▸ hlt), Option.getD_some]
      exact Option.some_ne_none _
    · obtain ⟨b, hb, rfl⟩ := Option.map_eq_some_iff.mp ha
      rw [if_neg hi] at hspill ⊢
      have := h.grouped i b hb hspill
      rwa [groupAt, List.getD_eq_getElem?_getD] at this

lemma Assigned.grouped {assignment : Assignment} (h : Assigned assignment) :
    assignment.Grouped := by
  induction h with
  | preset intervals h =>
    exact ⟨List.length_replicate, fun i a ha hspill =>
      absurd hspill (h a (List.mem_of_getElem? ha))⟩
  | affinity index affinity preference representation _ ih =>
    unfold Assignment.spillAffinity
    split
    next => exact ih
    next group =>
      split
      next => exact ih
      next => exact ih.toFrame _ _ _ _
  | spill index representation _ hspill ih =>
    dsimp only [Assignment.allocateSpill] at hspill
    generalize (if representation.kind = .neonQ then 16 else representation.words * 4) = bytes
      at hspill
    split at hspill
    · cases hspill
    split at hspill
    · cases hspill
    cases hspill
    exact ih.toFrame _ _ _ _
  | @location assignment index location hlocation _ ih =>
    refine ⟨by rw [Assignment.setLocation, List.length_modify, ih.length], fun i a ha hspill => ?_⟩
    simp only [Assignment.setLocation, List.getElem?_modify] at ha ⊢
    obtain ⟨b, hb, rfl⟩ := Option.map_eq_some_iff.mp ha
    split at hspill
    next => exact absurd hspill hlocation
    next => exact ih.grouped i b hb hspill

/-- The groups that the build hands over are well formed when their members do not
overlap. -/
lemma Assigned.spillGroups {assignment : Assignment} (h : Assigned assignment)
    (hseparate : Separate (SpillsMeet assignment.intervals) assignment.spillGroup) :
    SpillGroups assignment.intervals assignment.spillGroup :=
  ⟨hseparate, fun i a ha hspill hnone => absurd hnone (h.grouped.grouped i a ha hspill)⟩

end VitaSX2.RegionAllocation
