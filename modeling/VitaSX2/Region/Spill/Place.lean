/-
The placing of the spill classes in the frame, and what the spill phase promises.

While the classes are placed, interfering ones stay apart and everything stays
inside the frame.  Intervals that overlap are in different, interfering classes, so
that their bytes are apart too.
-/
import VitaSX2.Lib.BitField
import VitaSX2.Region.Spill.Classes

namespace VitaSX2.RegionAllocation

open Grouping Tiling

/-! ### Aligning -/

lemma alignUpWord_zero : alignUpWord 0 0 = 0 := by decide

/-- Clearing the bits of a mask takes at most the mask away. -/
lemma sub_le_and_not (x m : BitVec 32) : x.toNat - m.toNat ≤ (x &&& ~~~ m).toNat := by
  have hsum := BitField.and_not_add_and x m
  have hmask : (x &&& m).toNat ≤ m.toNat := by
    rw [BitVec.toNat_and]
    exact Nat.and_le_right
  omega

lemma le_alignUpWord {value alignment : ℕ} (hpos : 0 < alignment)
    (hlt : value + alignment < 2 ^ 32) : value ≤ alignUpWord value alignment := by
  refine le_trans (le_of_eq ?_) (sub_le_and_not _ _)
  have hmask : (BitVec.ofNat 32 alignment - 1#32).toNat = alignment - 1 := by
    rw [BitVec.toNat_sub_of_le (by
      rw [BitVec.le_def, BitVec.toNat_ofNat, BitVec.toNat_ofNat]
      omega), BitVec.toNat_ofNat, BitVec.toNat_ofNat]
    omega
  have hsum : (BitVec.ofNat 32 value + BitVec.ofNat 32 alignment - 1#32).toNat =
      value + alignment - 1 := by
    rw [BitVec.toNat_sub_of_le (by
      rw [BitVec.le_def, BitVec.toNat_add, BitVec.toNat_ofNat, BitVec.toNat_ofNat,
        BitVec.toNat_ofNat]
      omega), BitVec.toNat_add, BitVec.toNat_ofNat, BitVec.toNat_ofNat, BitVec.toNat_ofNat]
    omega
  rw [hmask, hsum]
  omega

/-! ### Placing one class -/

variable {intervals intervals' : List Interval} {groups : List (Option ℕ)}
  {left right current : SpillClass} {todo : List SpillClass} {frame : SpillFrame}
  {offset fuel limit : ℕ}

lemma classesInterfere_iff : classesInterfere intervals left right = true ↔
    ∃ i ∈ left.members, ∃ j ∈ right.members, ∃ a b,
      intervals[i]? = some a ∧ intervals[j]? = some b ∧ a.overlaps b = true := by
  simp only [classesInterfere, List.any_eq_true]
  refine exists_congr fun i => and_congr_right fun _ => exists_congr fun j =>
    and_congr_right fun _ => ⟨fun h => ?_, ?_⟩
  · split at h
    next a b ha hb => exact ⟨a, b, ha, hb, h⟩
    next => cases h
  · rintro ⟨a, b, ha, hb, h⟩
    rw [ha, hb]
    exact h

/-- What a lifetime is made of. -/
def Interval.lifetime (interval : Interval) : ℕ × ℕ × ℕ :=
  (interval.block, interval.start, interval.stop)

lemma Interval.overlaps_congr {a b a' b' : Interval} (ha : a'.lifetime = a.lifetime)
    (hb : b'.lifetime = b.lifetime) : a'.overlaps b' = a.overlaps b := by
  simp only [Interval.lifetime, Prod.mk.injEq] at ha hb
  simp only [Interval.overlaps, ha, hb]

lemma classesInterfere_mono
    (h : ∀ i : ℕ, intervals'[i]?.map Interval.lifetime = intervals[i]?.map Interval.lifetime)
    (hinterfere : classesInterfere intervals left right = true) :
    classesInterfere intervals' left right = true := by
  have hfind : ∀ (i : ℕ) (a : Interval), intervals[i]? = some a →
      ∃ a', intervals'[i]? = some a' ∧ a'.lifetime = a.lifetime := fun i a ha =>
    Option.map_eq_some_iff.mp ((h i).trans (congrArg (Option.map Interval.lifetime) ha))
  obtain ⟨i, hi, j, hj, a, b, ha, hb, hoverlaps⟩ := classesInterfere_iff.mp hinterfere
  obtain ⟨a', ha', hlife⟩ := hfind i a ha
  obtain ⟨b', hb', hlife'⟩ := hfind j b hb
  exact classesInterfere_iff.mpr
    ⟨i, hi, j, hj, a', b', ha', hb', (Interval.overlaps_congr hlife hlife').trans hoverlaps⟩

lemma getElem?_setOffsets (members : List ℕ) (intervals : List Interval) (i : ℕ) :
    (members.foldl (fun intervals member => intervals.modify member (Interval.setOffset offset))
      intervals)[i]? =
      if i ∈ members then intervals[i]?.map (Interval.setOffset offset) else intervals[i]? := by
  induction members generalizing intervals with
  | nil => rfl
  | cons member members ih =>
    rw [List.foldl_cons, ih, List.getElem?_modify]
    by_cases hi : member = i
    · subst hi
      rw [if_pos List.mem_cons_self]
      simp only [if_true]
      split
      next => cases intervals[member]? <;> rfl
      next => rfl
    · have hiff : i ∈ member :: members ↔ i ∈ members := by
        rw [List.mem_cons, or_iff_right (Ne.symm hi)]
      simp only [hiff, if_neg hi]
      cases intervals[i]? <;> rfl

/-- The classes that are placed: interfering ones lie apart, and all lie inside the
bytes that are in use. -/
structure Placed (intervals : List Interval) (groups : List (Option ℕ)) (limit : ℕ)
    (todo : List SpillClass) (frame : SpillFrame) : Prop where
  classified : Classified groups intervals.zipIdx (frame.placed ++ todo)
  apart : frame.placed.Pairwise fun left right =>
    classesInterfere intervals right left = true → Apart right.range left.range
  inside : ∀ spillClass ∈ frame.placed,
    spillClass.offset < 2 ^ 16 ∧ spillClass.offset + spillClass.bytes ≤ frame.spillBytes
  limit : frame.spillBytes ≤ limit
  offsets : ∀ spillClass ∈ frame.placed, ∀ i ∈ spillClass.members,
    frame.intervals[i]? = intervals[i]?.map (Interval.setOffset spillClass.offset)
  untouched : ∀ i, (∀ spillClass ∈ frame.placed, i ∉ spillClass.members) →
    frame.intervals[i]? = intervals[i]?

lemma Placed.lifetime (h : Placed intervals groups limit todo frame) (i : ℕ) :
    frame.intervals[i]?.map Interval.lifetime = intervals[i]?.map Interval.lifetime := by
  by_cases hplaced : ∃ spillClass ∈ frame.placed, i ∈ spillClass.members
  · obtain ⟨spillClass, hmem, hi⟩ := hplaced
    rw [h.offsets spillClass hmem i hi, Option.map_map]
    rfl
  · push Not at hplaced
    rw [h.untouched i hplaced]

/-- The search for an offset ends, at a place that no interfering class overlaps. -/
lemma Placed.findOffset_spec (h : Placed intervals groups limit (current :: todo) frame)
    (hfuel : 2 ^ 17 < fuel) :
    ∃ offset, findOffset fuel frame current = some offset ∧
      ∀ spillClass ∈ frame.placed, classesInterfere intervals current spillClass = true →
        Apart (offset, current.bytes) spillClass.range := by
  have hbytes : ∀ spillClass ∈ frame.placed ++ current :: todo, spillClass.bytes < 2 ^ 10 :=
    h.classified.bytes
  have hends : ∀ obstacle ∈
      (frame.placed.filter (classesInterfere frame.intervals current)).map SpillClass.range,
      obstacle.1 + obstacle.2 ≤ 2 ^ 17 := by
    intro obstacle hobstacle
    obtain ⟨spillClass, hmem, rfl⟩ := List.mem_map.mp hobstacle
    have hplaced := (List.mem_filter.mp hmem).1
    have := (h.inside spillClass hplaced).1
    have := hbytes spillClass (List.mem_append_left _ hplaced)
    simp only [SpillClass.range]
    omega
  obtain ⟨offset, hoffset⟩ : ∃ offset, findOffset fuel frame current = some offset := by
    rw [findOffset]
    rcases Nat.eq_zero_or_pos current.bytes with hzero | hpos
    · rw [hzero]
      exact ⟨0, FirstFit.search_empty alignUpWord_zero (by omega)⟩
    · refine FirstFit.search_isSome (fun v hv => le_alignUpWord ?_ ?_) hends (Nat.zero_le _) hfuel
      · omega
      · have := min_le_right current.bytes 16
        omega
  refine ⟨offset, hoffset, fun spillClass hmem hinterfere => ?_⟩
  refine FirstFit.search_spec hoffset _ (List.mem_map_of_mem (List.mem_filter.mpr ⟨hmem, ?_⟩))
  exact classesInterfere_mono h.lifetime hinterfere

lemma Placed.placeClass (h : Placed intervals groups limit (current :: todo) frame)
    (hfuel : 2 ^ 17 < fuel) :
    ∃ result, placeClass fuel limit frame current = some result ∧
      (∀ failure, result = .error failure → failure.1 = .spillCapacity) ∧
      ∀ frame', result = .ok frame' → Placed intervals groups limit todo frame' := by
  obtain ⟨offset, hoffset, hapart⟩ := h.findOffset_spec hfuel
  rw [RegionAllocation.placeClass, hoffset, Option.map_some]
  refine ⟨_, rfl, fun failure hfailure => ?_, fun frame' hframe => ?_⟩
  · split at hfailure
    next =>
      cases hfailure
      rfl
    next => cases hfailure
  · split at hframe
    next => cases hframe
    next hroom =>
      cases hframe
      rw [not_or, not_or, not_lt, not_lt, not_lt] at hroom
      obtain ⟨hlimit, hbytes, hword⟩ := hroom
      -- the members of the new class are in none of the others
      have hnew : ∀ spillClass ∈ frame.placed, ∀ i ∈ spillClass.members, i ∉ current.members := by
        intro spillClass hmem i hi hi'
        have heq := h.classified.class_unique (List.mem_append_left _ hmem)
          (List.mem_append_right _ List.mem_cons_self) hi hi'
        have hnodup := h.classified.nodup
        rw [List.map_append, List.map_cons] at hnodup
        exact (List.nodup_append.mp hnodup).2.2 _ (List.mem_map_of_mem hmem) _
          List.mem_cons_self (congrArg SpillClass.id heq)
      refine ⟨?_, ?_, ?_, ?_, ?_, ?_⟩
      · refine h.classified.congr ?_
        rw [List.append_assoc, List.singleton_append, List.map_append, List.map_append]
        rfl
      · refine List.pairwise_append.mpr ⟨h.apart, List.pairwise_singleton _ _, ?_⟩
        intro spillClass hmem other hother hinterfere
        obtain rfl := List.mem_singleton.mp hother
        exact hapart spillClass hmem hinterfere
      · intro spillClass hmem
        rcases List.mem_append.mp hmem with hmem | hmem
        · obtain ⟨hlt, hle⟩ := h.inside spillClass hmem
          exact ⟨hlt, hle.trans (le_max_left _ _)⟩
        · obtain rfl := List.mem_singleton.mp hmem
          exact ⟨by dsimp only; omega, le_max_right _ _⟩
      · exact max_le h.limit (by omega)
      · intro spillClass hmem i hi
        dsimp only
        rw [getElem?_setOffsets]
        rcases List.mem_append.mp hmem with hmem | hmem
        · rw [if_neg (hnew spillClass hmem i hi), h.offsets spillClass hmem i hi]
        · obtain rfl := List.mem_singleton.mp hmem
          rw [if_pos hi, h.untouched i fun other hother hi' => hnew other hother i hi' hi]
      · intro i hi
        dsimp only
        rw [getElem?_setOffsets, if_neg (hi _ (List.mem_append_right _
          (List.mem_singleton_self _)))]
        exact h.untouched i fun spillClass hmem => hi spillClass (List.mem_append_left _ hmem)

/-- All classes are placed, or one does not fit. -/
lemma Placed.placeClasses (h : Placed intervals groups limit todo frame) (hfuel : 2 ^ 17 < fuel) :
    ∃ result, placeClasses fuel limit todo frame = some result ∧
      (∀ failure, result = .error failure → failure.1 = .spillCapacity) ∧
      ∀ frame', result = .ok frame' → Placed intervals groups limit [] frame' := by
  induction todo generalizing frame with
  | nil =>
    refine ⟨.ok frame, rfl, fun failure hfailure => ?_, fun frame' hframe => ?_⟩
    · cases hfailure
    · cases hframe
      exact h
  | cons current todo ih =>
    obtain ⟨result, hresult, hfail, hplaced⟩ := h.placeClass hfuel
    rw [RegionAllocation.placeClasses, hresult]
    cases result with
    | error failure =>
      refine ⟨.error failure, rfl, hfail, fun frame' hframe => ?_⟩
      cases hframe
    | ok frame' => exact ih (hplaced frame' rfl)

/-! ### The spill phase -/

/-- The bytes of an interval in the frame. -/
def Interval.frameRange (interval : Interval) : ℕ × ℕ :=
  (interval.location.index, interval.location.words * 4)

/-- What the spill phase promises. -/
structure SpillPlan.Sound (plan : SpillPlan) (input : SpillInput) : Prop where
  /-- Two values of the frame that are alive together lie apart. -/
  apart : ∀ (i j : ℕ) (a b : Interval), i ≠ j → plan.intervals[i]? = some a →
    plan.intervals[j]? = some b → a.location.kind = .spill → b.location.kind = .spill →
    a.overlaps b = true → Apart a.frameRange b.frameRange
  inside : ∀ a ∈ plan.intervals, a.location.kind = .spill →
    a.location.index + a.location.words * 4 ≤ plan.spillBytes
  capacity : plan.spillBytes ≤ input.maxSpillBytes
  /-- The members of a class share their offset. -/
  oneOffset : ∀ (i j : ℕ) (a b : Interval), plan.intervals[i]? = some a →
    plan.intervals[j]? = some b → a.location.kind = .spill → b.location.kind = .spill →
    spillClassOf plan.spillGroup i = spillClassOf plan.spillGroup j →
    a.location.index = b.location.index
  /-- Only offsets of intervals of the frame are assigned. -/
  kept : ∀ i : ℕ, plan.intervals[i]? = input.intervals[i]? ∨
    ∃ a offset, input.intervals[i]? = some a ∧ a.location.kind = .spill ∧
      plan.intervals[i]? = some (a.setOffset offset)

/-- Where an interval of the frame ends up. -/
lemma Placed.exists_class (h : Placed intervals groups limit [] frame) {i : ℕ} {a : Interval}
    (ha : frame.intervals[i]? = some a) (hspill : a.location.kind = .spill) :
    ∃ spillClass ∈ frame.placed, i ∈ spillClass.members ∧
      spillClass.id = spillClassOf groups i ∧
      (∃ a', intervals[i]? = some a' ∧ a'.location.kind = .spill ∧
        a = a'.setOffset spillClass.offset) ∧
      a.location.index = spillClass.offset ∧ a.location.words * 4 ≤ spillClass.bytes := by
  have hclassified := h.classified
  rw [List.append_nil] at hclassified
  obtain ⟨spillClass, hmem, hi⟩ : ∃ spillClass ∈ frame.placed, i ∈ spillClass.members := by
    by_contra hnone
    push Not at hnone
    rw [h.untouched i hnone] at ha
    obtain ⟨spillClass, hmem, hi⟩ :=
      hclassified.complete a i (List.mem_zipIdx_iff_getElem?.mpr ha) hspill
    exact hnone spillClass hmem hi
  obtain ⟨hid, a', ha', hspill', hbytes⟩ := hclassified.members spillClass hmem i hi
  replace ha' : intervals[i]? = some a' := List.mem_zipIdx_iff_getElem?.mp ha'
  rw [h.offsets spillClass hmem i hi, ha', Option.map_some] at ha
  obtain rfl := Option.some.inj ha
  refine ⟨spillClass, hmem, hi, hid.symm, ⟨a', ha', hspill', rfl⟩, ?_, hbytes⟩
  exact Nat.mod_eq_of_lt (h.inside spillClass hmem).1

/-- The later of two interfering classes has been placed apart from the other one. -/
lemma Placed.apart_of_ne (h : Placed intervals groups limit todo frame)
    (hleft : left ∈ frame.placed) (hright : right ∈ frame.placed) (hne : left ≠ right)
    (hmeet : classesInterfere intervals left right = true)
    (hmeet' : classesInterfere intervals right left = true) : Apart left.range right.range := by
  have hpairs := List.Pairwise.forall_of_forall_of_flip
    (R := fun left right => left ≠ right → classesInterfere intervals left right = true →
      classesInterfere intervals right left = true → Apart left.range right.range)
    (fun spillClass _ hself => absurd rfl hself)
    (h.apart.imp fun hapart _ _ hinterfere => (hapart hinterfere).symm)
    (h.apart.imp fun hapart _ hinterfere _ => hapart hinterfere)
  exact hpairs hleft hright hne hmeet hmeet'

lemma Placed.spillPlan_sound {input : SpillInput}
    (h : Placed input.intervals groups input.maxSpillBytes [] frame)
    (hgroups : SpillGroups input.intervals groups) :
    SpillPlan.Sound ⟨frame.intervals, groups, frame.spillBytes⟩ input where
  apart := by
    intro i j a b hij ha hb hspill hspill' hoverlaps
    obtain ⟨left, hleft, hi, hid, ⟨a', ha', hkind, rfl⟩, hindex, hbytes⟩ :=
      h.exists_class ha hspill
    obtain ⟨right, hright, hj, hid', ⟨b', hb', hkind', rfl⟩, hindex', hbytes'⟩ :=
      h.exists_class hb hspill'
    have hne : left ≠ right := by
      rintro rfl
      exact hgroups.class_ne hij ⟨a', b', ha', hb', hkind, hkind', hoverlaps⟩
        (hid.symm.trans hid')
    have hmeet : classesInterfere input.intervals left right = true :=
      classesInterfere_iff.mpr ⟨i, hi, j, hj, a', b', ha', hb', hoverlaps⟩
    have hmeet' : classesInterfere input.intervals right left = true :=
      classesInterfere_iff.mpr ⟨j, hj, i, hi, b', a', hb', ha', Interval.overlaps_symm hoverlaps⟩
    have hranges := h.apart_of_ne hleft hright hne hmeet hmeet'
    simp only [Apart, Interval.frameRange, SpillClass.range] at hranges ⊢
    omega
  inside := by
    intro a hmem hspill
    obtain ⟨i, ha⟩ := List.mem_iff_getElem?.mp hmem
    obtain ⟨spillClass, hclass, -, -, -, hindex, hbytes⟩ := h.exists_class ha hspill
    have := (h.inside spillClass hclass).2
    dsimp only
    omega
  capacity := h.limit
  oneOffset := by
    intro i j a b ha hb hspill hspill' heq
    obtain ⟨left, hleft, -, hid, -, hindex, -⟩ := h.exists_class ha hspill
    obtain ⟨right, hright, -, hid', -, hindex', -⟩ := h.exists_class hb hspill'
    have hclassified := h.classified.nodup
    rw [List.append_nil] at hclassified
    obtain rfl : left = right := List.inj_on_of_nodup_map hclassified hleft hright
      (hid.trans (heq.trans hid'.symm))
    rw [hindex, hindex']
  kept := by
    intro i
    by_cases hplaced : ∃ spillClass ∈ frame.placed, i ∈ spillClass.members
    · obtain ⟨spillClass, hmem, hi⟩ := hplaced
      obtain ⟨-, a, ha, hspill, -⟩ :=
        h.classified.members spillClass (List.mem_append_left _ hmem) i hi
      replace ha : input.intervals[i]? = some a := List.mem_zipIdx_iff_getElem?.mp ha
      refine .inr ⟨a, spillClass.offset, ha, hspill, ?_⟩
      rw [h.offsets spillClass hmem i hi, ha]
      rfl
    · push Not at hplaced
      exact .inl (h.untouched i hplaced)

/-- The spill phase ends; if it does not run out of frame, values of the frame that
are alive together lie apart, inside the frame, and one class has one offset. -/
theorem spillPhase_sound (input : SpillInput) {fuel : ℕ}
    (hwords : ∀ a ∈ input.intervals, a.location.words < 2 ^ 8)
    (hgroups : SpillGroups input.intervals input.spillGroup)
    (hfuel : input.spillGroup.length + 2 ^ 17 < fuel) :
    ∃ result, spillPhase fuel input = some result ∧
      (∀ failure, result = .error failure → failure.1 = .spillCapacity) ∧
      ∀ plan, result = .ok plan → plan.Sound input := by
  obtain ⟨groups, hsettled, hgroups⟩ := exists_groups hgroups (by omega : _ < fuel)
  have hplaced : Placed input.intervals groups input.maxSpillBytes
      ((spillClasses input.intervals groups).insertionSort placedBefore)
      { intervals := input.intervals } :=
    { classified := (classified_spillClasses hwords).perm (List.perm_insertionSort _ _)
      apart := List.Pairwise.nil
      inside := fun spillClass hmem => (List.not_mem_nil hmem).elim
      limit := Nat.zero_le _
      offsets := fun spillClass hmem => (List.not_mem_nil hmem).elim
      untouched := fun i _ => rfl }
  obtain ⟨result, hresult, hfail, hok⟩ := hplaced.placeClasses (by omega : 2 ^ 17 < fuel)
  refine ⟨result.map fun frame => ⟨frame.intervals, groups, frame.spillBytes⟩, ?_, ?_, ?_⟩
  · rw [spillPhase, hsettled, Option.bind_some]
    dsimp only
    rw [hresult, Option.map_some]
  · intro failure hfailure
    cases result with
    | error other =>
      cases hfailure
      exact hfail _ rfl
    | ok frame => cases hfailure
  · intro plan hplan
    cases result with
    | error other => cases hplan
    | ok frame =>
      cases hplan
      exact (hok frame rfl).spillPlan_sound hgroups

/-- Two values that are alive together, and the parameter of the next block that the
first one is passed to. -/
def passedSpill : SpillInput where
  intervals :=
    [{ value := 0, block := 0, start := 0, stop := 4, location := ⟨.spill, 0, 1, 1⟩ },
      { value := 1, block := 0, start := 2, stop := 6, location := ⟨.spill, 0, 4, 15⟩ },
      { value := 2, block := 1, start := 0, stop := 3, location := ⟨.spill, 0, 1, 1⟩ }]
  spillGroup := [some 0, some 1, some 2]
  edges := [{ targetBlock := some 1, state := [invalidValue, 0], propagated := [1] }]
  valueCount := 3
  blockParameters := [[], [invalidValue, 2]]
  aliasRoot := id
  intervalForValue := [some 0, some 1, some 2]
  maxSpillBytes := 64

/-- The parameter shares the slot of the value that is passed to it. -/
example : (spillPhase 3 passedSpill).map (·.toOption.map fun plan =>
    (plan.intervals.map (·.location.index), plan.spillBytes)) = some (some ([16, 0, 16], 20)) := by
  decide +kernel

theorem spillPhase_sound_passed :
    ∃ result, spillPhase (2 ^ 17 + 4) passedSpill = some result ∧
      (∀ failure, result = .error failure → failure.1 = .spillCapacity) ∧
      ∀ plan, result = .ok plan → plan.Sound passedSpill := by
  have hgroups : ∀ i < 3, groupAt passedSpill.spillGroup i = some i := by decide
  refine spillPhase_sound passedSpill (by decide) ⟨?_, ?_⟩ (by decide)
  · rintro i j name hij hi hj ⟨a, b, ha, hb, -⟩
    rw [hgroups i (List.getElem?_eq_some_iff.mp ha).1] at hi
    rw [hgroups j (List.getElem?_eq_some_iff.mp hb).1] at hj
    exact hij (Option.some.inj (hi.trans hj.symm))
  · intro i a ha _ hnone
    rw [hgroups i (List.getElem?_eq_some_iff.mp ha).1] at hnone
    cases hnone

end VitaSX2.RegionAllocation
