/-
The spill classes: one for each group, with the intervals of the frame as their
members.  Intervals that overlap are in different classes.
-/
import VitaSX2.Region.Spill.Merge

namespace VitaSX2.RegionAllocation

open Grouping

variable {groups : List (Option ℕ)} {classes : List SpillClass} {group index bytes : ℕ}

lemma mem_addMember {spillClass : SpillClass} (h : spillClass ∈ addMember group index bytes classes) :
    spillClass ∈ classes ∨ ∃ old : SpillClass, (old ∈ classes ∨ old = { id := group, members := [] }) ∧
      old.id = group ∧ spillClass =
        { old with members := old.members ++ [index], bytes := max old.bytes bytes } := by
  induction classes with
  | nil =>
    rw [addMember, List.mem_singleton] at h
    exact .inr ⟨{ id := group, members := [] }, .inr rfl, rfl, h⟩
  | cons candidate classes ih =>
    rw [addMember] at h
    split at h
    next hid =>
      rcases List.mem_cons.mp h with rfl | h
      · exact .inr ⟨candidate, .inl List.mem_cons_self, hid, rfl⟩
      · exact .inl (List.mem_cons_of_mem _ h)
    next =>
      rcases List.mem_cons.mp h with rfl | h
      · exact .inl List.mem_cons_self
      · rcases ih h with hold | ⟨old, hold, hrest⟩
        · exact .inl (List.mem_cons_of_mem _ hold)
        · exact .inr ⟨old, hold.imp_left (List.mem_cons_of_mem _), hrest⟩

/-- The new member is in a class, and no member leaves its class. -/
lemma members_addMember :
    (∃ spillClass ∈ addMember group index bytes classes, index ∈ spillClass.members) ∧
      ∀ old ∈ classes, ∃ spillClass ∈ addMember group index bytes classes,
        ∀ i ∈ old.members, i ∈ spillClass.members := by
  induction classes with
  | nil =>
    exact ⟨⟨_, List.mem_singleton_self _, List.mem_singleton_self _⟩,
      fun old hold => (List.not_mem_nil hold).elim⟩
  | cons candidate classes ih =>
    obtain ⟨⟨spillClass, hmem, hindex⟩, hold⟩ := ih
    rw [addMember]
    split
    next =>
      refine ⟨⟨_, List.mem_cons_self, by simp⟩, fun old hmem => ?_⟩
      rcases List.mem_cons.mp hmem with rfl | hmem
      · exact ⟨_, List.mem_cons_self, fun i hi => List.mem_append_left _ hi⟩
      · exact ⟨old, List.mem_cons_of_mem _ hmem, fun i hi => hi⟩
    next =>
      refine ⟨⟨spillClass, List.mem_cons_of_mem _ hmem, hindex⟩, fun old hmem' => ?_⟩
      rcases List.mem_cons.mp hmem' with rfl | hmem'
      · exact ⟨old, List.mem_cons_self, fun i hi => hi⟩
      · obtain ⟨other, hother, hsub⟩ := hold old hmem'
        exact ⟨other, List.mem_cons_of_mem _ hother, hsub⟩

lemma map_id_addMember :
    (addMember group index bytes classes).map SpillClass.id =
      if group ∈ classes.map SpillClass.id then classes.map SpillClass.id
      else classes.map SpillClass.id ++ [group] := by
  induction classes with
  | nil => rfl
  | cons candidate classes ih =>
    rw [addMember]
    by_cases hid : candidate.id = group
    · rw [if_pos hid, if_pos (by simp [hid])]
      rfl
    · rw [if_neg hid, List.map_cons, ih, List.map_cons]
      by_cases hmem : group ∈ classes.map SpillClass.id
      · rw [if_pos hmem, if_pos (List.mem_cons_of_mem _ hmem)]
      · rw [if_neg hmem, if_neg (fun h => (List.mem_cons.mp h).elim (fun h => hid h.symm) hmem),
          List.cons_append]

/-- The classes of the intervals of the frame that occur among the entries. -/
structure Classified (groups : List (Option ℕ)) (entries : List (Interval × ℕ))
    (classes : List SpillClass) : Prop where
  nodup : (classes.map SpillClass.id).Nodup
  members : ∀ spillClass ∈ classes, ∀ i ∈ spillClass.members,
    spillClassOf groups i = spillClass.id ∧
      ∃ a, (a, i) ∈ entries ∧ a.location.kind = .spill ∧ a.location.words * 4 ≤ spillClass.bytes
  complete : ∀ a i, (a, i) ∈ entries → a.location.kind = .spill →
    ∃ spillClass ∈ classes, i ∈ spillClass.members
  bytes : ∀ spillClass ∈ classes, spillClass.bytes < 2 ^ 10

lemma Classified.skip {entries : List (Interval × ℕ)} {entry : Interval × ℕ}
    (h : Classified groups entries classes) (hkind : entry.1.location.kind ≠ .spill) :
    Classified groups (entries ++ [entry]) classes where
  nodup := h.nodup
  members := by
    intro spillClass hmem i hi
    obtain ⟨hid, a, ha, hspill, hbytes⟩ := h.members spillClass hmem i hi
    exact ⟨hid, a, List.mem_append_left _ ha, hspill, hbytes⟩
  complete := by
    intro a i hentry hspill
    rcases List.mem_append.mp hentry with hentry | hentry
    · exact h.complete a i hentry hspill
    · rw [← List.mem_singleton.mp hentry] at hkind
      exact absurd hspill hkind
  bytes := h.bytes

lemma Classified.addMember {entries : List (Interval × ℕ)} {interval : Interval}
    (h : Classified groups entries classes) (hkind : interval.location.kind = .spill)
    (hwords : interval.location.words < 2 ^ 8) :
    Classified groups (entries ++ [(interval, index)])
      (addMember (spillClassOf groups index) index (interval.location.words * 4) classes) where
  nodup := by
    rw [map_id_addMember]
    split
    next => exact h.nodup
    next hnew =>
      exact h.nodup.append (List.nodup_singleton _) (List.disjoint_singleton.mpr hnew)
  members := by
    intro spillClass hmem i hi
    rcases mem_addMember hmem with hold | ⟨old, hold, hid, rfl⟩
    · obtain ⟨hid, a, ha, hrest⟩ := h.members spillClass hold i hi
      exact ⟨hid, a, List.mem_append_left _ ha, hrest⟩
    · rcases List.mem_append.mp hi with hi | hi
      · rcases hold with hold | rfl
        · obtain ⟨hid', a, ha, hspill, hbytes⟩ := h.members old hold i hi
          exact ⟨hid', a, List.mem_append_left _ ha, hspill, hbytes.trans (le_max_left _ _)⟩
        · exact (List.not_mem_nil hi).elim
      · obtain rfl := List.mem_singleton.mp hi
        exact ⟨hid.symm, interval, List.mem_append_right _ (List.mem_singleton_self _), hkind,
          le_max_right _ _⟩
  complete := by
    intro a i hentry hspill
    obtain ⟨hnew, hkeep⟩ := @members_addMember classes (spillClassOf groups index) index
      (interval.location.words * 4)
    rcases List.mem_append.mp hentry with hentry | hentry
    · obtain ⟨old, hold, hi⟩ := h.complete a i hentry hspill
      obtain ⟨spillClass, hmem, hsub⟩ := hkeep old hold
      exact ⟨spillClass, hmem, hsub i hi⟩
    · cases List.mem_singleton.mp hentry
      exact hnew
  bytes := by
    intro spillClass hmem
    rcases mem_addMember hmem with hold | ⟨old, hold, -, rfl⟩
    · exact h.bytes spillClass hold
    · refine max_lt ?_ (by omega)
      rcases hold with hold | rfl
      · exact h.bytes old hold
      · exact Nat.two_pow_pos 10

lemma classified_spillClasses {intervals : List Interval}
    (hwords : ∀ a ∈ intervals, a.location.words < 2 ^ 8) :
    Classified groups intervals.zipIdx (spillClasses intervals groups) := by
  have hstep : ∀ (entries done : List (Interval × ℕ)) (classes : List SpillClass),
      (∀ entry ∈ entries, entry.1.location.words < 2 ^ 8) → Classified groups done classes →
      Classified groups (done ++ entries) (entries.foldl (fun classes entry =>
        if entry.1.location.kind = .spill then
          addMember (spillClassOf groups entry.2) entry.2 (entry.1.location.words * 4) classes
        else classes) classes) := by
    intro entries
    induction entries with
    | nil =>
      intro done classes _ h
      rwa [List.append_nil]
    | cons entry entries ih =>
      intro done classes hentries h
      rw [List.append_cons, List.foldl_cons]
      refine ih _ _ (fun other hother => hentries other (List.mem_cons_of_mem _ hother)) ?_
      split
      next hkind => exact h.addMember hkind (hentries entry List.mem_cons_self)
      next hkind => exact h.skip hkind
  have hempty : Classified groups [] [] :=
    ⟨List.nodup_nil, fun _ h => (List.not_mem_nil h).elim, fun _ _ h => (List.not_mem_nil h).elim,
      fun _ h => (List.not_mem_nil h).elim⟩
  refine hstep intervals.zipIdx [] [] (fun entry hentry => ?_) hempty
  exact hwords entry.1 (List.fst_mem_of_mem_zipIdx hentry)

lemma Classified.perm {entries : List (Interval × ℕ)} {others : List SpillClass}
    (h : Classified groups entries classes) (hperm : others.Perm classes) :
    Classified groups entries others where
  nodup := (hperm.map SpillClass.id).nodup_iff.mpr h.nodup
  members := fun spillClass hmem => h.members spillClass (hperm.mem_iff.mp hmem)
  complete := by
    intro a i hentry hspill
    obtain ⟨spillClass, hmem, hi⟩ := h.complete a i hentry hspill
    exact ⟨spillClass, hperm.mem_iff.mpr hmem, hi⟩
  bytes := fun spillClass hmem => h.bytes spillClass (hperm.mem_iff.mp hmem)

/-- What a class holds, wherever it lies in the frame. -/
def SpillClass.content (spillClass : SpillClass) : ℕ × List ℕ × ℕ :=
  (spillClass.id, spillClass.members, spillClass.bytes)

lemma Classified.congr {entries : List (Interval × ℕ)} {others : List SpillClass}
    (h : Classified groups entries classes)
    (heq : others.map SpillClass.content = classes.map SpillClass.content) :
    Classified groups entries others := by
  have hids : others.map SpillClass.id = classes.map SpillClass.id := by
    have := congrArg (List.map Prod.fst) heq
    rwa [List.map_map, List.map_map] at this
  -- every class has a counterpart with the same content on the other side
  have hfind : ∀ {l l' : List SpillClass}, l.map SpillClass.content = l'.map SpillClass.content →
      ∀ spillClass ∈ l, ∃ other ∈ l', spillClass.id = other.id ∧
        spillClass.members = other.members ∧ spillClass.bytes = other.bytes := by
    intro l l' hcontent spillClass hmem
    obtain ⟨other, hother, hsame⟩ :=
      List.mem_map.mp (hcontent ▸ List.mem_map_of_mem (f := SpillClass.content) hmem)
    simp only [SpillClass.content, Prod.mk.injEq] at hsame
    exact ⟨other, hother, hsame.1.symm, hsame.2.1.symm, hsame.2.2.symm⟩
  refine ⟨hids ▸ h.nodup, fun spillClass hmem i hi => ?_, fun a i hentry hspill => ?_,
    fun spillClass hmem => ?_⟩
  · obtain ⟨other, hother, hid, hmembers, hbytes⟩ := hfind heq spillClass hmem
    rw [hid, hbytes]
    exact h.members other hother i (hmembers ▸ hi)
  · obtain ⟨spillClass, hmem, hi⟩ := h.complete a i hentry hspill
    obtain ⟨other, hother, -, hmembers, -⟩ := hfind heq.symm spillClass hmem
    exact ⟨other, hother, hmembers ▸ hi⟩
  · obtain ⟨other, hother, -, -, hbytes⟩ := hfind heq spillClass hmem
    exact hbytes ▸ h.bytes other hother

/-- A member is in one class only. -/
lemma Classified.class_unique {entries : List (Interval × ℕ)} {left right : SpillClass}
    (h : Classified groups entries classes) (hleft : left ∈ classes) (hright : right ∈ classes)
    {i : ℕ} (hi : i ∈ left.members) (hi' : i ∈ right.members) : left = right :=
  List.inj_on_of_nodup_map h.nodup hleft hright
    ((h.members left hleft i hi).1.symm.trans (h.members right hright i hi').1)

/-- Two intervals of the frame with overlapping lifetimes are in different classes. -/
lemma SpillGroups.class_ne {intervals : List Interval}
    (h : SpillGroups intervals groups) {i j : ℕ} (hij : i ≠ j)
    (hmeet : SpillsMeet intervals i j) : spillClassOf groups i ≠ spillClassOf groups j := by
  obtain ⟨a, b, ha, hb, hspill, hspill', -⟩ := id hmeet
  intro heq
  unfold spillClassOf at heq
  cases hi : groupAt groups i with
  | none =>
    cases hj : groupAt groups j with
    | none =>
      rw [hi, hj] at heq
      exact hij heq
    | some name =>
      rw [hi, hj] at heq
      refine h.ungrouped i a ha hspill hi ?_
      exact (show i = name from heq) ▸ mem_of_groupAt hj
  | some name =>
    cases hj : groupAt groups j with
    | none =>
      rw [hi, hj] at heq
      refine h.ungrouped j b hb hspill' hj ?_
      exact (show name = j from heq) ▸ mem_of_groupAt hi
    | some name' =>
      rw [hi, hj] at heq
      obtain rfl : name = name' := heq
      exact h.separate i j name hij hi hj hmeet

end VitaSX2.RegionAllocation
