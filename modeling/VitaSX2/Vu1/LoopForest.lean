/-
The forest of the natural loops: the parent of a loop is a smallest loop around it, the
depth counts the parents, and the owner of a block is the deepest loop with it.
-/
import VitaSX2.Lib.Laminar
import VitaSX2.Vu1.StructuredControl

namespace VitaSX2.Vu1

/-! ### Parents -/

/-- A loop with all blocks of another one, and more. -/
def Encloses (outer inner : NaturalLoop) : Prop :=
  inner.blocks.length < outer.blocks.length ∧ ∀ b ∈ inner.blocks, b ∈ outer.blocks

/-- One candidate for the parent of a loop. -/
def parentStep (loopIndex : ℕ) (loop : NaturalLoop) (parent : Option ℕ × Option ℕ)
    (candidate : NaturalLoop × ℕ) : Option ℕ × Option ℕ :=
  if candidate.2 = loopIndex ∨ candidate.1.blocks.length ≤ loop.blocks.length ∨
      (∃ size ∈ parent.2, size ≤ candidate.1.blocks.length) ∨
      ¬ loop.blocks.all (· ∈ candidate.1.blocks) then parent
  else (some candidate.2, some candidate.1.blocks.length)

lemma parentLoop_eq (loops : List NaturalLoop) (loopIndex : ℕ) (loop : NaturalLoop) :
    parentLoop loops loopIndex loop =
      (loops.zipIdx.foldl (parentStep loopIndex loop) (none, none)).1 := rfl

/-- What the candidates so far have left: a smallest loop around the loop, if any. -/
def ParentAmong (loop : NaturalLoop) (candidates : List (NaturalLoop × ℕ))
    (parent : Option ℕ × Option ℕ) : Prop :=
  parent = (none, none) ∧ (∀ x ∈ candidates, ¬ Encloses x.1 loop) ∨
    ∃ x ∈ candidates, parent = (some x.2, some x.1.blocks.length) ∧ Encloses x.1 loop ∧
      ∀ y ∈ candidates, Encloses y.1 loop → x.1.blocks.length ≤ y.1.blocks.length

lemma parentAmong_foldl {loopIndex : ℕ} {loop : NaturalLoop} (candidates : List (NaturalLoop × ℕ))
    (hself : ∀ x ∈ candidates, x.2 = loopIndex → x.1.blocks.length ≤ loop.blocks.length) :
    ParentAmong loop candidates (candidates.foldl (parentStep loopIndex loop) (none, none)) := by
  induction candidates using List.reverseRecOn with
  | nil => exact Or.inl ⟨rfl, fun x hx => nomatch hx⟩
  | append_singleton candidates last ih =>
    have hbefore := ih fun x hx => hself x (List.mem_append_left _ hx)
    have hlast := hself last (by simp)
    rw [List.foldl_append, List.foldl_cons, List.foldl_nil]
    generalize candidates.foldl (parentStep loopIndex loop) (none, none) = parent at hbefore
    unfold parentStep
    split
    next hskip =>
      -- A candidate that is passed over does not enclose the loop, or is not smaller.
      have hpassed : ¬ Encloses last.1 loop ∨
          ∃ size ∈ parent.2, size ≤ last.1.blocks.length := by
        rcases hskip with heq | hle | hsize | hall
        · exact Or.inl fun h => absurd h.1 (Nat.not_lt.mpr (hlast heq))
        · exact Or.inl fun h => absurd h.1 (Nat.not_lt.mpr hle)
        · exact Or.inr hsize
        · refine Or.inl fun h => hall (List.all_eq_true.mpr fun b hb => ?_)
          exact decide_eq_true (h.2 b hb)
      rcases hbefore with ⟨rfl, hnone⟩ | ⟨x, hx, rfl, hencloses, hleast⟩
      · refine Or.inl ⟨rfl, fun y hy => ?_⟩
        rcases List.mem_append.mp hy with hy | hy
        · exact hnone y hy
        · obtain rfl := List.mem_singleton.mp hy
          exact hpassed.resolve_right fun ⟨_, hsize, _⟩ => nomatch hsize
      · refine Or.inr ⟨x, List.mem_append_left _ hx, rfl, hencloses, fun y hy hy' => ?_⟩
        rcases List.mem_append.mp hy with hy | hy
        · exact hleast y hy hy'
        · obtain rfl := List.mem_singleton.mp hy
          obtain ⟨size, hsize, hle⟩ := hpassed.resolve_left (not_not.mpr hy')
          cases hsize
          exact hle
    next htake =>
      simp only [not_or, not_exists, not_and, Nat.not_le, not_not, List.all_eq_true,
        decide_eq_true_eq] at htake
      obtain ⟨-, hlarger, hsmaller, hall⟩ := htake
      refine Or.inr ⟨last, by simp, rfl, ⟨hlarger, hall⟩, fun y hy hy' => ?_⟩
      rcases List.mem_append.mp hy with hy | hy
      · rcases hbefore with ⟨rfl, hnone⟩ | ⟨x, hx, rfl, -, hleast⟩
        · exact absurd hy' (hnone y hy)
        · have hlt := hsmaller _ rfl
          have hle := hleast y hy hy'
          omega
      · exact (List.mem_singleton.mp hy) ▸ le_rfl

/-- The parent is a smallest loop around the loop. -/
lemma parentLoop_spec {loops : List NaturalLoop} {index : ℕ} {loop : NaturalLoop}
    (hindex : loops[index]? = some loop) :
    (parentLoop loops index loop = none ∧
        ∀ (i : ℕ) (l : NaturalLoop), loops[i]? = some l → ¬ Encloses l loop) ∨
      ∃ p parent, parentLoop loops index loop = some p ∧ loops[p]? = some parent ∧
        Encloses parent loop ∧ ∀ (i : ℕ) (l : NaturalLoop), loops[i]? = some l → Encloses l loop →
          parent.blocks.length ≤ l.blocks.length := by
  have hself : ∀ x ∈ loops.zipIdx, x.2 = index → x.1.blocks.length ≤ loop.blocks.length := by
    rintro ⟨l, i⟩ hx rfl
    rw [List.mem_zipIdx_iff_getElem?, hindex] at hx
    cases hx
    exact le_rfl
  rw [parentLoop_eq]
  rcases parentAmong_foldl loops.zipIdx hself with ⟨heq, hnone⟩ | ⟨⟨l, p⟩, hx, heq, hencloses, hleast⟩
  · rw [heq]
    exact Or.inl ⟨rfl, fun i l hl => hnone (l, i) (List.mem_zipIdx_iff_getElem?.mpr hl)⟩
  · rw [heq]
    exact Or.inr ⟨p, l, rfl, List.mem_zipIdx_iff_getElem?.mp hx, hencloses,
      fun i l hl => hleast (l, i) (List.mem_zipIdx_iff_getElem?.mpr hl)⟩

/-! ### Owners -/

/-- One loop in the search for the owner of a block. -/
def ownerStep (block : ℕ) (owner : Option ℕ × ℕ) (candidate : NaturalLoop × ℕ) : Option ℕ × ℕ :=
  if block ∉ candidate.1.blocks then owner
  else if owner.1 = none ∨ owner.2 ≤ candidate.1.nestingDepth then
    (some candidate.2, candidate.1.nestingDepth)
  else owner

lemma blockOwner_eq (loops : List NaturalLoop) (block : ℕ) :
    blockOwner loops block = (loops.zipIdx.foldl (ownerStep block) (none, 0)).1 := rfl

/-- What the loops so far have left: the deepest one with the block, if any. -/
def OwnerAmong (block : ℕ) (candidates : List (NaturalLoop × ℕ)) (owner : Option ℕ × ℕ) : Prop :=
  owner.1 = none ∧ (∀ x ∈ candidates, block ∉ x.1.blocks) ∨
    ∃ x ∈ candidates, owner = (some x.2, x.1.nestingDepth) ∧ block ∈ x.1.blocks ∧
      ∀ y ∈ candidates, block ∈ y.1.blocks → y.1.nestingDepth ≤ x.1.nestingDepth

lemma ownerAmong_foldl {block : ℕ} (candidates : List (NaturalLoop × ℕ)) :
    OwnerAmong block candidates (candidates.foldl (ownerStep block) (none, 0)) := by
  induction candidates using List.reverseRecOn with
  | nil => exact Or.inl ⟨rfl, fun x hx => nomatch hx⟩
  | append_singleton candidates last ih =>
    rw [List.foldl_append, List.foldl_cons, List.foldl_nil]
    generalize candidates.foldl (ownerStep block) (none, 0) = owner at ih
    unfold ownerStep
    split
    next hout =>
      rcases ih with ⟨heq, hnone⟩ | ⟨x, hx, rfl, hmem, hdeepest⟩
      · refine Or.inl ⟨heq, fun y hy => ?_⟩
        rcases List.mem_append.mp hy with hy | hy
        · exact hnone y hy
        · exact (List.mem_singleton.mp hy) ▸ hout
      · refine Or.inr ⟨x, List.mem_append_left _ hx, rfl, hmem, fun y hy hy' => ?_⟩
        rcases List.mem_append.mp hy with hy | hy
        · exact hdeepest y hy hy'
        · exact absurd ((List.mem_singleton.mp hy) ▸ hy') hout
    next hin =>
      have hlast : block ∈ last.1.blocks := not_not.mp hin
      split
      next htake =>
        refine Or.inr ⟨last, by simp, rfl, hlast, fun y hy hy' => ?_⟩
        rcases List.mem_append.mp hy with hy | hy
        · rcases ih with ⟨-, hnone⟩ | ⟨x, hx, rfl, -, hdeepest⟩
          · exact absurd hy' (hnone y hy)
          · exact Nat.le_trans (hdeepest y hy hy') (htake.resolve_left (Option.some_ne_none _))
        · exact (List.mem_singleton.mp hy) ▸ le_rfl
      next hkeep =>
        rw [not_or, Nat.not_le] at hkeep
        rcases ih with ⟨heq, -⟩ | ⟨x, hx, rfl, hmem, hdeepest⟩
        · exact absurd heq hkeep.1
        · refine Or.inr ⟨x, List.mem_append_left _ hx, rfl, hmem, fun y hy hy' => ?_⟩
          rcases List.mem_append.mp hy with hy | hy
          · exact hdeepest y hy hy'
          · exact (List.mem_singleton.mp hy) ▸ hkeep.2.le

/-- The owner of a block is a deepest loop with the block. -/
lemma blockOwner_spec (loops : List NaturalLoop) (block : ℕ) :
    (blockOwner loops block = none ∧ ∀ l ∈ loops, block ∉ l.blocks) ∨
      ∃ index loop, blockOwner loops block = some index ∧ loops[index]? = some loop ∧
        block ∈ loop.blocks ∧ ∀ l ∈ loops, block ∈ l.blocks → l.nestingDepth ≤ loop.nestingDepth := by
  have hindexed : ∀ l ∈ loops, ∃ i, (l, i) ∈ loops.zipIdx := by
    intro l hl
    obtain ⟨i, hi⟩ := List.mem_iff_getElem?.mp hl
    exact ⟨i, List.mem_zipIdx_iff_getElem?.mpr hi⟩
  rw [blockOwner_eq]
  rcases ownerAmong_foldl loops.zipIdx with
    ⟨heq, hnone⟩ | ⟨⟨loop, index⟩, hx, heq, hmem, hdeepest⟩
  · refine Or.inl ⟨heq, fun l hl => ?_⟩
    obtain ⟨i, hi⟩ := hindexed l hl
    exact hnone _ hi
  · rw [heq]
    refine Or.inr ⟨index, loop, rfl, List.mem_zipIdx_iff_getElem?.mp hx, hmem, fun l hl hl' => ?_⟩
    obtain ⟨i, hi⟩ := hindexed l hl
    exact hdeepest _ hi hl'

/-! ### Depths -/

/-- A chain of parents that ends before its bound has one depth for all bounds. -/
lemma nestingDepth_eq {parents : List (Option ℕ)} (measure : ℕ → ℕ)
    (hmeasure : ∀ i p, parents.getD i none = some p → measure p < measure i) {i fuel fuel' : ℕ}
    (hfuel : measure i ≤ fuel) (hfuel' : measure i ≤ fuel') :
    nestingDepth parents fuel (parents.getD i none) =
      nestingDepth parents fuel' (parents.getD i none) := by
  induction fuel generalizing i fuel' with
  | zero =>
    cases hparent : parents.getD i none with
    | none => cases fuel' <;> rfl
    | some p =>
      have hlt := hmeasure i p hparent
      omega
  | succ fuel ih =>
    cases hparent : parents.getD i none with
    | none => cases fuel' <;> rfl
    | some p =>
      have hlt := hmeasure i p hparent
      cases fuel' with
      | zero => omega
      | succ fuel' =>
        have hfuels : measure p ≤ fuel ∧ measure p ≤ fuel' := by omega
        rw [nestingDepth, nestingDepth, ih hfuels.1 hfuels.2]

section Forest

variable {analysis : ProgramAnalysis} {bases : List NaturalLoop} {i : ℕ}

/-- The parents of the loops. -/
def forestParents (loops : List NaturalLoop) : List (Option ℕ) :=
  loops.zipIdx.map fun (loop, index) => parentLoop loops index loop

lemma getElem?_loopForest : (loopForest analysis bases)[i]? = (bases[i]?).map fun loop =>
    { loop with
      singleEntry := singleEntry analysis loop
      parentLoop := (forestParents bases).getD i none
      childLoops := (List.range bases.length).filter fun child =>
        (forestParents bases).getD child none = some i
      nestingDepth := nestingDepth (forestParents bases) bases.length
        ((forestParents bases).getD i none) } := by
  rw [loopForest, List.getElem?_map, List.getElem?_zipIdx, Nat.zero_add, Option.map_map]
  rfl

lemma length_loopForest : (loopForest analysis bases).length = bases.length := by
  rw [loopForest, List.length_map, List.length_zipIdx]

lemma getD_forestParents {base : NaturalLoop} (h : bases[i]? = some base) :
    (forestParents bases).getD i none = parentLoop bases i base := by
  rw [forestParents, List.getD_eq_getElem?_getD, List.getElem?_map, List.getElem?_zipIdx, h,
    Nat.zero_add]
  rfl

/-- The size of a loop. -/
def loopSize (loops : List NaturalLoop) (i : ℕ) : ℕ := (loops[i]?).elim 0 (·.blocks.length)

/-- The number of larger loops. -/
def largerLoops (loops : List NaturalLoop) (i : ℕ) : ℕ :=
  ((Finset.range loops.length).filter fun j => loopSize loops i < loopSize loops j).card

lemma largerLoops_le : largerLoops bases i ≤ bases.length :=
  (Finset.card_filter_le _ _).trans_eq (Finset.card_range _)

/-- Fewer loops are larger than a parent. -/
lemma largerLoops_parent {p : ℕ} (h : (forestParents bases).getD i none = some p) :
    largerLoops bases p < largerLoops bases i := by
  cases hi : bases[i]? with
  | none =>
    have hlength : (forestParents bases).length = bases.length := by
      rw [forestParents, List.length_map, List.length_zipIdx]
    rw [List.getD_eq_getElem?_getD, List.getElem?_eq_none
      (hlength ▸ List.getElem?_eq_none_iff.mp hi)] at h
    cases h
  | some base =>
    rw [getD_forestParents hi] at h
    rcases parentLoop_spec hi with ⟨hnone, -⟩ | ⟨p', parent, heq, hp, hencloses, -⟩
    · rw [hnone] at h
      cases h
    · rw [heq] at h
      cases h
      have hsize : loopSize bases i < loopSize bases p := by
        rw [loopSize, loopSize, hi, hp]
        exact hencloses.1
      have hlt : p < bases.length := (List.getElem?_eq_some_iff.mp hp).1
      refine Finset.card_lt_card (Finset.ssubset_iff_subset_ne.mpr ⟨fun j hj => ?_, fun heq => ?_⟩)
      · obtain ⟨hj, hlarger⟩ := Finset.mem_filter.mp hj
        exact Finset.mem_filter.mpr ⟨hj, hsize.trans hlarger⟩
      · have hmem := heq.symm ▸ Finset.mem_filter.mpr ⟨Finset.mem_range.mpr hlt, hsize⟩
        exact absurd (Finset.mem_filter.mp hmem).2 (lt_irrefl _)

/-- The blocks of a loop as a set. -/
def loopBlocks (loops : List NaturalLoop) (i : ℕ) : Finset ℕ :=
  (loops[i]?).elim ∅ (·.blocks.toFinset)

lemma mem_loopBlocks {loops : List NaturalLoop} {loop : NaturalLoop} (h : loops[i]? = some loop)
    {b : ℕ} : b ∈ loopBlocks loops i ↔ b ∈ loop.blocks := by
  rw [loopBlocks, h]
  exact List.mem_toFinset

lemma encloses_iff {inner outer : NaturalLoop} (hinner : inner.blocks.Nodup)
    (houter : outer.blocks.Nodup) :
    Encloses outer inner ↔ inner.blocks.toFinset ⊂ outer.blocks.toFinset := by
  constructor
  · rintro ⟨hlt, hall⟩
    refine Finset.ssubset_iff_subset_ne.mpr ⟨fun b hb => ?_, fun heq => ?_⟩
    · exact List.mem_toFinset.mpr (hall b (List.mem_toFinset.mp hb))
    · have hcard := congrArg Finset.card heq
      rw [List.toFinset_card_of_nodup hinner, List.toFinset_card_of_nodup houter] at hcard
      omega
  · intro hsub
    have hlt := Finset.card_lt_card hsub
    rw [List.toFinset_card_of_nodup hinner, List.toFinset_card_of_nodup houter] at hlt
    exact ⟨hlt, fun b hb => List.mem_toFinset.mp (hsub.subset (List.mem_toFinset.mpr hb))⟩

/-- The parents and depths of the forest. -/
theorem depths_loopForest (hnodup : ∀ base ∈ bases, base.blocks.Nodup) :
    Laminar.Depths (loopBlocks (loopForest analysis bases)) (loopForest analysis bases).length
      (fun i => ((loopForest analysis bases)[i]?).bind (·.parentLoop))
      (fun i => ((loopForest analysis bases)[i]?).elim 0 (·.nestingDepth)) := by
  -- The forest has the blocks of the loops it is made of.
  have hblocks : ∀ i, loopBlocks (loopForest analysis bases) i = loopBlocks bases i := by
    intro i
    rw [loopBlocks, loopBlocks, getElem?_loopForest]
    cases bases[i]? <;> rfl
  have hbase : ∀ i < (loopForest analysis bases).length, ∃ base, bases[i]? = some base ∧
      loopBlocks bases i = base.blocks.toFinset ∧ base.blocks.Nodup ∧
      ((loopForest analysis bases)[i]?).bind (·.parentLoop) = parentLoop bases i base ∧
      ((loopForest analysis bases)[i]?).elim 0 (·.nestingDepth) =
        nestingDepth (forestParents bases) bases.length (parentLoop bases i base) := by
    intro i hi
    have hget := List.getElem?_eq_getElem (length_loopForest ▸ hi : i < bases.length)
    refine ⟨_, hget, by rw [loopBlocks, hget]; rfl, hnodup _ (List.getElem_mem _), ?_, ?_⟩
    · rw [getElem?_loopForest, hget, ← getD_forestParents hget]
      rfl
    · rw [getElem?_loopForest, hget, ← getD_forestParents hget]
      rfl
  have hencloses : ∀ {i j : ℕ} {inner outer : NaturalLoop}, bases[i]? = some inner →
      bases[j]? = some outer → (loopBlocks bases i ⊂ loopBlocks bases j ↔ Encloses outer inner) := by
    intro i j inner outer hi hj
    rw [encloses_iff (hnodup _ (List.mem_of_getElem? hi)) (hnodup _ (List.mem_of_getElem? hj)),
      loopBlocks, loopBlocks, hi, hj]
    rfl
  constructor
  · intro i hi hnone
    obtain ⟨base, hget, -, -, hparent, hdepth⟩ := hbase i hi
    rw [hparent] at hnone
    refine ⟨by rw [hdepth, hnone]; cases bases.length <;> rfl, fun j hj => ?_⟩
    obtain ⟨outer, houter, -⟩ := hbase j hj
    rw [hblocks, hblocks, hencloses hget houter]
    rcases parentLoop_spec hget with ⟨-, hlargest⟩ | ⟨p, parent, heq, -⟩
    · exact hlargest j outer houter
    · rw [hnone] at heq
      cases heq
  · intro i hi p hsome
    obtain ⟨base, hget, -, -, hparent, hdepth⟩ := hbase i hi
    rw [hparent] at hsome
    rcases parentLoop_spec hget with ⟨hnone, -⟩ | ⟨p', parent, heq, hp, hsub, hleast⟩
    · rw [hnone] at hsome
      cases hsome
    rw [heq] at hsome
    cases hsome
    have hlt : p < bases.length := (List.getElem?_eq_some_iff.mp hp).1
    have hlarger : largerLoops bases p < largerLoops bases i :=
      largerLoops_parent ((getD_forestParents hget).trans heq)
    obtain ⟨parent', hp', hcard, hparentNodup, -, hdepth'⟩ :=
      hbase p (length_loopForest.symm ▸ hlt)
    rw [hp] at hp'
    cases hp'
    refine ⟨length_loopForest.symm ▸ hlt, ?_, ?_, fun j hj hsubj => ?_⟩
    · rw [hdepth, heq, hdepth', ← getD_forestParents hp]
      have hle : largerLoops bases i ≤ bases.length := largerLoops_le
      obtain ⟨fuel, hfuel⟩ := Nat.exists_eq_succ_of_ne_zero (n := bases.length) (by omega)
      have hbound : largerLoops bases p ≤ bases.length ∧ largerLoops bases p ≤ fuel := by omega
      rw [nestingDepth_eq (largerLoops bases) (fun _ _ => largerLoops_parent) hbound.1 hbound.2,
        hfuel]
      rfl
    · rw [hblocks, hblocks, hencloses hget hp]
      exact hsub
    · obtain ⟨outer, houter, hcard', houterNodup, -⟩ := hbase j hj
      rw [hblocks, hblocks, hencloses hget houter] at hsubj
      rw [hblocks, hblocks, hcard, hcard', List.toFinset_card_of_nodup hparentNodup,
        List.toFinset_card_of_nodup houterNodup]
      exact hleast j outer houter hsubj

end Forest

end VitaSX2.Vu1
