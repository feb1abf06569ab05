/-
The nesting of the loops.

`Build` refuses loops that overlap, so the others are nested or disjoint.  No two
headers have the same loop, because each of them would dominate the other.
-/
import VitaSX2.Lib.Laminar
import VitaSX2.Region.Island.Loops

namespace VitaSX2.SemanticIsland

open Walks Laminar

variable {masks : List (BitVec 64)} {outer inner : BitVec 64} {child : ℕ}

/-! ### Masks -/

lemma maskContains_iff : maskContains outer inner ↔ members inner ⊆ members outer := by
  rw [maskContains, beq_iff_eq]
  constructor
  · intro h i hi
    rw [mem_members] at hi ⊢
    rw [← h, BitVec.getLsbD_and, Bool.and_eq_true] at hi
    exact hi.1
  · intro h
    apply BitVec.eq_of_getLsbD_eq
    intro i _
    rw [BitVec.getLsbD_and, Bool.eq_iff_iff, Bool.and_eq_true]
    exact and_iff_right_of_imp fun hi => mem_members.mp (h (mem_members.mpr hi))

/-- Two masks that do not overlap are nested or disjoint. -/
lemma nested_of_not_overlaps (h : overlaps outer inner = false) :
    members outer ⊆ members inner ∨ members inner ⊆ members outer ∨
      Disjoint (members outer) (members inner) := by
  simp only [overlaps, Bool.and_eq_false_iff, bne_eq_false_iff_eq, Bool.not_eq_false'] at h
  rw [maskContains_iff, maskContains_iff] at h
  rcases h with (hzero | hsub) | hsub
  · refine Or.inr (Or.inr (Finset.disjoint_left.mpr fun i hi hi' => ?_))
    have hboth : (outer &&& inner).getLsbD i := by
      rw [BitVec.getLsbD_and, Bool.and_eq_true]
      exact ⟨mem_members.mp hi, mem_members.mp hi'⟩
    rw [hzero, BitVec.getLsbD_zero] at hboth
    cases hboth
  · exact Or.inr (Or.inl hsub)
  · exact Or.inl hsub

/-- The blocks of the masks. -/
def blockSets (masks : List (BitVec 64)) (index : ℕ) : Finset ℕ := members (masks.getD index 0#64)

lemma nested_of_findOverlap (h : findOverlap masks = none) {i j : ℕ} (hi : i < masks.length)
    (hj : j < masks.length) :
    blockSets masks i ⊆ blockSets masks j ∨ blockSets masks j ⊆ blockSets masks i ∨
      Disjoint (blockSets masks i) (blockSets masks j) := by
  have hpair : ∀ left right, left < right → right < masks.length →
      overlaps (masks.getD left 0#64) (masks.getD right 0#64) = false := by
    intro left right hlt hright
    have hnone := List.find?_eq_none.mp h (left, right) <| List.mem_flatMap.mpr
      ⟨left, List.mem_range.mpr (hlt.trans hright), List.mem_map.mpr
        ⟨right, List.mem_filter.mpr ⟨List.mem_range.mpr hright, decide_eq_true hlt⟩, rfl⟩⟩
    simpa using hnone
  rcases Nat.lt_trichotomy i j with hlt | rfl | hlt
  · exact nested_of_not_overlaps (hpair i j hlt hj)
  · exact Or.inl (Finset.Subset.refl _)
  · rcases nested_of_not_overlaps (hpair j i hlt hi) with h | h | h
    · exact Or.inr (Or.inl h)
    · exact Or.inl h
    · exact Or.inr (Or.inr h.symm)

/-! ### Parents -/

/-- The choice among the first candidates: a smallest one that strictly contains the
child. -/
structure Best (masks : List (BitVec 64)) (child limit : ℕ) (best : Option ℕ × ℕ) : Prop where
  none : best.1 = none → best.2 = 2 ^ 32 - 1 ∧
    ∀ j < limit, ¬ blockSets masks child ⊂ blockSets masks j
  some : ∀ parent, best.1 = some parent → parent < limit ∧
    best.2 = (blockSets masks parent).card ∧ blockSets masks child ⊂ blockSets masks parent ∧
    ∀ j < limit, blockSets masks child ⊂ blockSets masks j →
      (blockSets masks parent).card ≤ (blockSets masks j).card

/-- A candidate is passed over unless it strictly contains the child. -/
lemma skips_iff {j : ℕ} :
    (j = child ∨ !maskContains (masks.getD j 0#64) (masks.getD child 0#64) ∨
      masks.getD j 0#64 = masks.getD child 0#64) ↔ ¬ blockSets masks child ⊂ blockSets masks j := by
  rw [Bool.not_eq_true', ← Bool.not_eq_true, maskContains_iff, Finset.ssubset_iff_subset_ne,
    not_and_or, not_not]
  constructor
  · rintro (rfl | hnot | heq)
    · exact Or.inr rfl
    · exact Or.inl hnot
    · exact Or.inr (congrArg members heq).symm
  · rintro (hnot | heq)
    · exact Or.inr (Or.inl hnot)
    · exact Or.inr (Or.inr (eq_of_members heq).symm)

lemma best_foldl (masks : List (BitVec 64)) (child limit : ℕ) :
    Best masks child limit ((List.range limit).foldl (fun (best : Option ℕ × ℕ) candidate =>
      let mask := masks.getD candidate 0#64
      if candidate = child ∨ !maskContains mask (masks.getD child 0#64) ∨
          mask = masks.getD child 0#64 then best
      else if popcount mask < best.2 then (some candidate, popcount mask) else best)
      (none, 2 ^ 32 - 1)) := by
  induction limit with
  | zero => exact ⟨fun _ => ⟨rfl, fun j hj => absurd hj (Nat.not_lt_zero j)⟩, fun _ h => nomatch h⟩
  | succ limit ih =>
    rw [List.range_succ, List.foldl_append, List.foldl_cons, List.foldl_nil]
    generalize (List.range limit).foldl _ _ = best at ih ⊢
    have hless : ∀ j < limit + 1, j ≠ limit → j < limit := fun j hj hne => by omega
    dsimp only
    split
    next hskip =>
      rw [skips_iff] at hskip
      refine ⟨fun hnone => ⟨(ih.none hnone).1, fun j hj => ?_⟩, fun parent hsome => ?_⟩
      · by_cases hjl : j = limit
        · exact hjl ▸ hskip
        · exact (ih.none hnone).2 j (hless j hj hjl)
      · obtain ⟨hlt, hsize, hsub, hleast⟩ := ih.some parent hsome
        refine ⟨hlt.trans (Nat.lt_succ_self _), hsize, hsub, fun j hj hsubj => ?_⟩
        by_cases hjl : j = limit
        · exact absurd (hjl ▸ hsubj) hskip
        · exact hleast j (hless j hj hjl) hsubj
    next htake =>
      rw [skips_iff, not_not] at htake
      have hcard : popcount (masks.getD limit 0#64) = (blockSets masks limit).card := popcount_eq_card
      split
      next hsmaller =>
        refine ⟨fun hnone => (nomatch hnone), fun parent hsome => ?_⟩
        obtain rfl : limit = parent := Option.some.inj hsome
        refine ⟨Nat.lt_succ_self _, hcard, htake, fun j hj hsubj => ?_⟩
        by_cases hjl : j = limit
        · rw [hjl]
        cases hbest : best.1 with
        | none => exact absurd hsubj ((ih.none hbest).2 j (hless j hj hjl))
        | some parent =>
          obtain ⟨-, hsize, -, hleast⟩ := ih.some parent hbest
          have hle := hleast j (hless j hj hjl) hsubj
          omega
      next hnot =>
        refine ⟨fun hnone => ?_, fun parent hsome => ?_⟩
        · have hbound : (blockSets masks limit).card ≤ 64 :=
            (Finset.card_filter_le _ _).trans (Finset.card_range 64).le
          have := (ih.none hnone).1
          omega
        · obtain ⟨hlt, hsize, hsub, hleast⟩ := ih.some parent hsome
          refine ⟨hlt.trans (Nat.lt_succ_self _), hsize, hsub, fun j hj hsubj => ?_⟩
          by_cases hjl : j = limit
          · subst hjl
            omega
          · exact hleast j (hless j hj hjl) hsubj

/-- The parent of a loop is the smallest loop that strictly contains it. -/
lemma isParent_parentLoop (h : Family (blockSets masks) masks.length) (hchild : child < masks.length) :
    IsParent (blockSets masks) masks.length child (parentLoop masks child) := by
  have hbest := best_foldl masks child masks.length
  unfold parentLoop
  generalize (List.range masks.length).foldl _ _ = best at hbest ⊢
  cases hparent : best.1 with
  | none => exact (hbest.none hparent).2
  | some parent =>
    obtain ⟨hlt, -, hsub, hleast⟩ := hbest.some parent hparent
    exact h.isParent hchild hlt hsub hleast

/-- The depth of a loop is the number of loops around it. -/
lemma loopDepth_eq {guard : ℕ} (h : Family (blockSets masks) masks.length)
    (hchild : child < masks.length)
    (hguard : (around (blockSets masks) masks.length child).card ≤ guard + 1) :
    loopDepth (parentLoop masks) guard (parentLoop masks child) =
      (around (blockSets masks) masks.length child).card := by
  induction guard generalizing child with
  | zero =>
    have hparent := isParent_parentLoop h hchild
    cases hcase : parentLoop masks child with
    | none =>
      rw [hcase] at hparent
      exact (h.card_around_none hchild hparent).symm
    | some parent =>
      rw [hcase] at hparent
      have hpos : 0 < (around (blockSets masks) masks.length parent).card :=
        Finset.card_pos.mpr ⟨parent, mem_around.mpr ⟨hparent.1, Finset.Subset.refl _⟩⟩
      have := h.card_around_some hchild hparent
      omega
  | succ guard ih =>
    have hparent := isParent_parentLoop h hchild
    cases hcase : parentLoop masks child with
    | none =>
      rw [hcase] at hparent
      exact (h.card_around_none hchild hparent).symm
    | some parent =>
      rw [hcase] at hparent
      have hcount := h.card_around_some hchild hparent
      rw [loopDepth, ih hparent.1 (by omega), hcount]

/-! ### The loops of a plan -/

variable {results : List (BitVec 64 × Loop)} {i : ℕ} {loop : Loop}

/-- The loop at a place, with its parent and its depth. -/
lemma getElem?_nestLoops (results : List (BitVec 64 × Loop)) (i : ℕ) :
    (nestLoops results)[i]? = (results[i]?).map fun result =>
      { result.2 with
        parentLoop := parentLoop (results.map Prod.fst) i
        depth := loopDepth (parentLoop (results.map Prod.fst)) results.length
          (parentLoop (results.map Prod.fst) i) } := by
  rw [nestLoops, List.getElem?_map, List.getElem?_zipIdx, Option.map_map, Nat.zero_add]
  rfl

/-- The blocks of a loop are the members of its mask. -/
def HoldMembers (results : List (BitVec 64 × Loop)) : Prop :=
  ∀ result ∈ results, ∀ b, b ∈ result.2.blocks ↔ result.1.getLsbD b

/-- The loop of a plan, with what its masks say about it. -/
lemma nestLoops_spec (hmembers : HoldMembers results)
    (h : Family (blockSets (results.map Prod.fst)) results.length)
    (hloop : (nestLoops results)[i]? = some loop) :
    i < results.length ∧ (∀ b, b ∈ loop.blocks ↔ b ∈ blockSets (results.map Prod.fst) i) ∧
      IsParent (blockSets (results.map Prod.fst)) results.length i loop.parentLoop ∧
      loop.depth = (around (blockSets (results.map Prod.fst)) results.length i).card := by
  rw [getElem?_nestLoops] at hloop
  obtain ⟨result, hresult, rfl⟩ := Option.map_eq_some_iff.mp hloop
  have hi : i < results.length := (List.getElem?_eq_some_iff.mp hresult).1
  have hlength : (results.map Prod.fst).length = results.length := List.length_map _
  rw [← hlength] at h hi ⊢
  refine ⟨hi, fun b => ?_, isParent_parentLoop h hi, loopDepth_eq h hi ?_⟩
  · rw [blockSets, mem_members, List.getD_eq_getElem?_getD, List.getElem?_map, hresult]
    exact hmembers result (List.mem_of_getElem? hresult) b
  · have hcard : (around (blockSets (results.map Prod.fst)) (results.map Prod.fst).length i).card ≤
        (results.map Prod.fst).length :=
      (Finset.card_filter_le _ _).trans (Finset.card_range _).le
    omega

/-- The members of a list that have a property are counted by their places. -/
lemma length_filter_eq_card {α : Type} (l : List α) (p : α → Bool) (q : ℕ → Prop) [DecidablePred q]
    (h : ∀ i a, l[i]? = some a → (p a ↔ q i)) :
    (l.filter p).length = ((Finset.range l.length).filter q).card := by
  induction l using List.reverseRecOn with
  | nil => rfl
  | append_singleton l a ih =>
    have hfront : ∀ i b, l[i]? = some b → (p b ↔ q i) := fun i b hb =>
      h i b (by rw [List.getElem?_append_left (List.getElem?_eq_some_iff.mp hb).1, hb])
    have hlast : p a ↔ q l.length := h _ a (by simp)
    rw [List.filter_append, List.length_append, ih hfront, List.length_append, List.length_singleton,
      Finset.range_add_one, Finset.filter_insert]
    by_cases ha : p a
    · rw [if_pos (hlast.mp ha), Finset.card_insert_of_notMem (by simp)]
      simp [ha]
    · rw [if_neg (mt hlast.mpr ha)]
      simp [ha]

end VitaSX2.SemanticIsland
