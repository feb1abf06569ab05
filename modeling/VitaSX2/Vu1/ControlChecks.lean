/-
What the checks of `BuildStructuredControlPlan` establish: the two edges of a latch,
loops that are nested or disjoint, and no cycle without the edge of a loop.
-/
import VitaSX2.Vu1.LoopFacts
import VitaSX2.Vu1.LoopForest
import Mathlib.Data.List.Pairwise

namespace VitaSX2.Vu1

open Relation Attempt

lemma of_failWith {condition : Bool} {error : String} {result : Unit}
    (h : (failWith condition error).run = some (.ok result)) : condition = false := by
  cases condition with
  | false => rfl
  | true => cases h

/-! ### The edges of a conditional branch -/

section Built

variable {upperTable : UpperTable} {micro : Micro} {resolutions : IndirectResolutionMap}
  {leaders : List ℕ} {blocks : List BasicBlock} {startPc pc index target : ℕ}
  {pending : PendingBlock}

/-- A conditional branch has the two edges of the branch, unless the program ends with it. -/
lemma Scanned.conditional (h : Scanned upperTable micro resolutions startPc pc pending)
    (hconditional : pending.block.conditionalBranch = true) :
    pending.targets = [(.programExit, 0)] ∨
      ∃ taken next, pending.targets = [(.branchTaken, taken), (.branchNotTaken, next)] := by
  induction h with
  | fallthrough => cases hconditional
  | body _ _ _ _ _ _ ih => exact ih hconditional
  | terminator pc plan pending discovered _ _ hterminator =>
    obtain ⟨delay, -, heq⟩ := Option.map_eq_some_iff.mp hterminator
    cases heq
    obtain ⟨-, hkind⟩ := Bool.and_eq_true_iff.mp hconditional
    dsimp only
    unfold terminatorTargets
    split
    · exact Or.inl rfl
    have hdirect : isIndirectBranch plan.lowerKind = false := by
      cases hcase : plan.lowerKind <;> rw [hcase] at hkind <;> first | rfl | cases hkind
    rw [hdirect, if_neg Bool.false_ne_true]
    exact Or.inr ⟨_, _, rfl⟩

lemma Built.exists_leader (h : Built upperTable micro resolutions leaders blocks)
    (hindex : index < blocks.length) : ∃ start, leaders[index]? = some start :=
  ⟨_, List.getElem?_eq_getElem (h.length_eq.symm ▸ hindex)⟩

/-- The edges lead to blocks. -/
lemma Built.target_lt (h : Built upperTable micro resolutions leaders blocks)
    (htarget : target ∈ blockTargets blocks index) : target < blocks.length := by
  obtain ⟨start, hstart⟩ := h.exists_leader (source_lt_of_target htarget)
  obtain ⟨pending, -, -, hlink, -⟩ := h.at hstart
  obtain ⟨hsuccessors, -⟩ := linkBlock_eq_some hlink
  obtain ⟨edge, hedge, hsome⟩ := List.mem_filterMap.mp htarget
  obtain ⟨⟨position, hposition⟩, hget⟩ := List.get_of_mem hedge
  obtain ⟨hlength, hall⟩ := List.forall₂_iff_get.mp (forall₂_of_mapM hsuccessors)
  have hlinked := hall position (hlength ▸ hposition) hposition
  rw [hget, linkEdge] at hlinked
  split at hlinked
  · cases hlinked
    cases hsome
  · obtain ⟨found, hfound, rfl⟩ := Option.map_eq_some_iff.mp hlinked
    cases hsome
    obtain ⟨hlt, -⟩ := List.findIdx?_eq_some_iff_getElem.mp hfound
    exact h.length_eq ▸ hlt

/-- The edges of a block with a conditional branch. -/
lemma Built.conditional (h : Built upperTable micro resolutions leaders blocks)
    (hindex : index < blocks.length) (hconditional : (blockAt blocks index).conditionalBranch = true) :
    (∀ edge ∈ (blockAt blocks index).successors, edge.targetBlock = none) ∨
      ∃ taken next : ControlEdge, (blockAt blocks index).successors = [taken, next] := by
  obtain ⟨start, hstart⟩ := h.exists_leader hindex
  obtain ⟨pending, hscanned, -, hlink, -⟩ := h.at hstart
  obtain ⟨hsuccessors, hblock⟩ := linkBlock_eq_some hlink
  rw [hblock] at hconditional
  have hedges := forall₂_of_mapM hsuccessors
  generalize (blockAt blocks index).successors = successors at hedges
  rcases hscanned.conditional hconditional with htargets | ⟨taken, next, htargets⟩
  · rw [htargets] at hedges
    cases hedges with
    | cons hedge hrest =>
      cases hrest
      cases hedge
      exact Or.inl (by simp)
  · rw [htargets] at hedges
    cases hedges with
    | cons _ hrest =>
      cases hrest with
      | cons _ hrest =>
        cases hrest
        exact Or.inr ⟨_, _, rfl⟩

end Built

/-! ### One loop -/

section Loops

variable {analysis : ProgramAnalysis} {loops : List NaturalLoop} {loop : NaturalLoop}

/-- The checks of a loop that the paths through it depend on. -/
structure LoopChecked (analysis : ProgramAnalysis) (loop : NaturalLoop) : Prop where
  latch_lt : loop.latchBlock < analysis.blocks.length
  singleEntry : loop.singleEntry = true
  header_mem : loop.headerBlock ∈ loop.blocks
  latch_mem : loop.latchBlock ∈ loop.blocks
  repeats : ∃ edge ∈ (blockAt analysis.blocks loop.latchBlock).successors,
    edge.targetBlock = some loop.headerBlock
  leaves : ∃ edge ∈ (blockAt analysis.blocks loop.latchBlock).successors,
    ∃ target, edge.targetBlock = some target ∧ target ∉ loop.blocks
  conditional : (blockAt analysis.blocks loop.latchBlock).conditionalBranch = true

lemma loopChecked_of_checkLoop {result : Unit}
    (h : (checkLoop analysis loop).run = some (.ok result)) : LoopChecked analysis loop := by
  obtain ⟨_, hownership, h⟩ := exists_of_bind_eq h
  obtain ⟨_, hentry, h⟩ := exists_of_bind_eq h
  obtain ⟨_, hmembers, h⟩ := exists_of_bind_eq h
  obtain ⟨_, -, h⟩ := exists_of_bind_eq h
  have hownership := of_failWith hownership
  have hentry := of_failWith hentry
  have hmembers := of_failWith hmembers
  have hexit := of_failWith h
  simp only [Bool.or_eq_false_iff, decide_eq_false_iff_not, Nat.not_le, Bool.not_eq_false',
    not_not] at hownership hentry hmembers hexit
  obtain ⟨⟨hrepeats, hleaves⟩, hconditional⟩ := hexit
  obtain ⟨edge, hedge, hrepeats⟩ := List.any_eq_true.mp hrepeats
  obtain ⟨edge', hedge', hleaves⟩ := List.any_eq_true.mp hleaves
  obtain ⟨target, htarget, hleaves⟩ := Option.any_eq_true _ _ |>.mp hleaves
  rw [Bool.and_eq_true, decide_eq_true_eq, decide_eq_true_eq] at hleaves
  exact ⟨hownership.1, hentry.1.1.1, hmembers.1, hmembers.2, ⟨edge, hedge, of_decide_eq_true hrepeats⟩,
    ⟨edge', hedge', target, htarget, hleaves.2⟩, hconditional⟩

lemma checkLoop_of_forM {planned : List (NaturalLoop × ℕ)} {result : Unit}
    (h : (planned.forM fun (loop, _) => checkLoop analysis loop).run = some (.ok result)) :
    ∀ x ∈ planned, LoopChecked analysis x.1 := by
  induction planned with
  | nil => exact fun x hx => nomatch hx
  | cons x planned ih =>
    obtain ⟨_, hfirst, hrest⟩ := exists_of_bind_eq h
    exact List.forall_mem_cons.mpr ⟨loopChecked_of_checkLoop hfirst, ih hrest⟩

/-! ### Two loops -/

/-- Two lists of blocks are nested or disjoint. -/
def NestedBlocks (left right : List ℕ) : Prop :=
  (∀ b ∈ left, b ∉ right) ∨ (∀ b ∈ left, b ∈ right) ∨ ∀ b ∈ right, b ∈ left

lemma nestedBlocks_of_not_overlap {left right : NaturalLoop} (h : loopsOverlap left right = false) :
    NestedBlocks left.blocks right.blocks := by
  simp only [loopsOverlap, Bool.and_eq_false_iff, List.any_eq_false, decide_eq_true_eq,
    Bool.not_eq_false', List.all_eq_true] at h
  rcases h with (hdisjoint | hright) | hleft
  · exact Or.inl hdisjoint
  · exact Or.inr (Or.inr hright)
  · exact Or.inr (Or.inl hleft)

instance : Std.Symm fun (x y : NaturalLoop × ℕ) => NestedBlocks x.1.blocks y.1.blocks where
  symm _ _ h := by
    rcases h with hdisjoint | hleft | hright
    · exact Or.inl fun b hb hb' => hdisjoint b hb' hb
    · exact Or.inr (Or.inr hleft)
    · exact Or.inr (Or.inl hright)

lemma nestedBlocks_of_hasOverlap {planned : List (NaturalLoop × ℕ)}
    (h : hasOverlap planned = false) :
    ∀ x ∈ planned, ∀ y ∈ planned, NestedBlocks x.1.blocks y.1.blocks := by
  have hpairs : planned.Pairwise fun x y => NestedBlocks x.1.blocks y.1.blocks := by
    induction planned with
    | nil => exact .nil
    | cons x planned ih =>
      obtain ⟨hfirst, hrest⟩ := Bool.or_eq_false_iff.mp h
      rw [List.any_eq_false] at hfirst
      exact .cons (fun y hy => nestedBlocks_of_not_overlap (Bool.not_eq_true _ ▸ hfirst y hy))
        (ih hrest)
  intro x hx y hy
  exact List.Pairwise.forall_of_forall
    (R := fun x y : NaturalLoop × ℕ => NestedBlocks x.1.blocks y.1.blocks)
    (fun x _ => Or.inr (Or.inl fun b hb => hb)) hpairs hx hy

/-! ### The acyclic rest -/

/-- An edge to a reachable block that is not the edge of a loop. -/
def DagEdge (analysis : ProgramAnalysis) (loops : List NaturalLoop) (target source : ℕ) : Prop :=
  target ∈ dagTargets analysis loops source ∧ target ∈ analysis.reachableBlocks

/-- The visit of some blocks keeps those that are done, and from those that are done no
infinite path starts. -/
structure VisitOk (analysis : ProgramAnalysis) (loops : List NaturalLoop) (blocks : List ℕ)
    (visit done : ℕ → ℕ) : Prop where
  keeps : ∀ b, visit b = 2 → done b = 2
  acc : (∀ b, visit b = 2 → Acc (DagEdge analysis loops) b) →
    ∀ b, done b = 2 → Acc (DagEdge analysis loops) b
  visited : ∀ b ∈ blocks, b ∈ analysis.reachableBlocks → done b = 2

lemma visitOk_foldlM {f : (ℕ → ℕ) → ℕ → PlanM (ℕ → ℕ)}
    (hf : ∀ {visit done : ℕ → ℕ} {target}, (f visit target).run = some (.ok done) →
      VisitOk analysis loops [target] visit done)
    {targets : List ℕ} {visit done : ℕ → ℕ} (h : (targets.foldlM f visit).run = some (.ok done)) :
    VisitOk analysis loops targets visit done := by
  induction targets generalizing visit with
  | nil =>
    cases h
    exact ⟨fun b hb => hb, fun hacc => hacc, fun b hb => nomatch hb⟩
  | cons target targets ih =>
    rw [List.foldlM_cons] at h
    obtain ⟨middle, hfirst, hrest⟩ := exists_of_bind_eq h
    have hfirst := hf hfirst
    have hrest := ih hrest
    refine ⟨fun b hb => hrest.keeps b (hfirst.keeps b hb), fun hacc => hrest.acc (hfirst.acc hacc),
      fun b hb hreachable => ?_⟩
    rcases List.mem_cons.mp hb with rfl | hb
    · exact hrest.keeps _ (hfirst.visited _ List.mem_cons_self hreachable)
    · exact hrest.visited b hb hreachable

lemma visitOk_of_visitDag {fuel block : ℕ} {visit done : ℕ → ℕ}
    (h : (visitDag analysis loops fuel visit block).run = some (.ok done)) :
    VisitOk analysis loops [block] visit done := by
  induction fuel generalizing visit block done with
  | zero =>
    unfold visitDag at h
    split at h
    next hout =>
      cases h
      exact ⟨fun b hb => hb, fun hacc => hacc, fun b hb hreachable =>
        absurd ((List.mem_singleton.mp hb) ▸ hreachable) hout⟩
    split at h
    · cases h
    split at h
    next hdone =>
      cases h
      exact ⟨fun b hb => hb, fun hacc => hacc, fun b hb _ => (List.mem_singleton.mp hb) ▸ hdone⟩
    · cases h
  | succ fuel ih =>
    unfold visitDag at h
    split at h
    next hout =>
      cases h
      exact ⟨fun b hb => hb, fun hacc => hacc, fun b hb hreachable =>
        absurd ((List.mem_singleton.mp hb) ▸ hreachable) hout⟩
    split at h
    · cases h
    split at h
    next hdone =>
      cases h
      exact ⟨fun b hb => hb, fun hacc => hacc, fun b hb _ => (List.mem_singleton.mp hb) ▸ hdone⟩
    next hfresh =>
      obtain ⟨inner, hinner, h⟩ := exists_of_bind_eq h
      cases h
      have hok : VisitOk analysis loops _ _ inner := visitOk_foldlM (fun {visit done target} h => by
        split at h
        · cases h
        · exact ih h) hinner
      -- A block is done once all its targets are.
      have htargets : ∀ target, DagEdge analysis loops target block → inner target = 2 :=
        fun target hedge => hok.visited target hedge.1 hedge.2
      have hkeep : ∀ b, visit b = 2 → inner b = 2 := by
        intro b hb
        refine hok.keeps b ?_
        rw [Function.update_of_ne (by rintro rfl; exact hfresh hb)]
        exact hb
      refine ⟨fun b hb => ?_, fun hacc => ?_, fun b hb _ => ?_⟩
      · by_cases heq : b = block
        · rw [heq, Function.update_self]
        · rw [Function.update_of_ne heq]
          exact hkeep b hb
      · have hinnerAcc := hok.acc fun b hb => by
          by_cases heq : b = block
          · rw [heq, Function.update_self] at hb
            cases hb
          · rw [Function.update_of_ne heq] at hb
            exact hacc b hb
        intro b hb
        by_cases heq : b = block
        · rw [heq]
          exact ⟨_, fun target hedge => hinnerAcc target (htargets target hedge)⟩
        · rw [Function.update_of_ne heq] at hb
          exact hinnerAcc b hb
      · rw [List.mem_singleton.mp hb, Function.update_self]

end Loops

end VitaSX2.Vu1
