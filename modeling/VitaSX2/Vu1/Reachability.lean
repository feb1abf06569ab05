/-
The blocks that the entry reaches (`MarkEntryReachability`) and the bound on the
pairs of a run (`HasReachableControlCycle`, `DynamicPairUpperBound` and the count
of `ValidateReachablePairs`).

The graph has a cycle exactly when not every block retires in topological order.
-/
import VitaSX2.Lib.Marking
import VitaSX2.Lib.TopologicalOrder
import VitaSX2.Vu1.Analysis

namespace VitaSX2.Vu1

open Relation

/-- The blocks of the analysis that the edges of a block lead to. -/
def edgeTargets (blocks : List BasicBlock) (index : ℕ) : List ℕ :=
  (blockTargets blocks index).filter (· < blocks.length)

/-- `MarkEntryReachability`: the blocks that are marked. -/
def markEntryReachability (blocks : List BasicBlock) (entry : ℕ) : List ℕ :=
  (Marking.mark (edgeTargets blocks) (fun _ => true) blocks.length ⟨[entry], [entry]⟩).getD []

/-- The last block that starts at the start address. -/
def ProgramAnalysis.entryBlock (analysis : ProgramAnalysis) : Option ℕ :=
  ((List.range analysis.blocks.length).filter fun index =>
    (blockAt analysis.blocks index).startPc = analysis.startPc).getLast?

/-- The blocks with `reachable_from_entry`, in the order of the analysis. -/
def ProgramAnalysis.reachableBlocks (analysis : ProgramAnalysis) : List ℕ :=
  let marked := analysis.entryBlock.elim [] (markEntryReachability analysis.blocks)
  (List.range analysis.blocks.length).filter (· ∈ marked)

/-- The edges between reachable blocks. -/
def ProgramAnalysis.reachableTargets (analysis : ProgramAnalysis) (index : ℕ) : List ℕ :=
  (edgeTargets analysis.blocks index).filter (· ∈ analysis.reachableBlocks)

/-- `HasReachableControlCycle`. -/
def hasReachableControlCycle (analysis : ProgramAnalysis) : Bool :=
  let retired := TopologicalOrder.retire analysis.reachableTargets analysis.reachableBlocks.length
    (TopologicalOrder.start analysis.reachableTargets analysis.reachableBlocks)
  retired.any (· ≠ analysis.reachableBlocks.length)

/-- `DynamicPairUpperBound`. -/
def dynamicPairUpperBound (analysis : ProgramAnalysis) (pairCount requestedMaximumPairs : ℕ) : ℕ :=
  if hasReachableControlCycle analysis || analysis.hasUnresolvedIndirectControl then
    requestedMaximumPairs
  else pairCount

/-- The index of a pair in the program. -/
def pairIndex (pc : ℕ) : ℕ := pc / 8 % maxVu1Pairs

/-- `pair_count` of `ValidateReachablePairs`: the distinct pairs of the reachable
blocks. -/
def ProgramAnalysis.reachablePairCount (analysis : ProgramAnalysis) : ℕ :=
  (analysis.reachableBlocks.flatMap fun index =>
    (blockAt analysis.blocks index).pairs.map fun pair => pairIndex pair.plan.pc).dedup.length

/-! ### What is reached -/

section Reached

variable {blocks : List BasicBlock} {entry index : ℕ}

/-- An edge between two blocks. -/
def BlockEdge (blocks : List BasicBlock) (source target : ℕ) : Prop :=
  target ∈ edgeTargets blocks source

lemma mem_edgeTargets {target : ℕ} :
    target ∈ edgeTargets blocks index ↔
      target < blocks.length ∧
        ∃ edge ∈ (blockAt blocks index).successors, edge.targetBlock = some target := by
  rw [edgeTargets, List.mem_filter, blockTargets, List.mem_filterMap, decide_eq_true_eq, and_comm]

/-- The marked blocks are those that the entry reaches. -/
lemma mem_markEntryReachability (hentry : entry < blocks.length) :
    index ∈ markEntryReachability blocks entry ↔ ReflTransGen (BlockEdge blocks) entry index := by
  have hsome : (Marking.mark (edgeTargets blocks) (fun _ => true) blocks.length
      ⟨[entry], [entry]⟩).isSome := Marking.mark_isSome (List.range blocks.length)
    (fun a b hb => List.mem_range.mpr (mem_edgeTargets.mp hb).1) (by
      have hlt : ((List.range blocks.length).filter (· ∉ [entry])).length <
          (List.range blocks.length).length :=
        List.length_filter_lt_length_iff_exists.mpr ⟨entry, List.mem_range.mpr hentry, by simp⟩
      rw [List.length_range] at hlt
      simp only [Marking.left, List.length_singleton]
      omega)
  obtain ⟨result, hresult⟩ := Option.isSome_iff_exists.mp hsome
  have hinv : Marking.Inv (edgeTargets blocks) (fun _ => true) [entry] ⟨[entry], [entry]⟩ :=
    { starts := fun a ha => ha
      pending := fun a ha => ⟨ha, rfl⟩
      reached := fun b hb => ⟨b, hb, .refl⟩
      closed := fun a ha _ => Or.inl ha }
  rw [markEntryReachability, hresult, Option.getD_some, Marking.mem_mark_iff hinv hresult]
  have hedge : Marking.Edge (edgeTargets blocks) (fun _ => true) = BlockEdge blocks := by
    ext a b
    simp [Marking.Edge, BlockEdge]
  simp only [List.mem_singleton, exists_eq_left, hedge]

lemma lt_of_reached (hentry : entry < blocks.length)
    (h : ReflTransGen (BlockEdge blocks) entry index) : index < blocks.length := by
  induction h with
  | refl => exact hentry
  | tail _ hedge _ => exact (mem_edgeTargets.mp hedge).1

variable {analysis : ProgramAnalysis}

lemma entryBlock_lt (h : analysis.entryBlock = some entry) : entry < analysis.blocks.length :=
  List.mem_range.mp (List.mem_filter.mp (List.mem_of_getLast? h)).1

lemma mem_reachableBlocks (h : analysis.entryBlock = some entry) :
    index ∈ analysis.reachableBlocks ↔ ReflTransGen (BlockEdge analysis.blocks) entry index := by
  have hentry := entryBlock_lt h
  rw [ProgramAnalysis.reachableBlocks, h, List.mem_filter, decide_eq_true_eq]
  dsimp only [Option.elim]
  rw [mem_markEntryReachability hentry, List.mem_range]
  exact ⟨And.right, fun hreach => ⟨lt_of_reached hentry hreach, hreach⟩⟩

/-- `HasReachableControlCycle` is exact. -/
theorem hasReachableControlCycle_iff (h : analysis.entryBlock = some entry) :
    hasReachableControlCycle analysis = true ↔
      ∃ index, ReflTransGen (BlockEdge analysis.blocks) entry index ∧
        TransGen (BlockEdge analysis.blocks) index index := by
  have hnodup : analysis.reachableBlocks.Nodup := List.nodup_range.filter _
  obtain ⟨retired, hretired, hiff⟩ := TopologicalOrder.retire_eq_length_iff hnodup
    fun a _ b (hb : b ∈ analysis.reachableTargets a) => of_decide_eq_true (List.mem_filter.mp hb).2
  have hcycle : hasReachableControlCycle analysis = true ↔
      retired ≠ analysis.reachableBlocks.length := by
    rw [hasReachableControlCycle, hretired]
    simp
  rw [hcycle, Ne, hiff, not_forall]
  -- An edge of a reachable block leads to a reachable block.
  have hedge : ∀ a b, TopologicalOrder.Edge analysis.reachableTargets analysis.reachableBlocks a b ↔
      ReflTransGen (BlockEdge analysis.blocks) entry a ∧ BlockEdge analysis.blocks a b := by
    intro a b
    rw [TopologicalOrder.Edge, ProgramAnalysis.reachableTargets, List.mem_filter,
      decide_eq_true_eq, mem_reachableBlocks h, mem_reachableBlocks h]
    exact ⟨fun hab => ⟨hab.1, hab.2.1⟩, fun hab => ⟨hab.1, hab.2, hab.1.tail hab.2⟩⟩
  refine exists_congr fun index => ?_
  rw [not_not]
  constructor
  · intro hloop
    obtain ⟨next, hfirst, -⟩ := TransGen.head'_iff.mp hloop
    exact ⟨((hedge _ _).mp hfirst).1, TransGen.mono (fun a b hab => ((hedge a b).mp hab).2) _ _ hloop⟩
  · rintro ⟨hreach, hloop⟩
    have hall : ∀ b, TransGen (BlockEdge analysis.blocks) index b →
        ReflTransGen (BlockEdge analysis.blocks) entry b ∧
          TransGen (TopologicalOrder.Edge analysis.reachableTargets analysis.reachableBlocks)
            index b := by
      intro b hb
      induction hb with
      | single hab => exact ⟨hreach.tail hab, .single ((hedge _ _).mpr ⟨hreach, hab⟩)⟩
      | tail _ hbc ih => exact ⟨ih.1.tail hbc, ih.2.tail ((hedge _ _).mpr ⟨ih.1, hbc⟩)⟩
    exact (hall index hloop).2

end Reached

end VitaSX2.Vu1
