/-
A plan of `BuildStructuredControlPlan` is a lexical loop forest of the control flow.

Without the edges of the loops no path repeats a block, every loop is entered at its
header, and every reachable block belongs to the smallest loop around it.  A latch
repeats its loop or leaves it; other blocks of a loop may leave it as well.
-/
import VitaSX2.Vu1.ControlChecks
import VitaSX2.Vu1.LeaderReach
import VitaSX2.Vu1.LoopCounter

namespace VitaSX2.Vu1

open Relation Attempt Walks

/-- The blocks of the natural loop of a loop of the plan. -/
def StructuredControlLoop.body (loops : List NaturalLoop) (loop : StructuredControlLoop) : List ℕ :=
  (loops[loop.loopIndex]?).elim [] (·.blocks)

/-- What a plan says about the paths of the graph. -/
structure LexicalForest (analysis : ProgramAnalysis) (loops : List NaturalLoop)
    (plan : StructuredControlPlan) : Prop where
  entry : analysis.entryBlock = some plan.entryBlock
  /-- Every natural loop is planned. -/
  planned : plan.loops.map (·.loopIndex) = List.range loops.length
  /-- A loop has the blocks from which its latch is reached without its header. -/
  natural : ∀ loop ∈ plan.loops,
    (loop.latchBlock, loop.headerBlock) ∈ (cfgGraph analysis.blocks).edges ∧
      (cfgGraph analysis.blocks).Dominates plan.entryBlock loop.headerBlock loop.latchBlock ∧
      ∀ b, b ∈ loop.body loops ↔ b < analysis.blocks.length ∧
        (b = loop.headerBlock ∨ b = loop.latchBlock ∨
          (cfgGraph analysis.blocks).ReachesAvoiding loop.headerBlock b loop.latchBlock)
  /-- Every reachable block is owned once. -/
  partition : (plan.topLevelBlocks ++ plan.loops.flatMap (·.exclusiveBlocks)).Perm
    analysis.reachableBlocks
  top : ∀ b ∈ plan.topLevelBlocks, plan.blockInnermostLoop[b]? = some none ∧
    ∀ loop ∈ loops, b ∉ loop.blocks
  /-- The owner of a block is the smallest loop with the block. -/
  owned : ∀ loop ∈ plan.loops, ∀ b ∈ loop.exclusiveBlocks,
    plan.blockInnermostLoop[b]? = some (some loop.loopIndex) ∧ b ∈ loop.body loops ∧
      ∀ other ∈ loops, b ∈ other.blocks → ∀ b' ∈ loop.body loops, b' ∈ other.blocks
  nested : ∀ left ∈ plan.loops, ∀ right ∈ plan.loops,
    NestedBlocks (left.body loops) (right.body loops)
  /-- A path comes back to a block over the edge of a loop around it. -/
  revisit : ∀ b cycle, (cfgGraph analysis.blocks).IsWalk b b cycle → cycle ≠ [] →
    ∃ loop ∈ plan.loops, (loop.latchBlock, loop.headerBlock) ∈ cycle ∧ b ∈ loop.body loops
  /-- A path enters a loop at its header. -/
  enters : ∀ loop ∈ plan.loops,
    (plan.entryBlock ∈ loop.body loops → plan.entryBlock = loop.headerBlock) ∧
      ∀ b path, (cfgGraph analysis.blocks).IsWalk plan.entryBlock b path → ∀ edge ∈ path,
        edge.1 ∉ loop.body loops → edge.2 ∈ loop.body loops → edge.2 = loop.headerBlock
  /-- A latch ends with a conditional branch, one edge of which repeats the loop and the
  other one of which leaves it. -/
  latch : ∀ loop ∈ plan.loops,
    (blockAt analysis.blocks loop.latchBlock).conditionalBranch = true ∧
      ∃ repeated left : ControlEdge, (blockAt analysis.blocks loop.latchBlock).successors.Perm
          [repeated, left] ∧
        repeated.targetBlock = some loop.headerBlock ∧
        ∃ target, left.targetBlock = some target ∧ target ∉ loop.body loops

/-! ### The parts of a plan -/

section Parts

variable {analysis : ProgramAnalysis} {loops : List NaturalLoop} {fuel : ℕ}
  {plan : StructuredControlPlan}

/-- What a plan is made of, and what has been checked. -/
structure PlanBuilt (analysis : ProgramAnalysis) (loops : List NaturalLoop)
    (plan : StructuredControlPlan) : Prop where
  entry : (analysis.reachableBlocks.filter fun index =>
    (blockAt analysis.blocks index).startPc = analysis.startPc).getLast? = some plan.entryBlock
  checked : ∀ x ∈ plannedLoops analysis loops, LoopChecked analysis x.1
  nested : ∀ x ∈ plannedLoops analysis loops, ∀ y ∈ plannedLoops analysis loops,
    NestedBlocks x.1.blocks y.1.blocks
  owners : ∀ b ∈ analysis.reachableBlocks, ∀ owner, blockOwner loops b = some owner →
    owner ∈ (plannedLoops analysis loops).map Prod.snd
  acyclic : Acc (DagEdge analysis loops) plan.entryBlock
  topLevel : plan.topLevelBlocks = analysis.reachableBlocks.filter fun b => blockOwner loops b = none
  innermost : plan.blockInnermostLoop = (List.range analysis.blocks.length).map fun b =>
    if b ∈ analysis.reachableBlocks then blockOwner loops b else none
  loops_eq : plan.loops = (plannedLoops analysis loops).map fun (loop, index) =>
    structuredLoop analysis loops loop index

lemma planBuilt (h : (buildStructuredControlPlan analysis loops fuel).run = some (.ok plan)) :
    PlanBuilt analysis loops plan := by
  unfold buildStructuredControlPlan at h
  obtain ⟨_, -, h⟩ := exists_of_bind_eq h
  dsimp only at h
  split at h
  next entry hentry =>
    obtain ⟨_, hchecked, h⟩ := exists_of_bind_eq h
    obtain ⟨_, hoverlap, h⟩ := exists_of_bind_eq h
    obtain ⟨_, howners, h⟩ := exists_of_bind_eq h
    obtain ⟨done, hvisit, h⟩ := exists_of_bind_eq h
    cases h
    have howners := of_failWith howners
    rw [List.any_eq_false] at howners
    have hok := visitOk_of_visitDag hvisit
    refine ⟨hentry, checkLoop_of_forM hchecked, nestedBlocks_of_hasOverlap (of_failWith hoverlap),
      fun b hb owner howner => ?_, ?_, rfl, rfl, rfl⟩
    · have hplanned := howners b hb
      rw [howner] at hplanned
      simpa using hplanned
    · have hreachable := (List.mem_filter.mp (List.mem_of_getLast? hentry)).1
      exact hok.acc (fun b hb => nomatch hb) _ (hok.visited _ List.mem_cons_self hreachable)
  next => cases h

end Parts

/-! ### Reachable blocks -/

section Reachable

variable {analysis : ProgramAnalysis} {loops : List NaturalLoop} {plan : StructuredControlPlan}
  {entry b : ℕ}

lemma reaches_iff (hentry : analysis.entryBlock = some entry) :
    (cfgGraph analysis.blocks).Reaches entry b ↔ b ∈ analysis.reachableBlocks := by
  rw [mem_reachableBlocks hentry]
  constructor
  · rintro ⟨walk, hwalk⟩
    refine ReflTransGen.mono (fun x y hxy => ?_) _ _ hwalk.reflTransGen
    obtain ⟨e, he, rfl, rfl⟩ := hxy
    exact mem_cfgGraph.mp he
  · intro h
    refine Walks.Graph.reaches_of_reflTransGen (ReflTransGen.mono (fun x y hxy => ?_) _ _ h)
    exact ⟨(x, y), mem_cfgGraph.mpr hxy, rfl, rfl⟩

/-- The blocks on a path from the entry are reachable. -/
lemma reachable_of_mem_visits (hentry : analysis.entryBlock = some entry) {a c : ℕ}
    {walk : List (ℕ × ℕ)} (ha : a ∈ analysis.reachableBlocks)
    (hwalk : (cfgGraph analysis.blocks).IsWalk a b walk)
    (hc : c ∈ (cfgGraph analysis.blocks).visits a walk) : c ∈ analysis.reachableBlocks := by
  obtain ⟨front, hfront⟩ := (reaches_iff hentry).mpr ha
  obtain ⟨first, second, -, hfirst, -⟩ := hwalk.exists_split hc
  exact (reaches_iff hentry).mp ⟨front ++ first, hfront.append hfirst⟩

lemma reachable_entry (hentry : analysis.entryBlock = some entry) :
    entry ∈ analysis.reachableBlocks := (reaches_iff hentry).mp ⟨[], rfl⟩

/-- The entry of the plan is the entry of the analysis. -/
lemma PlanBuilt.entryBlock (h : PlanBuilt analysis loops plan) :
    analysis.entryBlock = some plan.entryBlock := by
  obtain ⟨entry, hentry⟩ : ∃ entry, analysis.entryBlock = some entry := by
    cases hcase : analysis.entryBlock with
    | some entry => exact ⟨entry, rfl⟩
    | none =>
      have hmem := (List.mem_filter.mp (List.mem_of_getLast? h.entry)).1
      rw [ProgramAnalysis.reachableBlocks, hcase] at hmem
      exact absurd (List.mem_filter.mp hmem).2 (by simp)
  have hreachable := (List.mem_filter.mp (reachable_entry hentry)).2
  have hlast := h.entry
  -- The last block that starts there is reachable.
  rw [ProgramAnalysis.reachableBlocks, List.filter_comm] at hlast
  obtain ⟨front, hfront⟩ := List.getLast?_eq_some_iff.mp hentry
  rw [hfront, List.filter_append, List.filter_singleton, hreachable, cond_true,
    List.getLast?_append] at hlast
  rw [hentry]
  simpa using hlast

/-- Every loop with a reachable block has a reachable header. -/
lemma header_reachable (hentry : analysis.entryBlock = some entry) {loop : NaturalLoop}
    (hloop : LoopOk analysis.blocks entry loop)
    (hheader : loop.headerBlock < analysis.blocks.length) (hb : b ∈ loop.blocks)
    (hreachable : b ∈ analysis.reachableBlocks) :
    loop.headerBlock ∈ analysis.reachableBlocks := by
  have hedge : (loop.latchBlock, loop.headerBlock) ∈ (cfgGraph analysis.blocks).edges :=
    mem_cfgGraph.mpr (List.mem_filter.mpr ⟨hloop.edge, decide_eq_true hheader⟩)
  have hlatch : loop.latchBlock ∈ analysis.reachableBlocks →
      loop.headerBlock ∈ analysis.reachableBlocks := fun hlatch =>
    reachable_of_mem_visits hentry hlatch (Walks.Graph.isWalk_single hedge)
      (by simp [Walks.Graph.visits, cfgGraph])
  rcases ((hloop.mem b).mp hb).2 with rfl | rfl | ⟨walk, hwalk, -⟩
  · exact hreachable
  · exact hlatch hreachable
  · exact hlatch (reachable_of_mem_visits hentry hreachable hwalk hwalk.last_mem)

end Reachable

/-! ### Loops of the forest -/

section Forest

variable {analysis : ProgramAnalysis} {bases loops : List NaturalLoop}
  {plan : StructuredControlPlan} {entry : ℕ}

/-- A loop of the forest is one of the loops it is made of, with its place in the forest. -/
lemma loopOk_of_mem (hbases : ∀ base ∈ bases, LoopOk analysis.blocks entry base)
    {loop : NaturalLoop} (hloop : loop ∈ loopForest analysis bases) :
    LoopOk analysis.blocks entry loop ∧ loop.singleEntry = singleEntry analysis loop := by
  obtain ⟨index, hindex⟩ := List.mem_iff_getElem?.mp hloop
  rw [getElem?_loopForest] at hindex
  obtain ⟨base, hbase, rfl⟩ := Option.map_eq_some_iff.mp hindex
  have hok := hbases base (List.mem_of_getElem? hbase)
  exact ⟨⟨hok.latch_lt, hok.edge, hok.dominates, hok.ascending, hok.mem⟩, rfl⟩

lemma mem_plannedLoops {loop : NaturalLoop} {index : ℕ} :
    (loop, index) ∈ plannedLoops analysis loops ↔
      loops[index]? = some loop ∧ loop.headerBlock ∈ analysis.reachableBlocks := by
  rw [plannedLoops, List.mem_filter, List.mem_zipIdx_iff_getElem?, decide_eq_true_eq]

/-- A loop of the plan and its natural loop. -/
lemma PlanBuilt.exists_loop (h : PlanBuilt analysis loops plan) {l : StructuredControlLoop}
    (hl : l ∈ plan.loops) : ∃ loop index, (loop, index) ∈ plannedLoops analysis loops ∧
      l = structuredLoop analysis loops loop index ∧ l.body loops = loop.blocks := by
  rw [h.loops_eq] at hl
  obtain ⟨⟨loop, index⟩, hmem, rfl⟩ := List.mem_map.mp hl
  refine ⟨loop, index, hmem, rfl, ?_⟩
  change (loops[index]?).elim [] _ = _
  rw [(mem_plannedLoops.mp hmem).1]
  rfl

lemma PlanBuilt.mem_loops (h : PlanBuilt analysis loops plan) {loop : NaturalLoop} {index : ℕ}
    (hmem : (loop, index) ∈ plannedLoops analysis loops) :
    structuredLoop analysis loops loop index ∈ plan.loops ∧
      (structuredLoop analysis loops loop index).body loops = loop.blocks := by
  rw [h.loops_eq]
  refine ⟨List.mem_map.mpr ⟨_, hmem, rfl⟩, ?_⟩
  change (loops[index]?).elim [] _ = _
  rw [(mem_plannedLoops.mp hmem).1]
  rfl

end Forest

/-! ### Owners -/

/-- An analysis, its natural loops and their forest. -/
structure ForestOk (analysis : ProgramAnalysis) (loops : List NaturalLoop) (entry : ℕ) : Prop where
  entryBlock : analysis.entryBlock = some entry
  natural : ∀ loop ∈ loops, LoopOk analysis.blocks entry loop ∧
    loop.singleEntry = singleEntry analysis loop
  depths : Laminar.Depths (loopBlocks loops) loops.length
    (fun i => (loops[i]?).bind (·.parentLoop)) (fun i => (loops[i]?).elim 0 (·.nestingDepth))
  target_lt : ∀ index target, target ∈ blockTargets analysis.blocks index →
    target < analysis.blocks.length
  reachable : ∀ index < analysis.blocks.length, index ∈ analysis.reachableBlocks
  conditional : ∀ index < analysis.blocks.length,
    (blockAt analysis.blocks index).conditionalBranch = true →
    (∀ edge ∈ (blockAt analysis.blocks index).successors, edge.targetBlock = none) ∨
      ∃ taken next : ControlEdge, (blockAt analysis.blocks index).successors = [taken, next]

section Owners

variable {analysis : ProgramAnalysis} {loops : List NaturalLoop} {plan : StructuredControlPlan}
  {entry b index : ℕ} {loop : NaturalLoop}

lemma ForestOk.header_lt (h : ForestOk analysis loops entry) (hloop : loop ∈ loops) :
    loop.headerBlock < analysis.blocks.length :=
  h.target_lt _ _ (h.natural loop hloop).1.edge

/-- A loop with a reachable block is in the plan. -/
lemma ForestOk.planned (h : ForestOk analysis loops entry) (hb : b ∈ analysis.reachableBlocks)
    (hindex : loops[index]? = some loop) (hmem : b ∈ loop.blocks) :
    (loop, index) ∈ plannedLoops analysis loops := by
  have hloop := List.mem_of_getElem? hindex
  exact mem_plannedLoops.mpr
    ⟨hindex, header_reachable h.entryBlock (h.natural loop hloop).1 (h.header_lt hloop) hmem hb⟩

/-- The loops around a reachable block are nested. -/
lemma ForestOk.chainAt (h : ForestOk analysis loops entry) (hplan : PlanBuilt analysis loops plan)
    (hb : b ∈ analysis.reachableBlocks) : Laminar.ChainAt (loopBlocks loops) loops.length b := by
  intro i hi j hj hbi hbj
  have hi := List.getElem?_eq_getElem hi
  have hj := List.getElem?_eq_getElem hj
  rw [mem_loopBlocks hi] at hbi
  rw [mem_loopBlocks hj] at hbj
  rcases hplan.nested _ (h.planned hb hi hbi) _ (h.planned hb hj hbj) with hdisjoint | hle | hle
  · exact absurd hbj (hdisjoint b hbi)
  · exact Or.inl fun c hc => (mem_loopBlocks hj).mpr (hle c ((mem_loopBlocks hi).mp hc))
  · exact Or.inr fun c hc => (mem_loopBlocks hi).mpr (hle c ((mem_loopBlocks hj).mp hc))

/-- The owner of a reachable block is the smallest loop with the block. -/
lemma ForestOk.owner_least (h : ForestOk analysis loops entry) (hplan : PlanBuilt analysis loops plan)
    (hb : b ∈ analysis.reachableBlocks) (howner : blockOwner loops b = some index)
    (hindex : loops[index]? = some loop) : b ∈ loop.blocks ∧
      ∀ other ∈ loops, b ∈ other.blocks → ∀ c ∈ loop.blocks, c ∈ other.blocks := by
  rcases blockOwner_spec loops b with ⟨hnone, -⟩ | ⟨index', loop', heq, hindex', hmem, hdeepest⟩
  · rw [hnone] at howner
    cases howner
  rw [heq] at howner
  cases howner
  rw [hindex] at hindex'
  cases hindex'
  refine ⟨hmem, fun other hother hbo c hc => ?_⟩
  obtain ⟨j, hj⟩ := List.mem_iff_getElem?.mp hother
  have hlt : index < loops.length := (List.getElem?_eq_some_iff.mp hindex).1
  refine (mem_loopBlocks hj).mp (h.depths.deepest_subset (h.chainAt hplan hb) hlt
    ((mem_loopBlocks hindex).mpr hmem) (fun k hk hbk => ?_) (List.getElem?_eq_some_iff.mp hj).1
    ((mem_loopBlocks hj).mpr hbo) ((mem_loopBlocks hindex).mpr hc))
  have hk := List.getElem?_eq_getElem hk
  rw [hk, hindex]
  exact hdeepest _ (List.mem_of_getElem? hk) ((mem_loopBlocks hk).mp hbk)

lemma nodup_reachableBlocks : analysis.reachableBlocks.Nodup := List.nodup_range.filter _

lemma nodup_planned : ((plannedLoops analysis loops).map Prod.snd).Nodup := by
  refine List.Nodup.sublist (List.filter_sublist.map Prod.snd) ?_
  rw [List.zipIdx_map_snd]
  exact List.nodup_range'

/-- Every reachable block is owned once. -/
lemma PlanBuilt.partition (h : PlanBuilt analysis loops plan) :
    (plan.topLevelBlocks ++ plan.loops.flatMap (·.exclusiveBlocks)).Perm
      analysis.reachableBlocks := by
  have hexclusive : plan.loops.flatMap (·.exclusiveBlocks) =
      ((plannedLoops analysis loops).map Prod.snd).flatMap fun index =>
        analysis.reachableBlocks.filter fun b => blockOwner loops b = some index := by
    rw [h.loops_eq, List.flatMap_map, List.flatMap_map]
    rfl
  rw [hexclusive, h.topLevel]
  refine (List.perm_ext_iff_of_nodup ?_ nodup_reachableBlocks).mpr fun b => ?_
  · refine List.nodup_append.mpr ⟨nodup_reachableBlocks.filter _, List.nodup_flatMap.mpr ⟨?_, ?_⟩, ?_⟩
    · exact fun index _ => nodup_reachableBlocks.filter _
    · refine nodup_planned.imp fun {i j} hne b hi hj => hne ?_
      have hi := of_decide_eq_true (List.mem_filter.mp hi).2
      have hj := of_decide_eq_true (List.mem_filter.mp hj).2
      exact Option.some.inj (hi.symm.trans hj)
    · rintro b hb c hc rfl
      obtain ⟨index, -, hc⟩ := List.mem_flatMap.mp hc
      have hnone := of_decide_eq_true (List.mem_filter.mp hb).2
      have hsome := of_decide_eq_true (List.mem_filter.mp hc).2
      exact absurd (hnone.symm.trans hsome) (by simp)
  · rw [List.mem_append, List.mem_filter, List.mem_flatMap, decide_eq_true_eq]
    constructor
    · rintro (hb | ⟨index, -, hb⟩)
      · exact hb.1
      · exact (List.mem_filter.mp hb).1
    · intro hb
      cases howner : blockOwner loops b with
      | none => exact Or.inl ⟨hb, rfl⟩
      | some index =>
        exact Or.inr ⟨index, h.owners b hb index howner, List.mem_filter.mpr
          ⟨hb, decide_eq_true howner⟩⟩

lemma PlanBuilt.innermost_at (h : PlanBuilt analysis loops plan) (hb : b ∈ analysis.reachableBlocks) :
    plan.blockInnermostLoop[b]? = some (blockOwner loops b) := by
  have hlt : b < analysis.blocks.length := List.mem_range.mp (List.mem_filter.mp hb).1
  rw [h.innermost, List.getElem?_map, List.getElem?_range hlt, Option.map_some, if_pos hb]

end Owners

/-! ### Paths -/

section Paths

variable {analysis : ProgramAnalysis} {loops : List NaturalLoop} {plan : StructuredControlPlan}
  {entry b : ℕ}

/-- An edge that is not the edge of a loop. -/
def Forward (loops : List NaturalLoop) (edge : ℕ × ℕ) : Prop :=
  isLoopEdge loops edge.1 edge.2 = false

lemma exists_of_not_forward {edge : ℕ × ℕ} (h : ¬ Forward loops edge) :
    ∃ loop ∈ loops, edge = (loop.latchBlock, loop.headerBlock) := by
  rw [Forward, Bool.not_eq_false] at h
  obtain ⟨loop, hloop, h⟩ := List.any_eq_true.mp h
  rw [Bool.and_eq_true, beq_iff_eq, beq_iff_eq] at h
  exact ⟨loop, hloop, Prod.ext h.1 h.2⟩

lemma dagEdge_of_forward (hentry : analysis.entryBlock = some entry) {edge : ℕ × ℕ}
    (hedge : edge ∈ (cfgGraph analysis.blocks).edges) (hforward : Forward loops edge)
    (hsource : edge.1 ∈ analysis.reachableBlocks) : DagEdge analysis loops edge.2 edge.1 := by
  have htarget : edge.2 ∈ analysis.reachableBlocks :=
    reachable_of_mem_visits hentry hsource (Walks.Graph.isWalk_single hedge)
      (by simp [Walks.Graph.visits, cfgGraph])
  refine ⟨List.mem_filter.mpr ⟨(List.mem_filter.mp (mem_cfgGraph.mp hedge)).1, ?_⟩, htarget⟩
  rw [Bool.not_eq_true']
  exact hforward

/-- From a reachable block no infinite path of forward edges starts. -/
lemma ForestOk.acc (h : ForestOk analysis loops plan.entryBlock)
    (hplan : PlanBuilt analysis loops plan) (hb : b ∈ analysis.reachableBlocks) :
    Acc (DagEdge analysis loops) b := by
  obtain ⟨walk, hwalk⟩ := (reaches_iff h.entryBlock).mpr hb
  have hforward := Walks.Graph.reaches_forward (Forward loops) (fun e _ hnot => by
    obtain ⟨loop, hloop, rfl⟩ := exists_of_not_forward hnot
    exact (h.natural loop hloop).1.dominates) hwalk
  have hboth : b ∈ analysis.reachableBlocks ∧ Acc (DagEdge analysis loops) b := by
    clear hwalk hb
    induction hforward with
    | refl => exact ⟨reachable_entry h.entryBlock, hplan.acyclic⟩
    | tail _ hedge ih =>
      obtain ⟨e, he, hforward, rfl, rfl⟩ := hedge
      have hdag := dagEdge_of_forward h.entryBlock he hforward ih.1
      exact ⟨hdag.2, ih.2.inv hdag⟩
  exact hboth.2

lemma irrefl_of_acc {α : Type*} {r : α → α → Prop} {a : α} (h : Acc r a) : ¬ r a a := by
  induction h with
  | intro a _ ih => exact fun haa => ih a haa haa

lemma transGen_of_walk {a : ℕ} {walk : List (ℕ × ℕ)} (h : (cfgGraph analysis.blocks).IsWalk a b walk)
    (hne : walk ≠ []) (hall : ∀ edge ∈ walk, DagEdge analysis loops edge.2 edge.1) :
    TransGen (DagEdge analysis loops) b a := by
  induction walk generalizing a with
  | nil => exact absurd rfl hne
  | cons edge walk ih =>
    obtain ⟨hfirst, hall⟩ := List.forall_mem_cons.mp hall
    obtain ⟨-, rfl, hrest⟩ := h
    by_cases hnil : walk = []
    · subst hnil
      obtain rfl : edge.2 = b := hrest
      exact .single hfirst
    · exact (ih hrest hnil hall).tail hfirst

/-- A path comes back to a block over the edge of a loop around it. -/
lemma ForestOk.exists_loop (h : ForestOk analysis loops plan.entryBlock)
    (hplan : PlanBuilt analysis loops plan) {cycle : List (ℕ × ℕ)}
    (hb : b ∈ analysis.reachableBlocks)
    (hcycle : (cfgGraph analysis.blocks).IsWalk b b cycle) (hne : cycle ≠ []) :
    ∃ loop ∈ loops, (loop.latchBlock, loop.headerBlock) ∈ cycle ∧ b ∈ loop.blocks := by
  have hsources : ∀ edge ∈ cycle, edge.1 ∈ analysis.reachableBlocks := fun edge hedge =>
    reachable_of_mem_visits h.entryBlock hb hcycle (hcycle.source_mem edge hedge)
  obtain ⟨edge, hedge, hback, haround⟩ := hcycle.exists_loop (Forward loops)
    (fun inner hinner hsub => by
      -- A cycle of forward edges would be an infinite path of them.
      by_contra hall
      push Not at hall
      obtain ⟨hnonempty, a, hwalk⟩ := hinner
      have hdag : ∀ edge ∈ inner, DagEdge analysis loops edge.2 edge.1 := fun edge hedge =>
        dagEdge_of_forward h.entryBlock (hwalk.subset edge hedge) (hall edge hedge)
          (hsources edge (hsub edge hedge))
      have ha : a ∈ analysis.reachableBlocks := by
        obtain ⟨edge, rest, rfl⟩ := List.exists_cons_of_ne_nil hnonempty
        obtain ⟨-, rfl, -⟩ := hwalk
        exact hsources edge (hsub edge List.mem_cons_self)
      exact irrefl_of_acc (h.acc hplan ha).transGen (transGen_of_walk hwalk hnonempty hdag)) hne
  obtain ⟨loop, hloop, rfl⟩ := exists_of_not_forward hback
  refine ⟨loop, hloop, hedge, ((h.natural loop hloop).1.mem b).mpr ⟨?_, ?_⟩⟩
  · exact List.mem_range.mp (List.mem_filter.mp hb).1
  · exact haround.imp_right Or.inr

/-- A loop around the entry has it as its header. -/
lemma LoopOk.eq_header {loop : NaturalLoop} (h : LoopOk analysis.blocks entry loop)
    (hentry : entry ∈ loop.blocks) : entry = loop.headerBlock := by
  have hdominates : (cfgGraph analysis.blocks).Dominates entry loop.headerBlock entry := by
    rcases ((h.mem entry).mp hentry).2 with heq | heq | havoid
    · exact heq ▸ Walks.Graph.dominates_refl
    · exact heq.symm ▸ h.dominates
    · exact h.dominates.of_reachesAvoiding havoid
  exact (Walks.Graph.eq_of_dominates_entry hdominates).symm

lemma eq_header_of_enters {loop : NaturalLoop} (hsingle : singleEntry analysis loop = true)
    {edge : ℕ × ℕ} (hedge : edge ∈ (cfgGraph analysis.blocks).edges)
    (hsource : edge.1 ∈ analysis.reachableBlocks) (hout : edge.1 ∉ loop.blocks)
    (hin : edge.2 ∈ loop.blocks) : edge.2 = loop.headerBlock := by
  have hedge := mem_cfgGraph.mp hedge
  have hpredecessor := (mem_predecessors (mem_edgeTargets.mp hedge).1).mpr hedge
  have hall := List.all_eq_true.mp (List.all_eq_true.mp hsingle _ hin) _ hpredecessor
  by_contra hne
  simp [hsource, hout, hne] at hall

/-- A latch has one edge that repeats the loop and one that leaves it. -/
lemma LoopChecked.edges {loop : NaturalLoop} (h : LoopChecked analysis loop)
    (htwo : (∀ edge ∈ (blockAt analysis.blocks loop.latchBlock).successors, edge.targetBlock = none) ∨
      ∃ taken next : ControlEdge,
        (blockAt analysis.blocks loop.latchBlock).successors = [taken, next]) :
    ∃ repeated left : ControlEdge,
      (blockAt analysis.blocks loop.latchBlock).successors.Perm [repeated, left] ∧
        repeated.targetBlock = some loop.headerBlock ∧
        ∃ target, left.targetBlock = some target ∧ target ∉ loop.blocks := by
  obtain ⟨repeated, hrepeated, hheader⟩ := h.repeats
  obtain ⟨left, hleft, target, htarget, hout⟩ := h.leaves
  have hne : left ≠ repeated := by
    rintro rfl
    rw [hheader] at htarget
    cases htarget
    exact hout h.header_mem
  refine ⟨repeated, left, ?_, hheader, target, htarget, hout⟩
  rcases htwo with hnone | ⟨taken, next, heq⟩
  · rw [hnone repeated hrepeated] at hheader
    cases hheader
  · rw [heq] at hrepeated hleft ⊢
    simp only [List.mem_cons, List.not_mem_nil, or_false] at hrepeated hleft
    rcases hrepeated with rfl | rfl <;> rcases hleft with rfl | rfl
    · exact absurd rfl hne
    · exact .refl _
    · exact .swap _ _ _
    · exact absurd rfl hne

end Paths

/-! ### The plan of an analysis -/

section Plan

variable {upperTable : UpperTable} {micro : Micro} {fuel passes visits startPc : ℕ}
  {analysis : ProgramAnalysis} {loops : List NaturalLoop} {plan : StructuredControlPlan}

lemma forestOk (hanalysis : analyzeGpuVu1Program upperTable micro fuel startPc = some analysis)
    (hloops : findNaturalLoops passes analysis = some loops) :
    ∃ entry, ForestOk analysis loops entry := by
  obtain ⟨blocks, hblocks, -, rfl⟩ := analyze_spec hanalysis
  obtain ⟨resolutions, inferred, hbuild, -⟩ := buildBlocks_spec hblocks
  obtain ⟨leaders, hbuilt⟩ := exists_built hbuild
  obtain ⟨entry, bases, hentry, rfl, hbases⟩ := findNaturalLoops_spec hloops
  refine ⟨entry, hentry, fun loop hloop => loopOk_of_mem hbases hloop, ?_,
    fun index target htarget => hbuilt.target_lt htarget,
    fun index hindex => reachable_of_analyze hanalysis hindex,
    fun index hindex hconditional => hbuilt.conditional hindex hconditional⟩
  exact depths_loopForest fun base hbase => (hbases base hbase).ascending.imp fun hlt => hlt.ne

/-- A successful plan is a lexical forest: it owns every reachable block once, in the
smallest loop around it, its loops are nested or disjoint, a path repeats a block only
over the edge of a loop around it and enters a loop at its header, and a latch repeats
its loop or leaves it. -/
theorem lexicalForest_of_buildStructuredControlPlan
    (hanalysis : analyzeGpuVu1Program upperTable micro fuel startPc = some analysis)
    (hloops : findNaturalLoops passes analysis = some loops)
    (hplan : (buildStructuredControlPlan analysis loops visits).run = some (.ok plan)) :
    LexicalForest analysis loops plan := by
  have hplan := planBuilt hplan
  obtain ⟨entry, h⟩ := forestOk hanalysis hloops
  obtain rfl : entry = plan.entryBlock :=
    Option.some.inj (h.entryBlock.symm.trans hplan.entryBlock)
  have hnatural : ∀ {loop : NaturalLoop} {index : ℕ}, (loop, index) ∈ plannedLoops analysis loops →
      LoopOk analysis.blocks plan.entryBlock loop ∧ LoopChecked analysis loop ∧
        singleEntry analysis loop = true ∧ loop.headerBlock < analysis.blocks.length := by
    intro loop index hmem
    have hloop := List.mem_of_getElem? (mem_plannedLoops.mp hmem).1
    have hok := h.natural loop hloop
    have hchecked := hplan.checked _ hmem
    exact ⟨hok.1, hchecked, hok.2 ▸ hchecked.singleEntry, h.header_lt hloop⟩
  have hall : plannedLoops analysis loops = loops.zipIdx := by
    refine List.filter_eq_self.mpr fun x hx => decide_eq_true (h.reachable _ (h.header_lt ?_))
    exact List.mem_of_getElem? (List.mem_zipIdx_iff_getElem?.mp hx)
  constructor
  · exact h.entryBlock
  · rw [hplan.loops_eq, List.map_map, hall, List.range_eq_range', ← List.zipIdx_map_snd 0 loops]
    rfl
  · intro l hl
    obtain ⟨loop, index, hmem, rfl, hbody⟩ := hplan.exists_loop hl
    obtain ⟨hok, -, -, hheader⟩ := hnatural hmem
    rw [hbody]
    exact ⟨mem_cfgGraph.mpr (List.mem_filter.mpr ⟨hok.edge, decide_eq_true hheader⟩),
      hok.dominates, hok.mem⟩
  · exact hplan.partition
  · intro b hb
    rw [hplan.topLevel, List.mem_filter, decide_eq_true_eq] at hb
    rw [hplan.innermost_at hb.1, hb.2]
    refine ⟨rfl, ?_⟩
    rcases blockOwner_spec loops b with ⟨-, hnone⟩ | ⟨index, loop, heq, -⟩
    · exact hnone
    · rw [hb.2] at heq
      cases heq
  · intro l hl b hb
    obtain ⟨loop, index, hmem, rfl, hbody⟩ := hplan.exists_loop hl
    obtain ⟨hreachable, howner⟩ := List.mem_filter.mp hb
    have howner := of_decide_eq_true howner
    obtain ⟨hbl, hleast⟩ := h.owner_least hplan hreachable howner (mem_plannedLoops.mp hmem).1
    rw [hbody, hplan.innermost_at hreachable, howner]
    exact ⟨rfl, hbl, hleast⟩
  · intro left hleft right hright
    obtain ⟨left, i, hi, rfl, hbody⟩ := hplan.exists_loop hleft
    obtain ⟨right, j, hj, rfl, hbody'⟩ := hplan.exists_loop hright
    rw [hbody, hbody']
    exact hplan.nested _ hi _ hj
  · intro b cycle hcycle hne
    have hreachable : b ∈ analysis.reachableBlocks := by
      obtain ⟨edge, rest, rfl⟩ := List.exists_cons_of_ne_nil hne
      obtain ⟨hedge, rfl, -⟩ := hcycle
      exact h.reachable _ (source_lt_of_target (List.mem_filter.mp (mem_cfgGraph.mp hedge)).1)
    obtain ⟨loop, hloop, hedge, hb⟩ := h.exists_loop hplan hreachable hcycle hne
    obtain ⟨index, hindex⟩ := List.mem_iff_getElem?.mp hloop
    obtain ⟨hmem, hbody⟩ := hplan.mem_loops (h.planned hreachable hindex hb)
    exact ⟨_, hmem, hedge, hbody ▸ hb⟩
  · intro l hl
    obtain ⟨loop, index, hmem, rfl, hbody⟩ := hplan.exists_loop hl
    obtain ⟨hok, -, hsingle, -⟩ := hnatural hmem
    rw [hbody]
    refine ⟨hok.eq_header, fun b path hpath edge hedge hout hin => ?_⟩
    exact eq_header_of_enters hsingle (hpath.subset edge hedge)
      (reachable_of_mem_visits h.entryBlock (reachable_entry h.entryBlock) hpath
        (hpath.source_mem edge hedge)) hout hin
  · intro l hl
    obtain ⟨loop, index, hmem, rfl, hbody⟩ := hplan.exists_loop hl
    obtain ⟨-, hchecked, -, -⟩ := hnatural hmem
    rw [hbody]
    exact ⟨hchecked.conditional,
      hchecked.edges (h.conditional _ hchecked.latch_lt hchecked.conditional)⟩

end Plan

/-! ### Two programs -/

/-- The plan of a program that has one, with a check of it. -/
def anyPlan (micro : Micro)
    (check : ProgramAnalysis → List NaturalLoop → StructuredControlPlan → Bool) : Bool :=
  (analyzeGpuVu1Program (fun _ => none) micro 16 0).any fun analysis =>
    (findNaturalLoops 8 analysis).any fun loops =>
      (buildStructuredControlPlan analysis loops 8).run.any fun
        | .ok plan => check analysis loops plan
        | .error _ => false

lemma exists_of_anyPlan {micro : Micro}
    {check : ProgramAnalysis → List NaturalLoop → StructuredControlPlan → Bool}
    (h : anyPlan micro check = true) :
    ∃ analysis loops plan, analyzeGpuVu1Program (fun _ => none) micro 16 0 = some analysis ∧
      findNaturalLoops 8 analysis = some loops ∧
      (buildStructuredControlPlan analysis loops 8).run = some (.ok plan) ∧
      check analysis loops plan = true := by
  obtain ⟨analysis, hanalysis, h⟩ := Option.any_eq_true _ _ |>.mp h
  obtain ⟨loops, hloops, h⟩ := Option.any_eq_true _ _ |>.mp h
  obtain ⟨result, hresult, h⟩ := Option.any_eq_true _ _ |>.mp h
  cases result with
  | ok plan => exact ⟨analysis, loops, plan, hanalysis, hloops, hresult, h⟩
  | error _ => cases h

/-- The loop of `countMicro` is a lexical forest of one loop. -/
theorem lexicalForest_of_buildStructuredControlPlan_count :
    ∃ analysis loops plan, analyzeGpuVu1Program (fun _ => none) countMicro 16 0 = some analysis ∧
      findNaturalLoops 8 analysis = some loops ∧
      (buildStructuredControlPlan analysis loops 8).run = some (.ok plan) ∧
      LexicalForest analysis loops plan := by
  have hcheck : anyPlan countMicro fun _ _ plan => plan.loops.length == 1 := by decide +kernel
  obtain ⟨analysis, loops, plan, hanalysis, hloops, hplan, -⟩ := exists_of_anyPlan hcheck
  exact ⟨analysis, loops, plan, hanalysis, hloops, hplan,
    lexicalForest_of_buildStructuredControlPlan hanalysis hloops hplan⟩

/-- A run has gone through the blocks of a path and is about to enter a block. -/
def Executes {D : Type} (semantics : Semantics D) (upperTable : UpperTable) (micro : Micro)
    (fbrst : BitVec 32) (analysis : ProgramAnalysis) (entry : ℕ) (path : List ℕ) (target : ℕ) :
    Prop :=
  Path analysis.blocks entry path target ∧ ∃ (start vu : Vu D) (delayed : Bool),
    Starts analysis.startPc start ∧
      Run semantics upperTable micro fbrst (fun _ _ => True) start
        (pairSequence analysis.blocks path []) (.running vu delayed) ∧
      vu.pc = (blockAt analysis.blocks target).startPc

/-- `IBNE` at 24 repeats the pairs from 0 on, and `IBEQ` at 0 leaves them for 56. -/
def sideExitMicro : Micro := microOf fun
  | 0 => some 0x50020806#32
  | 4 => some 0x10031801#32
  | 6 => some 0x52041ffc#32
  | 11 => some 0x400002ff#32
  | 15 => some 0x400002ff#32
  | _ => none

/-- A planned loop is left from its header, not from its latch. -/
theorem not_leavesAtLatch_sideExit :
    ¬ ∀ (D : Type) (semantics : Semantics D) (upperTable : UpperTable) (micro : Micro)
      (fbrst : BitVec 32) (fuel passes visits startPc : ℕ) (analysis : ProgramAnalysis)
      (loops : List NaturalLoop) (plan : StructuredControlPlan),
      analyzeGpuVu1Program upperTable micro fuel startPc = some analysis →
      findNaturalLoops passes analysis = some loops →
      (buildStructuredControlPlan analysis loops visits).run = some (.ok plan) →
      ∀ (path : List ℕ) (source target : ℕ),
        Executes semantics upperTable micro fbrst analysis plan.entryBlock (path ++ [source]) target →
        ∀ loop ∈ plan.loops, source ∈ loop.body loops → target ∉ loop.body loops →
          source = loop.latchBlock := by
  intro hall
  have hcheck : anyPlan sideExitMicro fun analysis loops plan =>
      plan.entryBlock == 0 && analysis.startPc == 0 && leads analysis.blocks 0 3 &&
        (blockAt analysis.blocks 0).pairs.map (·.plan.pc) == [0, 8] &&
        (blockAt analysis.blocks 3).startPc == 56 &&
        plan.loops.any fun loop => loop.body loops == [0, 1] && loop.latchBlock == 1 := by
    decide +kernel
  obtain ⟨analysis, loops, plan, hanalysis, hloops, hplan, h⟩ := exists_of_anyPlan hcheck
  simp only [Bool.and_eq_true, beq_iff_eq] at h
  obtain ⟨⟨⟨⟨⟨hentry, hstart⟩, hleads⟩, hpcs⟩, htarget⟩, hloop⟩ := h
  obtain ⟨loop, hloop, hbody⟩ := List.any_eq_true.mp hloop
  rw [Bool.and_eq_true, beq_iff_eq, beq_iff_eq] at hbody
  obtain ⟨hbody, hlatch⟩ := hbody
  -- The registers compared at 0 are equal, and the branch is taken.
  let start : Vu Unit := { vi := fun _ => 0, data := (), tpc := 0 }
  let slot : Vu Unit := { vi := fun _ => 0, data := (), tpc := 8, branch := 1, branchpc := 56 }
  let outside : Vu Unit := { vi := fun _ => 0, data := (), tpc := 56, branchpc := 56 }
  have hplan₀ : decodePair (fun _ => none) sideExitMicro 0 = some
      { pc := 0, upper := 0x000002ff, lower := 0x50020806, lowerKind := .ibeq, execLower := true
        ebit := false, dflag := false, tflag := false } := by decide +kernel
  have hplan₁ : decodePair (fun _ => none) sideExitMicro 8 = some
      { pc := 8, upper := 0x000002ff, lower := 0x8000033c
        ebit := false, dflag := false, tflag := false } := by decide +kernel
  have hstep₀ : step bareSemantics (fun _ => none) sideExitMicro 0 start = .pairCompleted slot := by
    rw [step, show start.pc = 0 from rfl, hplan₀]
    rfl
  have hstep₁ : step bareSemantics (fun _ => none) sideExitMicro 0 slot =
      .pairCompleted outside := by
    rw [step, show slot.pc = 8 from rfl, hplan₁]
    rfl
  obtain ⟨delayed, hrun⟩ : ∃ delayed, Run bareSemantics (fun _ => none) sideExitMicro 0
      (fun _ _ => True) start [0, 8] (.running outside delayed) :=
    ⟨_, .pair (.pair .start trivial hstep₀) trivial hstep₁⟩
  have hpairs : pairSequence analysis.blocks ([] ++ [0]) [] = [0, 8] := by
    rw [pairSequence_leave, pairSequence, List.flatMap_nil, List.nil_append, hpcs]
  have hexecutes : Executes bareSemantics (fun _ => none) sideExitMicro 0 analysis plan.entryBlock
      ([] ++ [0]) 3 := by
    refine ⟨?_, start, outside, delayed, ⟨by rw [hstart]; rfl, rfl, rfl, rfl⟩, ?_, htarget.symm⟩
    · rw [hentry]
      exact Path.start.next (leads_of_leads hleads)
    · rw [hpairs]
      exact hrun
  have heq := hall Unit bareSemantics (fun _ => none) sideExitMicro 0 16 8 8 0 analysis loops plan
    hanalysis hloops hplan [] 0 3 hexecutes loop hloop (by rw [hbody]; decide)
    (by rw [hbody]; decide)
  rw [hlatch] at heq
  cases heq

end VitaSX2.Vu1
