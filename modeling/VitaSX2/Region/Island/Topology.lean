/-
The topology of a region that `Build` accepts, and why it refuses others.

`Verify` accepts only programs whose blocks are all reached from the entry, so the
computed dominators are those of the graph.
-/
import VitaSX2.Region.IR.Facts
import VitaSX2.Region.Island.Nesting

namespace VitaSX2.SemanticIsland

open RegionIR Walks Attempt Laminar

/-- The graph of the internal transfers of a program. -/
def programGraph (program : Program) : Walks.Graph EdgeRef ℕ := graph (programEdges program)

variable {program : Program} {e : EdgeRef} {a b : ℕ}

/-! ### Verified programs -/

lemma mem_visitTransfers {terminator : Terminator} :
    (∃ visit ∈ visitTransfers terminator, visit.1.targetBlock = some b) ↔
      b ∈ terminator.internalTransfers.filterMap Transfer.targetBlock := by
  rw [List.mem_filterMap]
  have hvisits : (visitTransfers terminator).map Prod.fst =
      terminator.taken :: (if terminator.kind = .branch then [terminator.notTaken] else []) ++
        (if terminator.kind = .registerJump then terminator.registerTargets else []) := by
    unfold visitTransfers
    rw [List.map_append, List.map_cons]
    congr 1
    · split <;> rfl
    · split
      · rw [List.map_map]
        exact List.zipIdx_map_fst _ _
      · rfl
  constructor
  · rintro ⟨visit, hvisit, htarget⟩
    refine ⟨visit.1, List.mem_filter.mpr ⟨hvisits ▸ List.mem_map_of_mem hvisit, ?_⟩, htarget⟩
    rw [htarget]
    rfl
  · rintro ⟨transfer, htransfer, htarget⟩
    have hmem := (List.mem_filter.mp htransfer).1
    rw [← hvisits] at hmem
    obtain ⟨visit, hvisit, rfl⟩ := List.mem_map.mp hmem
    exact ⟨visit, hvisit, htarget⟩

lemma mem_programEdges :
    e ∈ programEdges program ↔
      ∃ block, program.blocks[e.source]? = some block ∧ e ∈ blockEdges e.source block := by
  rw [programEdges, List.mem_flatMap]
  have hsource : ∀ {source : ℕ} {block : Block}, e ∈ blockEdges source block → e.source = source := by
    intro source block he
    obtain ⟨visit, -, he⟩ := List.mem_filterMap.mp he
    obtain ⟨target, -, rfl⟩ := Option.map_eq_some_iff.mp he
    rfl
  constructor
  · rintro ⟨⟨block, source⟩, hblock, he⟩
    obtain rfl := hsource he
    exact ⟨block, List.mem_zipIdx_iff_getElem?.mp hblock, he⟩
  · rintro ⟨block, hblock, he⟩
    exact ⟨(block, e.source), List.mem_zipIdx_iff_getElem?.mpr hblock, he⟩

/-- What the exploration of `Verify` follows are the edges. -/
lemma inspectEdge_iff :
    Worklist.Edge (fun index => (program.blocks[index]?).map fun block =>
        block.terminator.internalTransfers.filterMap Transfer.targetBlock) a b ↔
      ∃ e ∈ programEdges program, e.source = a ∧ e.target = b := by
  constructor
  · rintro ⟨successors, hinspect, hb⟩
    obtain ⟨block, hblock, rfl⟩ := Option.map_eq_some_iff.mp hinspect
    obtain ⟨visit, hvisit, htarget⟩ := mem_visitTransfers.mpr hb
    refine ⟨⟨a, b, visit.2, visit.1⟩, mem_programEdges.mpr ⟨block, hblock, ?_⟩, rfl, rfl⟩
    refine List.mem_filterMap.mpr ⟨visit, hvisit, ?_⟩
    dsimp only
    rw [htarget]
    rfl
  · rintro ⟨e, he, rfl, rfl⟩
    obtain ⟨block, hblock, he⟩ := mem_programEdges.mp he
    refine ⟨_, Option.map_eq_some_iff.mpr ⟨block, hblock, rfl⟩, mem_visitTransfers.mp ?_⟩
    obtain ⟨visit, hvisit, hedge⟩ := List.mem_filterMap.mp he
    obtain ⟨target, htarget, heq⟩ := Option.map_eq_some_iff.mp hedge
    exact ⟨visit, hvisit, htarget.trans (congrArg (some ·.target) heq)⟩

/-- Every block of a verified program is reached from its entry. -/
theorem rooted_of_verify (h : verify program = true) (hsmall : program.blocks.length < 64) :
    Rooted (programEdges program) program.blocks.length program.entryBlock := by
  have hreachable : program.checkReachable = true := by
    rw [verify, Bool.and_eq_true] at h
    exact h.2
  unfold Program.checkReachable at hreachable
  obtain ⟨visited, hexplore, hall⟩ := (Option.any_eq_true _ _).mp hreachable
  have hvisited : ∀ b < program.blocks.length, b ∈ visited := fun b hb =>
    List.contains_iff_mem.mp (List.all_eq_true.mp hall b (List.mem_range.mpr hb))
  have hreach : ∀ b < program.blocks.length, Relation.ReflTransGen (Worklist.Edge _)
      program.entryBlock b := fun b hb =>
    Worklist.reachable_of_explore (by simpa using .refl) (by simp) hexplore b (hvisited b hb)
  have hsource : ∀ e ∈ programEdges program, e.source < program.blocks.length := by
    intro e he
    obtain ⟨block, hblock, -⟩ := mem_programEdges.mp he
    exact (List.getElem?_eq_some_iff.mp hblock).1
  refine ⟨hsmall, (verified_of_verify h).entry, hsource, fun e he => ?_, fun b hb => ?_⟩
  · have hedge := inspectEdge_iff.mpr ⟨e, he, rfl, rfl⟩
    have haccepted := (Worklist.accepted_of_reachable hexplore
      ((hreach _ (hsource e he)).tail hedge)).2
    simpa using haccepted
  · refine Walks.Graph.reaches_of_reflTransGen (Relation.ReflTransGen.mono (fun _ _ hedge => ?_) _ _
      (hreach b hb))
    exact inspectEdge_iff.mp hedge

/-! ### What a plan promises -/

/-- An edge that the plan marks. -/
def Plan.Marks (plan : Plan) (e : EdgeRef) : Prop :=
  ∃ internal ∈ plan.internalEdges, internal.sourceBlock = e.source ∧
    internal.targetBlock = e.target ∧ internal.backedge = true

/-- The loop of the child has all its blocks in the other one. -/
def Loop.Inside (inner outer : Loop) : Prop := inner.blocks ⊆ outer.blocks

/-- The other loop has more blocks. -/
def Loop.StrictlyInside (inner outer : Loop) : Prop :=
  inner.Inside outer ∧ ¬ outer.Inside inner

/-- The nesting of the loops: parents are the smallest loops around a loop, and its
depth counts the loops around it. -/
structure NestingExact (loops : List Loop) : Prop where
  nested : ∀ loop ∈ loops, ∀ loop' ∈ loops,
    loop.Inside loop' ∨ loop'.Inside loop ∨ loop.blocks.Disjoint loop'.blocks
  noParent : ∀ loop ∈ loops, loop.parentLoop = none → ∀ outer ∈ loops, ¬ loop.StrictlyInside outer
  parent : ∀ loop ∈ loops, ∀ index, loop.parentLoop = some index →
    ∃ parent, loops[index]? = some parent ∧ loop.StrictlyInside parent ∧
      ∀ outer ∈ loops, loop.StrictlyInside outer → parent.Inside outer
  depth : ∀ loop ∈ loops,
    loop.depth = (loops.filter fun outer => loop.blocks.all (· ∈ outer.blocks)).length

/-- The plan has the back edges, an order along the other edges, and the natural loops
with their nesting. -/
structure PlanExact (program : Program) (plan : Plan) : Prop where
  edges : plan.internalEdges.map (fun e => (e.sourceBlock, e.targetBlock, e.ordinal)) =
    (programEdges program).map fun e => (e.source, e.target, e.ordinal)
  backedge : ∀ e ∈ plan.internalEdges, e.backedge = true ↔
    (programGraph program).Dominates program.entryBlock e.targetBlock e.sourceBlock
  cycle : ∀ cycle, (programGraph program).IsCycle cycle → ∃ e ∈ cycle, plan.Marks e
  order : plan.acyclicOrder.Perm (List.range program.blocks.length)
  forward : ∀ e ∈ plan.internalEdges, e.backedge = false →
    plan.acyclicOrder.idxOf e.sourceBlock < plan.acyclicOrder.idxOf e.targetBlock
  headers : (plan.loops.map Loop.headerBlock).Pairwise (· < ·)
  header : ∀ header, header ∈ plan.loops.map Loop.headerBlock ↔
    ∃ e ∈ programEdges program, plan.Marks e ∧ e.target = header
  loops : ∀ loop ∈ plan.loops, LoopExact (programEdges program) plan.Marks loop
  nesting : NestingExact plan.loops

/-- A cycle in which no edge leads to a dominator of its source. -/
def Irreducible (program : Program) : Prop :=
  ∃ cycle, (programGraph program).IsCycle cycle ∧ ∀ e ∈ cycle,
    ¬ (programGraph program).Dominates program.entryBlock e.target e.source

/-! ### The passes -/

section Passes

variable {α : Type} {P : α → Prop} {Q : BuildFailure → Prop}

lemma meets_liftLoop {result : Option α} {a : α} (h : result = some a) (ha : P a) :
    Meets P Q (liftLoop result) := by
  rw [h]
  exact meets_mk ha

lemma meets_failIf {condition : Bool} {failure : BuildFailure} (h : condition = true → Q failure) :
    Meets (fun _ => condition = false) Q (failIf condition failure) := by
  cases condition with
  | true => exact meets_throw (h rfl)
  | false => exact meets_pure rfl

lemma meets_failOn {found : Option BuildFailure} (h : ∀ failure, found = some failure → Q failure) :
    Meets (fun _ => found = none) Q (failOn found) := by
  cases found with
  | some failure => exact meets_throw (h failure rfl)
  | none => exact meets_pure rfl

end Passes

/-! ### The loops that have been found -/

variable {edges : List EdgeRef} {blockCount entry : ℕ} {dominators : ℕ → BitVec 64}
  {results : List (BitVec 64 × Loop)}

/-- One loop for every header. -/
structure Found (edges : List EdgeRef) (blockCount : ℕ) (dominators : ℕ → BitVec 64)
    (results : List (BitVec 64 × Loop)) : Prop where
  keys : results.map (fun result => result.2.headerBlock) = headers edges blockCount dominators
  members : HoldMembers results
  exact : ∀ result ∈ results, LoopExact edges (isBackedge blockCount dominators ·) result.2

lemma found_of_forall₂ {l : List ℕ} (h : List.Forall₂ (fun header (result : BitVec 64 × Loop) =>
      result.2.headerBlock = header ∧ (∀ b, b ∈ result.2.blocks ↔ result.1.getLsbD b) ∧
        LoopExact edges (isBackedge blockCount dominators ·) result.2) l results) :
    results.map (fun result => result.2.headerBlock) = l ∧ HoldMembers results ∧
      ∀ result ∈ results, LoopExact edges (isBackedge blockCount dominators ·) result.2 := by
  induction h with
  | nil => exact ⟨rfl, fun _ hresult => (nomatch hresult), fun _ hresult => (nomatch hresult)⟩
  | cons hfirst _ ih =>
    obtain ⟨hheaders, hmembers, hexact⟩ := ih
    refine ⟨?_, List.forall_mem_cons.mpr ⟨hfirst.2.1, hmembers⟩,
      List.forall_mem_cons.mpr ⟨hfirst.2.2, hexact⟩⟩
    rw [List.map_cons, hfirst.1, hheaders]

lemma mem_headers {header : ℕ} (hroot : Rooted edges blockCount entry) :
    header ∈ headers edges blockCount dominators ↔
      ∃ e ∈ edges, isBackedge blockCount dominators e ∧ e.target = header := by
  rw [headers, List.mem_filter, List.mem_range, Bool.not_eq_true', List.isEmpty_eq_false_iff_exists_mem]
  constructor
  · rintro ⟨-, e, he⟩
    exact ⟨e, mem_latchEdges.mp he⟩
  · rintro ⟨e, he, hback, rfl⟩
    exact ⟨hroot.target_lt e he, e, mem_latchEdges.mpr ⟨he, hback, rfl⟩⟩

lemma pairwise_headers : (headers edges blockCount dominators).Pairwise (· < ·) :=
  List.pairwise_lt_range.filter _

/-- Two headers with the same loop dominate each other. -/
lemma Found.family (hroot : Rooted edges blockCount entry)
    (hdom : HoldsDominators edges blockCount entry dominators)
    (h : Found edges blockCount dominators results)
    (hoverlap : findOverlap (results.map Prod.fst) = none) :
    Family (blockSets (results.map Prod.fst)) results.length := by
  have hlatch : ∀ e ∈ (graph edges).edges, isBackedge blockCount dominators e →
      (graph edges).Dominates entry e.target e.source := fun e he => (isBackedge_iff hroot hdom he).mp
  have hblock : ∀ i < results.length, ∃ loop, results[i]? = some loop ∧
      loop.2.headerBlock ∈ headers edges blockCount dominators ∧
      ∀ b, b ∈ blockSets (results.map Prod.fst) i ↔
        (graph edges).NaturalLoop (isBackedge blockCount dominators ·) loop.2.headerBlock b := by
    intro i hi
    have hget := List.getElem?_eq_getElem hi
    have hmem := List.mem_of_getElem? hget
    refine ⟨results[i], hget, ?_, fun b => ?_⟩
    · rw [← h.keys]
      exact List.mem_map_of_mem hmem
    · rw [blockSets, mem_members, List.getD_eq_getElem?_getD, List.getElem?_map, hget,
        ← (h.exact _ hmem).blocks b]
      exact (h.members _ hmem b).symm
  refine ⟨fun i hi j hj => ?_, fun i hi => ?_, fun i hi j hj heq => ?_⟩
  · refine nested_of_findOverlap hoverlap ?_ ?_ <;> rwa [List.length_map]
  · obtain ⟨loop, -, -, hblocks⟩ := hblock i hi
    exact ⟨_, (hblocks _).mpr (Or.inl rfl)⟩
  · obtain ⟨loop, hloop, hheader, hblocks⟩ := hblock i hi
    obtain ⟨loop', hloop', -, hblocks'⟩ := hblock j hj
    have hdominates : (graph edges).Dominates entry loop'.2.headerBlock loop.2.headerBlock :=
      Walks.Graph.NaturalLoop.dominates hlatch ((hblocks' _).mp (heq ▸ (hblocks _).mpr (Or.inl rfl)))
    have hdominates' : (graph edges).Dominates entry loop.2.headerBlock loop'.2.headerBlock :=
      Walks.Graph.NaturalLoop.dominates hlatch ((hblocks _).mp (heq ▸ (hblocks' _).mpr (Or.inl rfl)))
    obtain ⟨e, he, -, htarget⟩ := (mem_headers hroot).mp hheader
    have hsame := Walks.Graph.dominates_antisymm hdominates' hdominates
      (hroot.reached _ (htarget ▸ hroot.target_lt e he))
    have hnodup : (results.map fun result => result.2.headerBlock).Nodup :=
      h.keys ▸ pairwise_headers.imp fun hlt => Nat.ne_of_lt hlt
    refine (List.getElem?_inj (by rwa [List.length_map]) hnodup).mp ?_
    rw [List.getElem?_map, List.getElem?_map, hloop, hloop', Option.map_some, Option.map_some, hsame]

lemma nestingExact_nestLoops (hmembers : HoldMembers results)
    (h : Family (blockSets (results.map Prod.fst)) results.length) : NestingExact (nestLoops results) := by
  have hinside : ∀ {i j loop loop'}, (nestLoops results)[i]? = some loop →
      (nestLoops results)[j]? = some loop' → (loop.Inside loop' ↔
        blockSets (results.map Prod.fst) i ⊆ blockSets (results.map Prod.fst) j) := by
    intro i j loop loop' hi hj
    obtain ⟨-, hblocks, -⟩ := nestLoops_spec hmembers h hi
    obtain ⟨-, hblocks', -⟩ := nestLoops_spec hmembers h hj
    constructor
    · intro hsub b hb
      exact (hblocks' b).mp (hsub ((hblocks b).mpr hb))
    · intro hsub b hb
      exact (hblocks' b).mpr (hsub ((hblocks b).mp hb))
  have hstrict : ∀ {i j loop loop'}, (nestLoops results)[i]? = some loop →
      (nestLoops results)[j]? = some loop' → (loop.StrictlyInside loop' ↔
        blockSets (results.map Prod.fst) i ⊂ blockSets (results.map Prod.fst) j) := fun hi hj =>
    and_congr (hinside hi hj) (not_congr (hinside hj hi))
  have hlength : (nestLoops results).length = results.length := by simp [nestLoops]
  refine ⟨fun loop hloop loop' hloop' => ?_, fun loop hloop hnone outer houter => ?_,
    fun loop hloop index hsome => ?_, fun loop hloop => ?_⟩ <;>
    obtain ⟨i, hi⟩ := List.mem_iff_getElem?.mp hloop <;>
    obtain ⟨hlt, hblocks, hparent, hdepth⟩ := nestLoops_spec hmembers h hi
  · obtain ⟨j, hj⟩ := List.mem_iff_getElem?.mp hloop'
    obtain ⟨hlt', hblocks', -⟩ := nestLoops_spec hmembers h hj
    rcases h.nested i hlt j hlt' with hsub | hsub | hdisjoint
    · exact Or.inl ((hinside hi hj).mpr hsub)
    · exact Or.inr (Or.inl ((hinside hj hi).mpr hsub))
    · refine Or.inr (Or.inr fun b hb hb' => ?_)
      exact Finset.disjoint_left.mp hdisjoint ((hblocks b).mp hb) ((hblocks' b).mp hb')
  · obtain ⟨j, hj⟩ := List.mem_iff_getElem?.mp houter
    rw [hnone] at hparent
    exact fun hsub => hparent j (nestLoops_spec hmembers h hj).1 ((hstrict hi hj).mp hsub)
  · rw [hsome] at hparent
    obtain ⟨hindex, hsub, hleast⟩ := hparent
    obtain ⟨parent, hget⟩ : ∃ parent, (nestLoops results)[index]? = some parent :=
      ⟨_, List.getElem?_eq_getElem (hlength.symm ▸ hindex)⟩
    refine ⟨parent, hget, (hstrict hi hget).mpr hsub, fun outer houter hsub' => ?_⟩
    obtain ⟨j, hj⟩ := List.mem_iff_getElem?.mp houter
    exact (hinside hget hj).mpr
      (hleast j (nestLoops_spec hmembers h hj).1 ((hstrict hi hj).mp hsub'))
  · rw [hdepth, around, ← hlength]
    refine (length_filter_eq_card _ _ _ fun j outer hj => ?_).symm
    rw [← hinside hi hj, List.all_eq_true]
    simp only [decide_eq_true_eq]
    rfl

/-! ### The plan -/

/-- The plan of a program whose order is complete and whose loops do not overlap. -/
lemma planExact (hroot : Rooted (programEdges program) program.blocks.length program.entryBlock)
    (hdom : HoldsDominators (programEdges program) program.blocks.length program.entryBlock dominators)
    {order : List ℕ} (hordered : Ordered (programEdges program) program.blocks.length dominators order)
    (hfound : Found (programEdges program) program.blocks.length dominators results)
    (hoverlap : findOverlap (results.map Prod.fst) = none) :
    PlanExact program
      { entryBlock := program.entryBlock
        acyclicOrder := order
        internalEdges :=
          (programEdges program).map (internalEdge program.blocks.length dominators)
        loops := nestLoops results
        maximumLoopDepth := ((nestLoops results).map Loop.depth).foldl max 0
        hasRepeatedCore := !results.isEmpty } := by
  have hmarks : ∀ (plan : Plan), plan.internalEdges =
      (programEdges program).map (internalEdge program.blocks.length dominators) →
        ∀ e ∈ programEdges program,
          plan.Marks e ↔ isBackedge program.blocks.length dominators e = true := by
    rintro plan hplan e he
    rw [Plan.Marks, hplan]
    constructor
    · rintro ⟨internal, hinternal, hsource, htarget, hback⟩
      obtain ⟨e', he', rfl⟩ := List.mem_map.mp hinternal
      have hback' := (isBackedge_iff hroot hdom he').mp hback
      exact (isBackedge_iff hroot hdom he).mpr (by
        rw [← show e'.source = e.source from hsource, ← show e'.target = e.target from htarget]
        exact hback')
    · exact fun hback => ⟨_, List.mem_map_of_mem he, rfl, rfl, hback⟩
  have hloop : ∀ loop ∈ nestLoops results, ∃ result ∈ results,
      loop.headerBlock = result.2.headerBlock ∧ loop.blocks = result.2.blocks ∧
        loop.latchBlocks = result.2.latchBlocks := by
    intro loop hloop
    obtain ⟨i, hi⟩ := List.mem_iff_getElem?.mp hloop
    rw [getElem?_nestLoops] at hi
    obtain ⟨result, hresult, rfl⟩ := Option.map_eq_some_iff.mp hi
    exact ⟨result, List.mem_of_getElem? hresult, rfl, rfl, rfl⟩
  have hheaders : (nestLoops results).map Loop.headerBlock =
      headers (programEdges program) program.blocks.length dominators := by
    rw [← hfound.keys]
    apply List.ext_getElem?
    intro i
    rw [List.getElem?_map, getElem?_nestLoops, List.getElem?_map, Option.map_map]
    rfl
  refine ⟨?_, ?_, ?_, hordered.perm, ?_, ?_, ?_, ?_, ?_⟩
  · rw [List.map_map]
    rfl
  · intro internal hinternal
    obtain ⟨e, he, rfl⟩ := List.mem_map.mp hinternal
    exact isBackedge_iff hroot hdom he
  · intro cycle hcycle
    obtain ⟨e, he, hnot⟩ := hcycle.exists_not_lt (order.idxOf ·)
    obtain ⟨-, a, hwalk⟩ := hcycle
    have hmem : e ∈ programEdges program := hwalk.subset e he
    refine ⟨e, he, (hmarks _ rfl e hmem).mpr ?_⟩
    exact (Bool.eq_false_or_eq_true _).resolve_right fun hback => hnot (hordered.forward e hmem hback)
  · intro internal hinternal hback
    obtain ⟨e, he, rfl⟩ := List.mem_map.mp hinternal
    exact hordered.forward e he hback
  · rw [hheaders]
    exact pairwise_headers
  · intro header
    rw [hheaders, mem_headers hroot]
    refine exists_congr fun e => and_congr_right fun he => and_congr_left' ?_
    exact (hmarks _ rfl e he).symm
  · intro loop hmem
    obtain ⟨result, hresult, hheader, hblocks, hlatches⟩ := hloop loop hmem
    have hexact := hfound.exact result hresult
    refine LoopExact.congr ⟨?_, ?_, ?_⟩ fun e he => (hmarks _ rfl e he).symm
    · rw [hheader, hblocks]
      exact hexact.blocks
    · rw [hheader, hlatches]
      exact hexact.latches
    · rw [hblocks]
      exact hexact.ascending
  · exact nestingExact_nestLoops hfound.members (hfound.family hroot hdom hoverlap)

/-- The graph of a rooted program is analysed exactly. -/
theorem meets_buildTopology
    (hroot : Rooted (programEdges program) program.blocks.length program.entryBlock) :
    Meets (PlanExact program) (fun e => e.failure = .irreducibleControlFlow → Irreducible program)
      (buildTopology program) := by
  obtain ⟨dominators, hdominators, hdom⟩ := exists_computeDominators hroot
  unfold buildTopology
  refine (meets_failOn fun failure hfound => ?_).bind fun _ _ => ?_
  · obtain ⟨edge, -, rfl⟩ := Option.map_eq_some_iff.mp hfound
    exact nofun
  refine (meets_liftLoop hdominators rfl : Meets (· = dominators) _ _).bind fun dominators hd => ?_
  subst hd
  have hindegrees : Meets (fun indegree =>
      countIndegrees (programEdges program) program.blocks.length dominators = some indegree)
      (fun e : BuildFailure => e.failure = .irreducibleControlFlow → Irreducible program)
      (indegrees program.blocks.length (programEdges program) dominators) := by
    unfold indegrees
    split
    next indegree hcount => exact meets_pure hcount
    next => exact meets_throw nofun
  refine hindegrees.bind fun indegree hindegree => ?_
  obtain ⟨order, horder, hordered, hcycle⟩ := exists_acyclicOrder hroot hindegree
  refine (meets_liftLoop horder rfl : Meets (· = order) _ _).bind fun o ho => ?_
  subst ho
  refine (meets_failIf fun hnot _ => ?_).bind fun _ hall => ?_
  · -- The blocks that are left hold a cycle without a marked edge.
    obtain ⟨cycle, hcycle, hunmarked⟩ := hcycle (by simpa using hnot)
    obtain ⟨-, a, hwalk⟩ := id hcycle
    refine ⟨cycle, hcycle, fun e he hdominates => ?_⟩
    have hback := (isBackedge_iff hroot hdom (hwalk.subset e he)).mpr hdominates
    rw [hunmarked e he] at hback
    cases hback
  refine (meets_mapM fun header hheader => meets_buildLoop hroot hdom ?_).bind fun results hresults => ?_
  · exact List.mem_range.mp (List.mem_filter.mp hheader).1
  refine (meets_failOn fun failure hfound => ?_).bind fun _ hnone => ?_
  · obtain ⟨pair, -, rfl⟩ := Option.map_eq_some_iff.mp hfound
    exact nofun
  obtain ⟨hkeys, hmembers, hexact⟩ := found_of_forall₂ hresults
  exact meets_pure (planExact hroot hdom (hordered (by simpa using hall)) ⟨hkeys, hmembers, hexact⟩
    (Option.map_eq_none_iff.mp hnone))

/-- **`Build` returns; its plan is the exact topology of the region, and it calls only
irreducible regions irreducible.** -/
theorem build_exact (passes : Passes) (program : Program) :
    ∃ result, (build passes program).run = some result ∧
      (∀ plan, result = .ok plan → PlanExact program plan) ∧
      ∀ e, result = .error e → e.failure = .irreducibleControlFlow → Irreducible program := by
  have hbuild : Meets (PlanExact program)
      (fun e => e.failure = .irreducibleControlFlow → Irreducible program)
      (build passes program) := by
    have hcheck : Meets
        (fun _ => verify program = true ∧ program.blocks.length ≤ maxIslandBlocks)
        (fun e => e.failure = .irreducibleControlFlow → Irreducible program)
        (checkProgram passes program) := by
      unfold checkProgram
      refine (meets_failIf fun _ => nofun).bind fun _ hverify => ?_
      refine (meets_failIf fun _ => nofun).bind fun _ _ => ?_
      refine (meets_failIf fun _ => nofun).bind fun _ hsize => ?_
      refine (meets_failOn fun failure hfailure => ?_).mono fun _ _ => ⟨by simpa using hverify, ?_⟩
      · obtain ⟨report, -, rfl⟩ := Option.map_eq_some_iff.mp hfailure
        exact nofun
      · simp only [Bool.or_eq_false_iff, decide_eq_false_iff_not, not_lt] at hsize
        exact hsize.1.2
    unfold build
    refine hcheck.bind fun _ ⟨hverify, hsize⟩ => ?_
    have hsmall : program.blocks.length < 64 := Nat.lt_succ_of_le hsize
    refine (meets_buildTopology (rooted_of_verify hverify hsmall)).bind fun plan hplan => ?_
    refine (meets_failOn fun failure hfailure => ?_).bind fun _ _ => ?_
    · obtain ⟨report, -, rfl⟩ := Option.map_eq_some_iff.mp hfailure
      exact nofun
    exact (meets_failIf fun _ => nofun).bind fun _ _ => meets_pure hplan
  obtain ⟨result, hrun, hresult⟩ := hbuild
  refine ⟨result, hrun, ?_, ?_⟩
  · rintro plan rfl
    exact hresult
  · rintro e rfl
    exact hresult

end VitaSX2.SemanticIsland
