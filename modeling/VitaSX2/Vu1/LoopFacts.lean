/-
What `FindNaturalLoops` finds: the dominators are dominators, the blocks of a loop are
those from which its latch is reached without its header, and the depths grow inwards.
-/
import VitaSX2.Lib.Settle
import VitaSX2.Lib.Walks
import VitaSX2.Vu1.BlockFacts
import VitaSX2.Vu1.NaturalLoops

namespace VitaSX2.Vu1

open Walks

/-- The graph of the blocks. -/
def cfgGraph (blocks : List BasicBlock) : Walks.Graph (ℕ × ℕ) ℕ where
  edges := (List.range blocks.length).flatMap fun source =>
    (edgeTargets blocks source).map fun target => (source, target)
  source := Prod.fst
  target := Prod.snd

variable {blocks : List BasicBlock} {entry source target a b : ℕ}

lemma source_lt_of_target (h : target ∈ blockTargets blocks source) : source < blocks.length := by
  by_contra hge
  rw [blockTargets, blockAt, List.getD_eq_getElem?_getD, List.getElem?_eq_none (not_lt.mp hge)] at h
  exact List.not_mem_nil h

lemma mem_cfgGraph {e : ℕ × ℕ} : e ∈ (cfgGraph blocks).edges ↔ BlockEdge blocks e.1 e.2 := by
  constructor
  · intro he
    obtain ⟨source, -, he⟩ := List.mem_flatMap.mp he
    obtain ⟨target, htarget, rfl⟩ := List.mem_map.mp he
    exact htarget
  · intro hedge
    have hsource := source_lt_of_target (List.mem_filter.mp hedge).1
    exact List.mem_flatMap.mpr ⟨e.1, List.mem_range.mpr hsource, List.mem_map.mpr ⟨e.2, hedge, rfl⟩⟩

lemma mem_predecessors (htarget : target < blocks.length) :
    source ∈ predecessors blocks target ↔ BlockEdge blocks source target := by
  rw [predecessors, List.mem_flatMap, BlockEdge, edgeTargets, List.mem_filter,
    decide_eq_true htarget]
  constructor
  · rintro ⟨source', -, hmem⟩
    obtain ⟨target', htarget', rfl⟩ := List.mem_map.mp hmem
    obtain ⟨hedge, heq⟩ := List.mem_filter.mp htarget'
    exact ⟨of_decide_eq_true heq ▸ hedge, rfl⟩
  · rintro ⟨hedge, -⟩
    exact ⟨source, List.mem_range.mpr (source_lt_of_target hedge), List.mem_map.mpr
      ⟨target, List.mem_filter.mpr ⟨hedge, decide_eq_true rfl⟩, rfl⟩⟩

/-! ### Dominators -/

/-- A bit of the table. -/
def Dominated (dominators : List (List Bool)) (b a : ℕ) : Prop :=
  (dominators.getD b []).getD a false = true

lemma getD_foldl_zipWith (rows : ℕ → List Bool) (l : List ℕ) (start : List Bool)
    (h : (l.foldl (fun next p => next.zipWith (· && ·) (rows p)) start).getD a false = true) :
    start.getD a false = true ∧ ∀ p ∈ l, (rows p).getD a false = true := by
  induction l generalizing start with
  | nil => exact ⟨h, by simp⟩
  | cons p l ih =>
    obtain ⟨hfirst, hrest⟩ := ih _ h
    rw [List.getD_eq_getElem?_getD, List.getElem?_zipWith] at hfirst
    have hboth : start.getD a false = true ∧ (rows p).getD a false = true := by
      rw [List.getD_eq_getElem?_getD, List.getD_eq_getElem?_getD]
      cases hs : start[a]? <;> cases hr : (rows p)[a]? <;> rw [hs, hr] at hfirst <;>
        simp_all
    exact ⟨hboth.1, List.forall_mem_cons.mpr ⟨hboth.2, hrest⟩⟩

/-- What is in the next row is the block or in the rows of all predecessors. -/
lemma dominated_next {dominators : List (List Bool)}
    (h : (nextDominators blocks dominators b).getD a false = true) :
    a = b ∨ ∀ p ∈ predecessors blocks b, Dominated dominators p a := by
  by_cases hab : a = b
  · exact Or.inl hab
  refine Or.inr ?_
  unfold nextDominators at h
  dsimp only at h
  rw [List.getD_eq_getElem?_getD, List.getElem?_set_ne (Ne.symm hab),
    ← List.getD_eq_getElem?_getD] at h
  split at h
  next hnone => simp [hnone]
  next => exact (getD_foldl_zipWith (fun p => dominators.getD p []) _ _ h).2

/-- The last pass changes nothing, and no pass changes the row of the entry. -/
lemma dominatorPasses_spec {fuel : ℕ} {start dominators : List (List Bool)}
    (h : dominatorPasses blocks entry fuel start = some dominators) :
    dominators.getD entry [] = start.getD entry [] ∧
      ∀ b < blocks.length, b ≠ entry →
        nextDominators blocks dominators b = dominators.getD b [] := by
  have hentry : ∀ (l : List ℕ) (state : List (List Bool) × Bool),
      (l.foldl (dominatorStep blocks entry) state).1.getD entry [] = state.1.getD entry [] := by
    intro l
    induction l with
    | nil => exact fun _ => rfl
    | cons b l ih =>
      intro state
      rw [List.foldl_cons, ih]
      unfold dominatorStep
      split
      · rfl
      next hne =>
        dsimp only
        split
        · rw [List.getD_eq_getElem?_getD, List.getElem?_set_ne hne, ← List.getD_eq_getElem?_getD]
        · rfl
  have hstay : ∀ (d : List (List Bool)) b, (dominatorStep blocks entry (d, true) b).2 = true := by
    intro d b
    unfold dominatorStep
    split
    · rfl
    · dsimp only
      split <;> rfl
  have hraise : ∀ (d : List (List Bool)) b, dominatorStep blocks entry (d, false) b = (d, false) ∨
      (dominatorStep blocks entry (d, false) b).2 = true := by
    intro d b
    unfold dominatorStep
    split
    · exact Or.inl rfl
    · dsimp only
      split
      · exact Or.inr rfl
      · exact Or.inl rfl
  induction fuel generalizing start with
  | zero => cases h
  | succ fuel ih =>
    unfold dominatorPasses at h
    dsimp only at h
    split at h
    next =>
      obtain ⟨hrow, hnext⟩ := ih h
      exact ⟨hrow.trans (hentry _ _), hnext⟩
    next hquiet =>
      have hlast : (List.range blocks.length).foldl (dominatorStep blocks entry) (start, false) =
          (dominators, false) := Prod.ext (Option.some.inj h) (by simpa using hquiet)
      obtain ⟨rfl, hall⟩ := Settle.foldl_quiet hstay hraise hlast
      refine ⟨rfl, fun b hb hne => ?_⟩
      have hstep := hall b (List.mem_range.mpr hb)
      rw [dominatorStep, if_neg hne] at hstep
      dsimp only at hstep
      split at hstep
      next => cases congrArg Prod.snd hstep
      next heq => exact not_not.mp heq

/-- The table of `ComputeDominators` holds dominators only. -/
theorem dominates_of_computeDominators {fuel : ℕ} {dominators : List (List Bool)}
    (h : computeDominators blocks fuel entry = some dominators) (hentry : entry < blocks.length)
    (hbit : Dominated dominators b a) : (cfgGraph blocks).Dominates entry a b := by
  obtain ⟨hrow, hnext⟩ := dominatorPasses_spec h
  refine Graph.dominates_of_table (Dominated dominators) (fun a ha => ?_)
    (fun e he hne a ha => ?_) hbit
  · have hstart : ((List.replicate blocks.length (List.replicate blocks.length true)).set entry
        ((List.replicate blocks.length false).set entry true)).getD entry [] =
          (List.replicate blocks.length false).set entry true := by
      rw [List.getD_eq_getElem?_getD, List.getElem?_set_self (by simpa using hentry), Option.getD_some]
    by_contra hne
    rw [Dominated, hrow, hstart, List.getD_eq_getElem?_getD, List.getElem?_set_ne (Ne.symm hne),
      List.getElem?_replicate] at ha
    split at ha <;> cases ha
  · have hedge := mem_cfgGraph.mp he
    have htarget : e.2 < blocks.length := (mem_edgeTargets.mp hedge).1
    have ha' : (nextDominators blocks dominators e.2).getD a false = true := by
      rw [hnext e.2 htarget hne]
      exact ha
    exact (dominated_next ha').imp_right fun hall => hall _ ((mem_predecessors htarget).mpr hedge)

/-! ### Natural loops -/

/-- The blocks of a natural loop in ascending order. -/
lemma mem_collectNaturalLoop {header latch : ℕ} {members : List ℕ} (hlt : latch < blocks.length)
    (h : collectNaturalLoop blocks header latch = some members) :
    members.Pairwise (· < ·) ∧ ∀ b, b ∈ members ↔ b < blocks.length ∧
      (b = header ∨ b = latch ∨ (cfgGraph blocks).ReachesAvoiding header b latch) := by
  obtain ⟨marked, hmark, rfl⟩ := Option.map_eq_some_iff.mp h
  refine ⟨List.pairwise_lt_range.filter _, fun b => ?_⟩
  rw [List.mem_filter, List.mem_range, decide_eq_true_eq]
  refine and_congr_right fun hb => ?_
  by_cases hlatch : latch = header
  · subst hlatch
    rw [if_pos rfl] at hmark
    have hdone : ∀ n, Marking.mark (predecessors blocks) (· ≠ latch) n ⟨[latch], []⟩ = some [latch] :=
      fun n => by cases n <;> rfl
    rw [hdone] at hmark
    cases hmark
    rw [List.mem_singleton]
    refine ⟨Or.inl, ?_⟩
    rintro (heq | heq | havoid)
    · exact heq
    · exact heq
    · exact absurd rfl havoid.last_ne
  rw [if_neg hlatch] at hmark
  have hinv : Marking.Inv (predecessors blocks) (· ≠ header) [latch, header]
      ⟨[latch, header], [latch]⟩ :=
    { starts := fun a ha => ha
      pending := fun a ha => by
        obtain rfl := List.mem_singleton.mp ha
        exact ⟨List.mem_cons_self, decide_eq_true hlatch⟩
      reached := fun a ha => ⟨a, ha, .refl⟩
      closed := fun a ha hpushes => by
        refine Or.inl (List.mem_singleton.mpr ?_)
        simpa [of_decide_eq_true hpushes] using ha }
  rw [Marking.mem_mark_iff hinv hmark]
  -- The walk goes backwards over edges of the graph.
  let back : ℕ → ℕ → Prop := fun x y => x ≠ header ∧ ∃ e ∈ (cfgGraph blocks).edges,
    (cfgGraph blocks).target e = x ∧ (cfgGraph blocks).source e = y
  have hedge : ∀ x y, x < blocks.length →
      (Marking.Edge (predecessors blocks) (· ≠ header) x y ↔ back x y) := by
    intro x y hx
    rw [Marking.Edge, decide_eq_true_eq, mem_predecessors hx]
    refine and_congr_right fun _ => ⟨fun hxy => ⟨(y, x), mem_cfgGraph.mpr hxy, rfl, rfl⟩, ?_⟩
    rintro ⟨e, he, rfl, rfl⟩
    exact mem_cfgGraph.mp he
  have hreach : ∀ b, Relation.ReflTransGen (Marking.Edge (predecessors blocks) (· ≠ header)) latch b ↔
      Relation.ReflTransGen back latch b := by
    intro b
    constructor
    · intro hreach
      have hboth : Relation.ReflTransGen back latch b ∧ b < blocks.length := by
        induction hreach with
        | refl => exact ⟨.refl, hlt⟩
        | tail _ hxy ih =>
          obtain ⟨hne, e, he, hfirst, hlast⟩ := (hedge _ _ ih.2).mp hxy
          exact ⟨ih.1.tail ⟨hne, e, he, hfirst, hlast⟩,
            hlast ▸ source_lt_of_target (List.mem_filter.mp (mem_cfgGraph.mp he)).1⟩
      exact hboth.1
    · refine Relation.ReflTransGen.mono (fun x y hxy => (hedge x y ?_).mpr hxy) _ _
      obtain ⟨-, e, he, rfl, -⟩ := hxy
      exact (mem_edgeTargets.mp (mem_cfgGraph.mp he)).1
  have hstuck : Relation.ReflTransGen (Marking.Edge (predecessors blocks) (· ≠ header)) header b →
      b = header := by
    intro hreach
    rcases hreach.cases_head with heq | ⟨c, hfirst, -⟩
    · exact heq.symm
    · exact absurd hfirst.1 (by simp)
  constructor
  · rintro ⟨a, ha, hfrom⟩
    rcases List.mem_cons.mp ha with rfl | ha
    · by_cases hbh : b = header
      · exact Or.inl hbh
      · exact Or.inr (Or.inr ((Graph.reachesAvoiding_iff hbh).mpr ⟨hlatch, (hreach b).mp hfrom⟩))
    · obtain rfl := List.mem_singleton.mp ha
      exact Or.inl (hstuck hfrom)
  · rintro (rfl | rfl | havoid)
    · exact ⟨b, by simp, .refl⟩
    · exact ⟨b, by simp, .refl⟩
    · exact ⟨latch, by simp,
        (hreach b).mpr ((Graph.reachesAvoiding_iff havoid.first_ne).mp havoid).2⟩

/-- A loop as `FindNaturalLoops` finds it. -/
structure LoopOk (blocks : List BasicBlock) (entry : ℕ) (loop : NaturalLoop) : Prop where
  latch_lt : loop.latchBlock < blocks.length
  edge : loop.headerBlock ∈ blockTargets blocks loop.latchBlock
  dominates : (cfgGraph blocks).Dominates entry loop.headerBlock loop.latchBlock
  ascending : loop.blocks.Pairwise (· < ·)
  mem : ∀ b, b ∈ loop.blocks ↔ b < blocks.length ∧ (b = loop.headerBlock ∨ b = loop.latchBlock ∨
    (cfgGraph blocks).ReachesAvoiding loop.headerBlock b loop.latchBlock)

/-- The loops before the forest, and the forest. -/
lemma findNaturalLoops_spec {analysis : ProgramAnalysis} {fuel : ℕ} {loops : List NaturalLoop}
    (h : findNaturalLoops fuel analysis = some loops) :
    ∃ entry bases, analysis.entryBlock = some entry ∧ loops = loopForest analysis bases ∧
      ∀ base ∈ bases, LoopOk analysis.blocks entry base := by
  obtain ⟨entry, hentry, h⟩ := Option.bind_eq_some_iff.mp h
  obtain ⟨dominators, hdominators, h⟩ := Option.bind_eq_some_iff.mp h
  obtain ⟨bases, hbases, rfl⟩ := Option.map_eq_some_iff.mp h
  refine ⟨entry, bases, hentry, rfl, fun base hbase => ?_⟩
  obtain ⟨⟨position, hposition⟩, hget⟩ := List.get_of_mem hbase
  obtain ⟨hlength, hall⟩ := List.forall₂_iff_get.mp (forall₂_of_mapM hbases)
  have hedge := List.get_mem (backEdges analysis.blocks dominators) ⟨position, hlength ▸ hposition⟩
  obtain ⟨members, hmembers, heq⟩ := Option.map_eq_some_iff.mp
    (hall position (hlength ▸ hposition) hposition)
  rw [hget] at heq
  generalize (backEdges analysis.blocks dominators).get ⟨position, hlength ▸ hposition⟩ = edge
    at hedge hmembers heq
  obtain ⟨source, hsource, hmem⟩ := List.mem_flatMap.mp hedge
  obtain ⟨target, htarget, rfl⟩ := List.mem_map.mp hmem
  obtain ⟨htarget, hdom⟩ := List.mem_filter.mp htarget
  have hlt : source < analysis.blocks.length := List.mem_range.mp hsource
  obtain ⟨hascending, hcollect⟩ := mem_collectNaturalLoop hlt hmembers
  have hfields : base.headerBlock = target ∧ base.latchBlock = source ∧ base.blocks = members := by
    rw [← heq]
    unfold analyzeLoopCounter
    dsimp only
    split <;> exact ⟨rfl, rfl, rfl⟩
  obtain ⟨rfl, rfl, rfl⟩ := hfields
  exact ⟨hlt, htarget, dominates_of_computeDominators hdominators (entryBlock_lt hentry) hdom,
    hascending, hcollect⟩

end VitaSX2.Vu1
