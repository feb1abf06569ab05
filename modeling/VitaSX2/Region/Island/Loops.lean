/-
The walk over the predecessors finds the natural loop of a header.

A header dominates its latches, so it dominates everything from which a latch is
reached without it: the walk never meets an entry that bypasses the header.
-/
import VitaSX2.Lib.Attempt
import VitaSX2.Lib.Marking
import VitaSX2.Region.Island.Order

namespace VitaSX2.SemanticIsland

open Walks Attempt

variable {edges : List EdgeRef} {blockCount entry header : ℕ} {dominators : ℕ → BitVec 64}
  {mask : BitVec 64} {marks : Marking.Marks ℕ}

/-- A mask holds the marked blocks. -/
def Same (mask : BitVec 64) (marked : List ℕ) : Prop := ∀ i, mask.getLsbD i ↔ i ∈ marked

/-- A walk that has not failed: the header is marked and dominates what is pending. -/
structure WalkOk (edges : List EdgeRef) (entry header : ℕ) (mask : BitVec 64)
    (marks : Marking.Marks ℕ) : Prop where
  same : Same mask marks.marked
  marked : header ∈ marks.marked
  pending : ∀ b ∈ marks.work, b ≠ header ∧ (graph edges).Dominates entry header b

/-! ### One predecessor -/

/-- A predecessor that the header dominates is marked. -/
lemma WalkOk.visit (hroot : Rooted edges blockCount entry)
    (hdom : HoldsDominators edges blockCount entry dominators)
    (h : WalkOk edges entry header mask marks) (hheader : header < blockCount) {p : ℕ}
    (hp : p < blockCount) (hdominated : (graph edges).Dominates entry header p) :
    ∃ mask', visitPredecessor dominators header (mask, marks.work) p =
        .ok (mask', (Marking.markTarget (· ≠ header) marks p).work) ∧
      WalkOk edges entry header mask' (Marking.markTarget (· ≠ header) marks p) := by
  have hp64 : p < 64 := hp.trans hroot.small
  unfold visitPredecessor Marking.markTarget
  by_cases hmarked : p ∈ marks.marked
  · have hmask : mask.getLsbD p := (h.same p).mpr hmarked
    rw [if_pos (Or.inr hmask), if_pos hmarked]
    refine ⟨_, rfl, fun i => ?_, h.marked, h.pending⟩
    rw [getLsbD_or_bit hp64, h.same i]
    exact or_iff_left_of_imp fun hi => hi ▸ hmarked
  · have hne : p ≠ header := fun heq => hmarked (heq ▸ h.marked)
    have hmask : ¬ mask.getLsbD p := fun hmask => hmarked ((h.same p).mp hmask)
    have hbit : (dominators p).getLsbD header := (hdom header hheader p hp).mpr hdominated
    rw [if_neg (not_or.mpr ⟨hne, hmask⟩), if_neg hmarked]
    simp only [hbit, Bool.not_true, Bool.false_eq_true, if_false, decide_eq_true hne, if_true]
    refine ⟨_, rfl, fun i => ?_, List.mem_cons_of_mem _ h.marked, ?_⟩
    · rw [getLsbD_or_bit hp64, h.same i, List.mem_cons, or_comm]
    · exact List.forall_mem_cons.mpr ⟨⟨hne, hdominated⟩, h.pending⟩

lemma WalkOk.foldl (hroot : Rooted edges blockCount entry)
    (hdom : HoldsDominators edges blockCount entry dominators) (hheader : header < blockCount)
    {l : List ℕ} (hl : ∀ p ∈ l, p < blockCount ∧ (graph edges).Dominates entry header p)
    (h : WalkOk edges entry header mask marks) :
    ∃ mask', l.foldlM (visitPredecessor dominators header) (mask, marks.work) =
        .ok (mask', (l.foldl (Marking.markTarget (· ≠ header)) marks).work) ∧
      WalkOk edges entry header mask' (l.foldl (Marking.markTarget (· ≠ header)) marks) := by
  induction l generalizing mask marks with
  | nil => exact ⟨mask, rfl, h⟩
  | cons p l ih =>
    obtain ⟨hp, hl⟩ := List.forall_mem_cons.mp hl
    obtain ⟨mask', hvisit, hnext⟩ := h.visit hroot hdom hheader hp.1 hp.2
    obtain ⟨mask'', hfold, hdone⟩ := ih hl hnext
    refine ⟨mask'', ?_, hdone⟩
    rw [List.foldlM_cons, hvisit]
    exact hfold

/-! ### The walk -/

/-- The walk succeeds whenever marking ends, with what it marks. -/
lemma walkLoop_eq (hroot : Rooted edges blockCount entry)
    (hdom : HoldsDominators edges blockCount entry dominators) (hheader : header < blockCount)
    {fuel : ℕ} {result : List ℕ} (h : WalkOk edges entry header mask marks)
    (hmark : Marking.mark (predecessors edges) (· ≠ header) fuel marks = some result) :
    ∃ mask', walkLoop edges dominators header fuel (mask, marks.work) = some (.ok mask') ∧
      Same mask' result := by
  induction fuel generalizing mask marks with
  | zero =>
    obtain ⟨marked, - | ⟨block, work⟩⟩ := marks
    · cases hmark
      exact ⟨mask, rfl, h.same⟩
    · cases hmark
  | succ fuel ih =>
    obtain ⟨marked, - | ⟨block, work⟩⟩ := marks
    · cases hmark
      exact ⟨mask, rfl, h.same⟩
    · obtain ⟨⟨hne, hblock⟩, hwork⟩ := List.forall_mem_cons.mp h.pending
      have hpredecessors : ∀ p ∈ predecessors edges block,
          p < blockCount ∧ (graph edges).Dominates entry header p := by
        intro p hp
        obtain ⟨e, he, rfl, rfl⟩ := mem_predecessors.mp hp
        exact ⟨hroot.source_lt e he, (hblock.of_edge he).resolve_left (Ne.symm hne)⟩
      have hpopped : WalkOk edges entry header mask ⟨marked, work⟩ := ⟨h.same, h.marked, hwork⟩
      obtain ⟨mask', hfold, hnext⟩ := hpopped.foldl hroot hdom hheader hpredecessors
      obtain ⟨mask'', hwalk, hsame⟩ := ih hnext hmark
      refine ⟨mask'', ?_, hsame⟩
      unfold walkLoop
      rw [hfold]
      exact hwalk

/-- The latches before the walk. -/
lemma startLoop_spec (hroot : Rooted edges blockCount entry) (header : ℕ) {latches : List EdgeRef}
    (hlatches : ∀ e ∈ latches, e ∈ edges) (mask : BitVec 64) (pending : List ℕ) :
    let start := latches.foldl (fun (mask, pending) latch =>
      (mask ||| bit latch.source,
        if latch.source ≠ header then latch.source :: pending else pending)) (mask, pending)
    (∀ i, start.1.getLsbD i ↔ mask.getLsbD i ∨ i ∈ latches.map EdgeRef.source) ∧
      start.2.length ≤ pending.length + latches.length ∧
      ∀ b, b ∈ start.2 ↔ b ∈ pending ∨ b ≠ header ∧ b ∈ latches.map EdgeRef.source := by
  induction latches generalizing mask pending with
  | nil => simp
  | cons e latches ih =>
    obtain ⟨he, hrest⟩ := List.forall_mem_cons.mp hlatches
    obtain ⟨hmask, hlength, hwork⟩ := ih hrest (mask ||| bit e.source)
      (if e.source ≠ header then e.source :: pending else pending)
    refine ⟨fun i => ?_, hlength.trans ?_, fun b => ?_⟩
    · rw [List.foldl_cons, hmask, getLsbD_or_bit ((hroot.source_lt e he).trans hroot.small),
        List.map_cons, List.mem_cons, or_assoc]
    · split <;> simp only [List.length_cons] <;> omega
    · rw [List.foldl_cons, hwork, List.map_cons, List.mem_cons]
      by_cases hsource : e.source = header
      · rw [if_neg (not_not.mpr hsource)]
        refine or_congr_right (and_congr_right fun hb => ?_)
        exact (or_iff_right fun heq => hb (heq.trans hsource)).symm
      · rw [if_pos hsource, List.mem_cons]
        constructor
        · rintro ((rfl | hb) | hb)
          · exact Or.inr ⟨hsource, Or.inl rfl⟩
          · exact Or.inl hb
          · exact Or.inr ⟨hb.1, Or.inr hb.2⟩
        · rintro (hb | ⟨hb, rfl | hmem⟩)
          · exact Or.inl (Or.inr hb)
          · exact Or.inl (Or.inl rfl)
          · exact Or.inr ⟨hb, hmem⟩

/-- A marked edge into a header. -/
lemma mem_latchEdges {e : EdgeRef} :
    e ∈ latchEdges edges blockCount dominators header ↔
      e ∈ edges ∧ isBackedge blockCount dominators e ∧ e.target = header := by
  rw [latchEdges, List.mem_filter, Bool.and_eq_true, decide_eq_true_eq]

/-- What is found backwards from the header and its latches is the natural loop. -/
lemma naturalLoop_iff {b : ℕ} :
    (∃ a ∈ header :: (latchEdges edges blockCount dominators header).map EdgeRef.source,
      Relation.ReflTransGen (Marking.Edge (predecessors edges) (· ≠ header)) a b) ↔
      (graph edges).NaturalLoop (isBackedge blockCount dominators ·) header b := by
  have hedge : ∀ x y, Marking.Edge (predecessors edges) (· ≠ header) x y ↔
      x ≠ header ∧ ∃ e ∈ (graph edges).edges, (graph edges).target e = x ∧
        (graph edges).source e = y := by
    intro x y
    rw [Marking.Edge, decide_eq_true_eq]
    exact and_congr_right fun _ => mem_predecessors
  have hrel : Marking.Edge (predecessors edges) (· ≠ header) = _ :=
    funext fun x => funext fun y => propext (hedge x y)
  -- Nothing is followed from the header.
  have hstuck : ∀ {b : ℕ}, Relation.ReflTransGen
      (Marking.Edge (predecessors edges) (· ≠ header)) header b → b = header := by
    intro b hreach
    rcases hreach.cases_head with heq | ⟨c, hfirst, -⟩
    · exact heq.symm
    · exact absurd rfl ((hedge _ _).mp hfirst).1
  constructor
  · rintro ⟨a, ha, hreach⟩
    by_cases hb : b = header
    · exact Or.inl hb
    rcases List.mem_cons.mp ha with rfl | ha
    · exact absurd (hstuck hreach) hb
    · obtain ⟨e, he, rfl⟩ := List.mem_map.mp ha
      obtain ⟨he, hback, htarget⟩ := mem_latchEdges.mp he
      have hsource : e.source ≠ header := fun heq => hb (hstuck (heq ▸ hreach))
      rw [hrel] at hreach
      exact Or.inr ⟨e, he, hback, htarget, (Walks.Graph.reachesAvoiding_iff hb).mpr ⟨hsource, hreach⟩⟩
  · rintro (rfl | ⟨e, he, hback, htarget, havoid⟩)
    · exact ⟨b, List.mem_cons_self, .refl⟩
    · refine ⟨e.source, List.mem_cons_of_mem _ (List.mem_map_of_mem
        (mem_latchEdges.mpr ⟨he, hback, htarget⟩)), ?_⟩
      rw [hrel]
      exact ((Walks.Graph.reachesAvoiding_iff havoid.first_ne).mp havoid).2

/-- The mask of a header is its natural loop. -/
theorem exists_walkLoop (hroot : Rooted edges blockCount entry)
    (hdom : HoldsDominators edges blockCount entry dominators) (hheader : header < blockCount) :
    let latches := latchEdges edges blockCount dominators header
    ∃ mask, walkLoop edges dominators header (latches.length + blockCount)
        (startLoop header latches) = some (.ok mask) ∧
      ∀ b, mask.getLsbD b ↔
        (graph edges).NaturalLoop (isBackedge blockCount dominators ·) header b := by
  intro latches
  have hlatches : ∀ e ∈ latches, e ∈ edges := fun e he => (mem_latchEdges.mp he).1
  obtain ⟨hmask, hlength, hwork⟩ := startLoop_spec hroot header hlatches (bit header) []
  obtain ⟨⟨mask, work⟩, hstart⟩ : ∃ start, startLoop header latches = start := ⟨_, rfl⟩
  have hfold : latches.foldl (fun (mask, pending) latch => (mask ||| bit latch.source,
      if latch.source ≠ header then latch.source :: pending else pending)) (bit header, []) =
        (mask, work) := hstart
  rw [hfold] at hmask hlength hwork
  simp only [List.not_mem_nil, false_or, List.length_nil, Nat.zero_add] at hmask hlength hwork
  have hbit : ∀ i, (bit header).getLsbD i = decide (i = header) := fun i =>
    getLsbD_bit (hheader.trans hroot.small)
  have hdominated : ∀ e ∈ latches, (graph edges).Dominates entry header e.source := by
    intro e he
    obtain ⟨hmem, hback, rfl⟩ := mem_latchEdges.mp he
    exact (isBackedge_iff hroot hdom hmem).mp hback
  let marks : Marking.Marks ℕ := ⟨header :: latches.map EdgeRef.source, work⟩
  have hok : WalkOk edges entry header mask marks := by
    refine ⟨fun i => ?_, List.mem_cons_self, fun b hb => ?_⟩
    · rw [hmask, hbit, decide_eq_true_eq, List.mem_cons]
    · obtain ⟨hne, hmem⟩ := (hwork b).mp hb
      obtain ⟨e, he, rfl⟩ := List.mem_map.mp hmem
      exact ⟨hne, hdominated e he⟩
  have hclosed : ∀ b, ∀ p ∈ predecessors edges b, p ∈ List.range blockCount := by
    intro b p hp
    obtain ⟨e, he, -, rfl⟩ := mem_predecessors.mp hp
    exact List.mem_range.mpr (hroot.source_lt e he)
  have hfuel : Marking.left (List.range blockCount) marks ≤ latches.length + blockCount := by
    have hfilter := List.length_filter_le (· ∉ marks.marked) (List.range blockCount)
    rw [List.length_range] at hfilter
    unfold Marking.left
    dsimp only [marks] at hfilter ⊢
    omega
  have hsome : (Marking.mark (predecessors edges) (· ≠ header) (latches.length + blockCount)
    marks).isSome := Marking.mark_isSome _ hclosed hfuel
  obtain ⟨result, hmark⟩ := Option.isSome_iff_exists.mp hsome
  obtain ⟨mask', hwalk, hsame⟩ := walkLoop_eq hroot hdom hheader hok hmark
  rw [hstart]
  refine ⟨mask', hwalk, fun b => ?_⟩
  rw [hsame b, ← naturalLoop_iff]
  refine Marking.mem_mark_iff ⟨fun a ha => ha, fun a ha => ?_, fun b hb => ⟨b, hb, .refl⟩,
    fun a ha hpushes => Or.inl ?_⟩ hmark b
  · obtain ⟨hne, hmem⟩ := (hwork a).mp ha
    exact ⟨List.mem_cons_of_mem _ hmem, decide_eq_true hne⟩
  · have hne : a ≠ header := of_decide_eq_true hpushes
    exact (hwork a).mpr ⟨hne, (List.mem_cons.mp ha).resolve_left hne⟩

/-! ### The loop -/

/-- The natural loop of a header and its latches. -/
structure LoopExact (edges : List EdgeRef) (marked : EdgeRef → Prop) (loop : Loop) : Prop where
  blocks : ∀ b, b ∈ loop.blocks ↔ (graph edges).NaturalLoop marked loop.headerBlock b
  latches : ∀ b, b ∈ loop.latchBlocks ↔
    ∃ e ∈ edges, marked e ∧ e.source = b ∧ e.target = loop.headerBlock
  ascending : loop.blocks.Pairwise (· < ·)

/-- Only the marks of the edges matter. -/
lemma LoopExact.congr {marked marked' : EdgeRef → Prop} {loop : Loop}
    (h : LoopExact edges marked loop) (hmarked : ∀ e ∈ edges, marked e ↔ marked' e) :
    LoopExact edges marked' loop := by
  refine ⟨fun b => (h.blocks b).trans (or_congr_right ?_), fun b => (h.latches b).trans ?_,
    h.ascending⟩
  · exact exists_congr fun e => and_congr_right fun he => and_congr_left' (hmarked e he)
  · exact exists_congr fun e => and_congr_right fun he => and_congr_left' (hmarked e he)

/-- What `buildLoop` returns for a header; it never fails. -/
theorem meets_buildLoop {program : RegionIR.Program} {Q : BuildFailure → Prop}
    (hroot : Rooted edges blockCount entry)
    (hdom : HoldsDominators edges blockCount entry dominators) (hheader : header < blockCount) :
    Meets (fun result : BitVec 64 × Loop => result.2.headerBlock = header ∧
        (∀ b, b ∈ result.2.blocks ↔ result.1.getLsbD b) ∧
        LoopExact edges (isBackedge blockCount dominators ·) result.2) Q
      (buildLoop edges blockCount dominators program header) := by
  obtain ⟨mask, hwalk, hmask⟩ := exists_walkLoop hroot hdom hheader
  unfold buildLoop
  dsimp only
  rw [hwalk]
  have hlt : ∀ b, mask.getLsbD b → b < blockCount := by
    intro b hb
    rcases (hmask b).mp hb with rfl | ⟨e, he, -, -, walk, hwalk, -⟩
    · exact hheader
    · cases walk with
      | nil => exact (show b = e.source from hwalk) ▸ hroot.source_lt e he
      | cons first walk =>
        obtain ⟨hfirst, rfl, -⟩ := hwalk
        exact hroot.source_lt first hfirst
  have hblocks : ∀ b, b ∈ (List.range blockCount).filter mask.getLsbD ↔ mask.getLsbD b := by
    intro b
    rw [List.mem_filter, List.mem_range]
    exact and_iff_right_of_imp (hlt b)
  refine meets_mk ⟨rfl, hblocks, fun b => (hblocks b).trans (hmask b), fun b => ?_, ?_⟩
  · unfold loopOf
    dsimp only
    rw [List.mem_dedup, List.mem_mergeSort, List.mem_map]
    constructor
    · rintro ⟨e, he, rfl⟩
      obtain ⟨he, hback, htarget⟩ := mem_latchEdges.mp he
      exact ⟨e, he, hback, rfl, htarget⟩
    · rintro ⟨e, he, hback, rfl, htarget⟩
      exact ⟨e, mem_latchEdges.mpr ⟨he, hback, htarget⟩, rfl⟩
  · exact List.pairwise_lt_range.filter _

end VitaSX2.SemanticIsland
