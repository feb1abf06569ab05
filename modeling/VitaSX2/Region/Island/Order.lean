/-
The order of the blocks without the back edges.

A back edge is an edge whose target dominates its source.  The other edges are sorted
with byte counters, which the check on their number keeps from wrapping around.
-/
import VitaSX2.Region.Island.Dominators

namespace VitaSX2.SemanticIsland

open Walks

variable {edges : List EdgeRef} {blockCount entry : ℕ} {dominators : ℕ → BitVec 64}

/-- The table holds the dominators. -/
def HoldsDominators (edges : List EdgeRef) (blockCount entry : ℕ) (dominators : ℕ → BitVec 64) :
    Prop :=
  ∀ a < blockCount, ∀ b < blockCount,
    (dominators b).getLsbD a ↔ (graph edges).Dominates entry a b

/-- An edge is marked when its target dominates its source. -/
lemma isBackedge_iff (hroot : Rooted edges blockCount entry)
    (hdom : HoldsDominators edges blockCount entry dominators) {e : EdgeRef} (he : e ∈ edges) :
    isBackedge blockCount dominators e ↔ (graph edges).Dominates entry e.target e.source := by
  have hsource := hroot.source_lt e he
  have htarget := hroot.target_lt e he
  rw [isBackedge, decide_eq_true hsource, decide_eq_true htarget, Bool.true_and, Bool.true_and]
  exact hdom e.target htarget e.source hsource

/-! ### Incoming edges -/

/-- The counters count, and none of them is above a byte. -/
lemma countIndegrees_spec {indegree indegree' : ℕ → ℕ} (hbound : ∀ b, indegree b ≤ 255)
    (h : edges.foldlM (fun indegree edge =>
      if isBackedge blockCount dominators edge then some indegree
      else if indegree edge.target = 255 then none
      else some (Function.update indegree edge.target (indegree edge.target + 1))) indegree =
        some indegree') (b : ℕ) :
    indegree' b = indegree b + edges.countP (fun edge =>
      !isBackedge blockCount dominators edge && decide (edge.target = b)) ∧ indegree' b ≤ 255 := by
  induction edges generalizing indegree with
  | nil =>
    cases h
    exact ⟨rfl, hbound b⟩
  | cons e edges ih =>
    rw [List.foldlM_cons] at h
    rw [List.countP_cons]
    by_cases hback : isBackedge blockCount dominators e
    · rw [if_pos hback] at h
      simpa [hback] using ih hbound h
    · rw [if_neg hback] at h
      by_cases hfull : indegree e.target = 255
      · rw [if_pos hfull] at h
        cases h
      · rw [if_neg hfull] at h
        have hnext : ∀ c, Function.update indegree e.target (indegree e.target + 1) c ≤ 255 := by
          intro c
          by_cases hc : c = e.target
          · subst hc
            rw [Function.update_self]
            have := hbound e.target
            omega
          · rw [Function.update_of_ne hc]
            exact hbound c
        obtain ⟨hcount, hle⟩ := ih hnext h
        refine ⟨?_, hle⟩
        rw [hcount]
        by_cases hb : e.target = b
        · subst hb
          rw [Function.update_self]
          simp [hback]
          omega
        · rw [Function.update_of_ne (Ne.symm hb)]
          simp [hb]

lemma countP_key_succ {α : Type} (key : α → ℕ) (p : α → Bool) (l : List α) (n : ℕ) :
    (l.countP fun a => decide (key a < n) && p a) + (l.countP fun a => decide (key a = n) && p a) =
      l.countP fun a => decide (key a < n + 1) && p a := by
  induction l with
  | nil => rfl
  | cons a l ih =>
    simp only [List.countP_cons]
    rw [← ih]
    cases p a with
    | false => simp
    | true =>
      simp only [Bool.and_true, decide_eq_true_eq]
      split_ifs <;> omega

/-- The members of a list, counted key by key. -/
lemma sum_countP_key {α : Type} (key : α → ℕ) (p : α → Bool) (l : List α) (n : ℕ) :
    ((List.range n).map fun k => l.countP fun a => decide (key a = k) && p a).sum =
      l.countP fun a => decide (key a < n) && p a := by
  induction n with
  | zero => simp
  | succ n ih =>
    rw [List.range_succ, List.map_append, List.sum_append, ih, List.map_singleton,
      List.sum_singleton, countP_key_succ]

/-- Every edge is an edge of one block. -/
lemma count_forwardTargets (hsource : ∀ e ∈ edges, e.source < blockCount) (b : ℕ) :
    ((List.range blockCount).flatMap (forwardTargets edges blockCount dominators)).count b =
      edges.countP fun edge =>
        !isBackedge blockCount dominators edge && decide (edge.target = b) := by
  have hone : ∀ source, (forwardTargets edges blockCount dominators source).count b =
      edges.countP fun edge => decide (edge.source = source) &&
        (!isBackedge blockCount dominators edge && decide (edge.target = b)) := by
    intro source
    rw [forwardTargets, List.count, List.countP_map, List.countP_filter]
    refine List.countP_congr fun e _ => ?_
    simp only [Function.comp_apply, Bool.and_eq_true, beq_iff_eq, decide_eq_true_eq]
    tauto
  have hmap : (List.range blockCount).map (List.count b ∘ forwardTargets edges blockCount dominators) =
      _ := List.map_congr_left fun source _ => hone source
  rw [List.count_flatMap, hmap, sum_countP_key]
  refine List.countP_congr fun e he => ?_
  rw [decide_eq_true (hsource e he), Bool.true_and]

/-- An edge of the sorted graph is an edge that is not marked. -/
lemma forwardEdge_iff (hsource : ∀ e ∈ edges, e.source < blockCount) {a b : ℕ} :
    TopologicalOrder.Edge (forwardTargets edges blockCount dominators) (List.range blockCount) a b ↔
      ∃ e ∈ edges, isBackedge blockCount dominators e = false ∧ e.source = a ∧ e.target = b := by
  rw [TopologicalOrder.Edge, forwardTargets, List.mem_map, List.mem_range]
  constructor
  · rintro ⟨-, e, he, rfl⟩
    obtain ⟨he, hforward⟩ := List.mem_filter.mp he
    simp only [Bool.and_eq_true, decide_eq_true_eq, Bool.not_eq_true'] at hforward
    exact ⟨e, he, hforward.2, hforward.1, rfl⟩
  · rintro ⟨e, he, hforward, rfl, rfl⟩
    exact ⟨hsource e he, e, List.mem_filter.mpr ⟨he, by simp [hforward]⟩, rfl⟩

/-! ### The order -/

/-- The order of the blocks along the edges that are not marked. -/
structure Ordered (edges : List EdgeRef) (blockCount : ℕ) (dominators : ℕ → BitVec 64)
    (order : List ℕ) : Prop where
  perm : order.Perm (List.range blockCount)
  forward : ∀ e ∈ edges, isBackedge blockCount dominators e = false →
    order.idxOf e.source < order.idxOf e.target

/-- The sort ends; it has all blocks, or a cycle has no marked edge. -/
theorem exists_acyclicOrder (hroot : Rooted edges blockCount entry) {indegree : ℕ → ℕ}
    (h : countIndegrees edges blockCount dominators = some indegree) :
    ∃ order, acyclicOrder edges blockCount dominators indegree = some order ∧
      (order.length = blockCount → Ordered edges blockCount dominators order) ∧
      (order.length ≠ blockCount → ∃ cycle, (graph edges).IsCycle cycle ∧
        ∀ e ∈ cycle, isBackedge blockCount dominators e = false) := by
  have hcounts := countIndegrees_spec (fun _ => Nat.zero_le 255) h
  have hclosed : ∀ a ∈ List.range blockCount,
      ∀ b ∈ forwardTargets edges blockCount dominators a, b ∈ List.range blockCount := by
    intro a ha b hb
    obtain ⟨e, he, -, -, rfl⟩ := (forwardEdge_iff hroot.source_lt).mp ⟨ha, hb⟩
    exact List.mem_range.mpr (hroot.target_lt e he)
  have hlower : ∀ n, 0 < n → n ≤ 255 → decrement n = n - 1 := by
    intro n hpos hle
    unfold decrement
    omega
  obtain ⟨order, hsort, hsorted⟩ := TopologicalSort.exists_sort List.nodup_range hclosed hlower
    (fun b => by rw [count_forwardTargets hroot.source_lt, (hcounts b).1, Nat.zero_add])
    fun b => (hcounts b).2
  have hlength : (List.range blockCount).length = blockCount := List.length_range
  rw [hlength] at hsort
  have hcomplete := hsorted.complete
  rw [hlength] at hcomplete
  refine ⟨order, hsort, fun hall => ?_, fun hnot => ?_⟩
  · have hperm : order.Perm (List.range blockCount) :=
      (hsorted.nodup.subperm hsorted.sub).perm_of_length_le (by rw [hall, hlength])
    refine ⟨hperm, fun e he hforward => ?_⟩
    have htarget : e.target ∈ order :=
      hperm.mem_iff.mpr (List.mem_range.mpr (hroot.target_lt e he))
    exact (hsorted.forward _ htarget _
      ((forwardEdge_iff hroot.source_lt).mpr ⟨e, he, hforward, rfl, rfl⟩)).2
  · obtain ⟨a, hcycle⟩ := not_forall_not.mp fun hacyclic => hnot (hcomplete.mpr hacyclic)
    refine Walks.Graph.exists_cycle (a := a) (Relation.TransGen.mono (fun _ _ hedge => ?_) _ _ hcycle)
    exact (forwardEdge_iff hroot.source_lt).mp hedge

end VitaSX2.SemanticIsland
