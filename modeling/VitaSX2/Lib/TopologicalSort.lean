/-
The nodes of a graph in the order in which they retire from a queue.

A node enters the queue when the last of its incoming edges is followed.  The counters
may be of fixed width, as long as they do not start above their bound.
-/
import VitaSX2.Lib.TopologicalOrder

namespace VitaSX2.TopologicalSort

open TopologicalOrder

variable {ι : Type*} [DecidableEq ι] (lower : ℕ → ℕ) (targets : ι → List ι) (nodes : List ι)

/-- The numbers of incoming edges, the queue, and the order so far. -/
structure Queue (ι : Type*) where
  incoming : ι → ℕ
  ready : List ι
  order : List ι

/-- One edge of the node that retires. -/
def queueEdge (queue : Queue ι) (target : ι) : Queue ι :=
  let left := lower (queue.incoming target)
  { queue with
    incoming := Function.update queue.incoming target left
    ready := if left = 0 then queue.ready ++ [target] else queue.ready }

/-- Retiring the nodes of the queue until it is empty. -/
def sort : ℕ → Queue ι → Option (List ι)
  | _, ⟨_, [], order⟩ => some order
  | 0, ⟨_, _ :: _, _⟩ => none
  | fuel + 1, ⟨incoming, node :: ready, order⟩ =>
    sort fuel ((targets node).foldl (queueEdge lower) ⟨incoming, ready, order ++ [node]⟩)

/-- What the queue keeps: its nodes could retire in any order, and those that have
retired stand behind whatever leads to them. -/
structure Inv (bound : ℕ) (rest todo : List ι) (queue : Queue ι) : Prop where
  progress : TopologicalOrder.Inv targets nodes rest todo
    ⟨queue.incoming, queue.ready, queue.order.length⟩
  bounded : ∀ b, queue.incoming b ≤ bound
  split : (queue.order ++ rest).Perm nodes
  forward : ∀ b ∈ queue.order, ∀ a, Edge targets nodes a b →
    a ∈ queue.order ∧ queue.order.idxOf a < queue.order.idxOf b

variable {lower targets nodes} {bound : ℕ} {rest todo : List ι} {queue : Queue ι}

lemma Inv.edge {target : ι} (hlower : ∀ n, 0 < n → n ≤ bound → lower n = n - 1)
    (h : Inv targets nodes bound rest (target :: todo) queue) (htarget : target ∈ rest) :
    Inv targets nodes bound rest todo (queueEdge lower queue target) := by
  have hcount := h.progress.counts target
  rw [List.count_cons_self] at hcount
  dsimp only at hcount
  have hleft : lower (queue.incoming target) = queue.incoming target - 1 :=
    hlower _ (by omega) (h.bounded target)
  refine ⟨?_, fun b => ?_, h.split, h.forward⟩
  · have hedge := h.progress.edge htarget
    have hperm : (retireEdge ⟨queue.incoming, queue.ready, queue.order.length⟩ target).ready.Perm
        (if queue.incoming target - 1 = 0 then queue.ready ++ [target] else queue.ready) := by
      unfold retireEdge
      dsimp only
      split
      · exact (List.perm_append_singleton target queue.ready).symm
      · exact List.Perm.refl _
    unfold queueEdge
    rw [hleft]
    exact hedge.perm hperm
  · unfold queueEdge
    dsimp only
    by_cases hb : b = target
    · subst hb
      rw [Function.update_self, hleft]
      have := h.bounded b
      omega
    · rw [Function.update_of_ne hb]
      exact h.bounded b

lemma Inv.foldl {edges : List ι} (hlower : ∀ n, 0 < n → n ≤ bound → lower n = n - 1)
    (h : Inv targets nodes bound rest edges queue) (hedges : ∀ b ∈ edges, b ∈ rest) :
    Inv targets nodes bound rest [] (edges.foldl (queueEdge lower) queue) := by
  induction edges generalizing queue with
  | nil => exact h
  | cons target edges ih =>
    exact ih (h.edge hlower (hedges target List.mem_cons_self)) fun b hb =>
      hedges b (List.mem_cons_of_mem _ hb)

/-- The first node of the queue retires: it goes behind everything that leads to it. -/
lemma Inv.pop {incoming : ι → ℕ} {node : ι} {ready order : List ι}
    (hnodes : nodes.Nodup) (hlower : ∀ n, 0 < n → n ≤ bound → lower n = n - 1)
    (h : Inv targets nodes bound rest [] ⟨incoming, node :: ready, order⟩) :
    node ∈ rest ∧ Inv targets nodes bound (rest.erase node) []
      ((targets node).foldl (queueEdge lower) ⟨incoming, ready, order ++ [node]⟩) := by
  obtain ⟨hnode, hnone, hedges, htake⟩ := h.progress.take
  have hsplit : (order ++ [node] ++ rest.erase node).Perm nodes := by
    rw [List.append_assoc, List.singleton_append]
    exact ((List.perm_cons_erase hnode).symm.append_left order).trans h.split
  have hfresh : node ∉ order := fun hmem =>
    List.disjoint_of_nodup_append (h.split.nodup_iff.mpr hnodes) hmem hnode
  refine ⟨hnode, Inv.foldl hlower ⟨?_, h.bounded, hsplit, ?_⟩ hedges⟩
  · rw [List.length_append, List.length_singleton]
    exact htake
  · intro b hb a hedge
    rcases List.mem_append.mp hb with hb | hb
    · obtain ⟨ha, hlt⟩ := h.forward b hb a hedge
      rw [List.idxOf_append_of_mem ha, List.idxOf_append_of_mem hb]
      exact ⟨List.mem_append_left _ ha, hlt⟩
    · obtain rfl := List.mem_singleton.mp hb
      have ha : a ∈ order := by
        have hmem : a ∈ order ++ rest := h.split.mem_iff.mpr hedge.1
        exact (List.mem_append.mp hmem).resolve_right fun ha => hnone a ha hedge.2
      rw [List.idxOf_append_of_mem ha, List.idxOf_append_of_notMem hfresh]
      refine ⟨List.mem_append_left _ ha, ?_⟩
      have := List.idxOf_lt_length_of_mem ha
      omega

/-! ### Runs -/

/-- An order in which no edge leads backwards, of all nodes exactly when the graph
has no cycle. -/
structure Sorted (targets : ι → List ι) (nodes order : List ι) : Prop where
  nodup : order.Nodup
  sub : order ⊆ nodes
  forward : ∀ b ∈ order, ∀ a, Edge targets nodes a b →
    a ∈ order ∧ order.idxOf a < order.idxOf b
  complete : order.length = nodes.length ↔ ∀ a, ¬ Relation.TransGen (Edge targets nodes) a a

lemma Inv.sorted {incoming : ι → ℕ} {order : List ι} (hnodes : nodes.Nodup)
    (h : Inv targets nodes bound rest [] ⟨incoming, [], order⟩) : Sorted targets nodes order where
  nodup := (List.nodup_append.mp (h.split.nodup_iff.mpr hnodes)).1
  sub a ha := h.split.mem_iff.mp (List.mem_append_left _ ha)
  forward := h.forward
  complete := by
    have hlength : order.length + rest.length = nodes.length := h.progress.retired
    rw [← h.progress.rest_eq_nil_iff, ← List.length_eq_zero_iff]
    omega

lemma Inv.sort {fuel : ℕ} (hnodes : nodes.Nodup)
    (hlower : ∀ n, 0 < n → n ≤ bound → lower n = n - 1) (h : Inv targets nodes bound rest [] queue)
    (hfuel : rest.length ≤ fuel) :
    ∃ order, TopologicalSort.sort lower targets fuel queue = some order ∧
      Sorted targets nodes order := by
  induction fuel generalizing rest queue with
  | zero =>
    obtain ⟨incoming, - | ⟨node, ready⟩, order⟩ := queue
    · exact ⟨order, rfl, h.sorted hnodes⟩
    · have hnode := ((h.progress.ready node).mp List.mem_cons_self).1
      rw [List.eq_nil_of_length_eq_zero (Nat.le_zero.mp hfuel)] at hnode
      cases hnode
  | succ fuel ih =>
    obtain ⟨incoming, - | ⟨node, ready⟩, order⟩ := queue
    · exact ⟨order, rfl, h.sorted hnodes⟩
    · obtain ⟨hnode, hnext⟩ := h.pop hnodes hlower
      refine ih hnext ?_
      rw [List.length_erase_of_mem hnode]
      omega

/-- The queue that starts with the nodes without an incoming edge sorts the graph. -/
theorem exists_sort (hnodes : nodes.Nodup) (hclosed : ∀ a ∈ nodes, ∀ b ∈ targets a, b ∈ nodes)
    (hlower : ∀ n, 0 < n → n ≤ bound → lower n = n - 1) {incoming : ι → ℕ}
    (hcounts : ∀ b, incoming b = (nodes.flatMap targets).count b)
    (hbound : ∀ b, incoming b ≤ bound) :
    ∃ order, sort lower targets nodes.length
      ⟨incoming, nodes.filter (incoming · = 0), []⟩ = some order ∧ Sorted targets nodes order := by
  refine Inv.sort hnodes hlower ⟨?_, hbound, List.Perm.refl _, fun b hb => nomatch hb⟩ le_rfl
  exact {
    sub := List.Subset.refl _
    nodup := hnodes
    counts := hcounts
    ready := fun b => by simp
    distinct := hnodes.filter _
    retired := Nat.zero_add _
    closed := hclosed
    acc := fun _ hb hrest => absurd hb hrest }

end VitaSX2.TopologicalSort
