/-
Retiring the nodes of a graph in a topological order.

A node is ready when no edge from a node that has not retired leads to it.  Every
node retires exactly when the graph has no cycle.
-/
import Mathlib.Data.Fintype.Card
import Mathlib.Data.Fintype.EquivFin
import Mathlib.Data.Fintype.Sets
import Mathlib.Data.List.Count
import Mathlib.Logic.Relation
import Mathlib.Order.WellFounded
import Mathlib.Order.RelClasses

namespace VitaSX2.TopologicalOrder

variable {ι : Type*} [DecidableEq ι] (targets : ι → List ι) (nodes : List ι)

/-- The numbers of incoming edges, the nodes that are ready, and how many have
retired. -/
structure Progress (ι : Type*) where
  incoming : ι → ℕ
  ready : List ι
  retired : ℕ

/-- The incoming edges of every node. -/
def countIncoming : ι → ℕ :=
  nodes.foldl (fun incoming node =>
    (targets node).foldl (fun incoming target =>
      Function.update incoming target (incoming target + 1)) incoming) fun _ => 0

/-- One edge of the node that retires. -/
def retireEdge (progress : Progress ι) (target : ι) : Progress ι :=
  let left := progress.incoming target - 1
  { progress with
    incoming := Function.update progress.incoming target left
    ready := if left = 0 then target :: progress.ready else progress.ready }

/-- Retiring until no node is ready. -/
def retire : ℕ → Progress ι → Option ℕ
  | _, ⟨_, [], retired⟩ => some retired
  | 0, ⟨_, _ :: _, _⟩ => none
  | fuel + 1, ⟨incoming, node :: ready, retired⟩ =>
    retire fuel ((targets node).foldl retireEdge ⟨incoming, ready, retired + 1⟩)

/-- The start: nothing has retired, and the nodes without an incoming edge are ready. -/
def start : Progress ι where
  incoming := countIncoming targets nodes
  ready := (nodes.filter (countIncoming targets nodes · = 0)).reverse
  retired := 0

/-- An edge of the graph. -/
def Edge (a b : ι) : Prop := a ∈ nodes ∧ b ∈ targets a

variable {targets nodes} {progress : Progress ι} {rest todo : List ι}

/-! ### The numbers of incoming edges -/

lemma foldl_increment (edges : List ι) (incoming : ι → ℕ) (b : ι) :
    edges.foldl (fun incoming target =>
      Function.update incoming target (incoming target + 1)) incoming b =
        incoming b + edges.count b := by
  induction edges generalizing incoming with
  | nil => rfl
  | cons target edges ih =>
    rw [List.foldl_cons, ih, List.count_cons]
    by_cases hb : b = target
    · subst hb
      simp
      omega
    · rw [Function.update_of_ne hb, if_neg (by simpa using Ne.symm hb)]
      omega

/-- The edges are counted with their multiplicity. -/
lemma countIncoming_eq (b : ι) :
    countIncoming targets nodes b = (nodes.flatMap targets).count b := by
  have hall : ∀ incoming : ι → ℕ, nodes.foldl (fun incoming node =>
      (targets node).foldl (fun incoming target =>
        Function.update incoming target (incoming target + 1)) incoming) incoming b =
          incoming b + (nodes.flatMap targets).count b := by
    induction nodes with
    | nil => exact fun _ => rfl
    | cons node nodes ih =>
      intro incoming
      rw [List.foldl_cons, ih, foldl_increment, List.flatMap_cons, List.count_append]
      omega
  rw [countIncoming, hall, Nat.zero_add]

/-! ### The invariant -/

/-- What retiring keeps, with the edges of the last node that are still to be
followed: a node that has not retired is ready when nothing leads to it, and what
has retired lies on no cycle. -/
structure Inv (targets : ι → List ι) (nodes rest todo : List ι) (progress : Progress ι) : Prop where
  sub : rest ⊆ nodes
  nodup : rest.Nodup
  counts : ∀ b, progress.incoming b = (rest.flatMap targets).count b + todo.count b
  ready : ∀ b, b ∈ progress.ready ↔ b ∈ rest ∧ progress.incoming b = 0
  distinct : progress.ready.Nodup
  retired : progress.retired + rest.length = nodes.length
  closed : ∀ a ∈ rest, ∀ b ∈ targets a, b ∈ rest
  acc : ∀ b ∈ nodes, b ∉ rest → Acc (Edge targets nodes) b

lemma inv_start (hnodes : nodes.Nodup) (hclosed : ∀ a ∈ nodes, ∀ b ∈ targets a, b ∈ nodes) :
    Inv targets nodes nodes [] (start targets nodes) where
  sub := List.Subset.refl _
  nodup := hnodes
  counts b := countIncoming_eq b
  ready b := by simp [start]
  distinct := List.nodup_reverse.mpr (hnodes.filter _)
  retired := Nat.zero_add _
  closed := hclosed
  acc _ hb hrest := absurd hb hrest

/-- One edge: its target has not retired, and loses one incoming edge. -/
lemma Inv.edge {target : ι} (h : Inv targets nodes rest (target :: todo) progress)
    (htarget : target ∈ rest) : Inv targets nodes rest todo (retireEdge progress target) := by
  have hcount := h.counts target
  rw [List.count_cons_self] at hcount
  refine ⟨h.sub, h.nodup, fun b => ?_, fun b => ?_, ?_, h.retired, h.closed, h.acc⟩
  · unfold retireEdge
    dsimp only
    by_cases hb : b = target
    · subst hb
      rw [Function.update_self]
      omega
    · rw [Function.update_of_ne hb, h.counts, List.count_cons, if_neg (by simpa using Ne.symm hb)]
      rfl
  · unfold retireEdge
    dsimp only
    by_cases hb : b = target
    · subst hb
      rw [Function.update_self]
      split
      next hzero => simp [hzero, htarget]
      next hzero =>
        rw [h.ready]
        refine ⟨fun hready => absurd hready.2 (by omega), fun hready => absurd hready.2 hzero⟩
    · rw [Function.update_of_ne hb, ← h.ready]
      split
      · rw [List.mem_cons, or_iff_right hb]
      · rfl
  · unfold retireEdge
    dsimp only
    split
    · refine List.nodup_cons.mpr ⟨fun hready => ?_, h.distinct⟩
      have := ((h.ready target).mp hready).2
      omega
    · exact h.distinct

lemma Inv.foldl {edges : List ι} (h : Inv targets nodes rest (edges ++ todo) progress)
    (hedges : ∀ b ∈ edges, b ∈ rest) :
    Inv targets nodes rest todo (edges.foldl retireEdge progress) := by
  induction edges generalizing progress with
  | nil => exact h
  | cons target edges ih =>
    exact ih (h.edge (hedges target List.mem_cons_self)) fun b hb =>
      hedges b (List.mem_cons_of_mem _ hb)

/-- A ready node retires: whatever leads to it has retired, and its own edges are
still to be followed. -/
lemma Inv.take {incoming : ι → ℕ} {node : ι} {ready : List ι} {retired : ℕ}
    (h : Inv targets nodes rest [] ⟨incoming, node :: ready, retired⟩) :
    node ∈ rest ∧ (∀ a ∈ rest, node ∉ targets a) ∧ (∀ b ∈ targets node, b ∈ rest.erase node) ∧
      Inv targets nodes (rest.erase node) (targets node) ⟨incoming, ready, retired + 1⟩ := by
  obtain ⟨hnode, hzero⟩ := (h.ready node).mp List.mem_cons_self
  have hperm : rest.Perm (node :: rest.erase node) := List.perm_cons_erase hnode
  have hcounts : ∀ b, incoming b =
      ((rest.erase node).flatMap targets).count b + (targets node).count b := by
    intro b
    have := h.counts b
    rw [(hperm.flatMap_right targets).count_eq, List.flatMap_cons, List.count_append,
      List.count_nil] at this
    dsimp only at this
    omega
  have hnone : ∀ a ∈ rest, node ∉ targets a := by
    intro a ha hedge
    have hmem : node ∈ rest.flatMap targets := List.mem_flatMap.mpr ⟨a, ha, hedge⟩
    have := h.counts node
    have hpos := List.count_pos_iff.mpr hmem
    dsimp only at this hzero
    omega
  obtain ⟨hfresh, hdistinct⟩ := List.nodup_cons.mp h.distinct
  have hlength : (rest.erase node).length + 1 = rest.length := by
    rw [List.length_erase_of_mem hnode]
    have := List.length_pos_of_mem hnode
    omega
  have hacc : Acc (Edge targets nodes) node := by
    refine Acc.intro node fun a hedge => h.acc a hedge.1 fun ha => hnone a ha hedge.2
  refine ⟨hnode, hnone, fun b hb => ?_, fun b hb => h.sub (List.mem_of_mem_erase hb),
    h.nodup.erase node, hcounts, fun b => ?_, hdistinct, ?_, fun a ha b hb => ?_, fun b hb hrest => ?_⟩
  · exact h.nodup.mem_erase_iff.mpr ⟨fun heq => hnone node hnode (heq ▸ hb),
      h.closed node hnode b hb⟩
  · dsimp only
    rw [h.nodup.mem_erase_iff]
    have hready := h.ready b
    dsimp only at hready
    by_cases hb : b = node
    · subst hb
      exact ⟨fun hmem => absurd hmem hfresh, fun hmem => absurd rfl hmem.1.1⟩
    · rw [List.mem_cons, or_iff_right hb] at hready
      rw [hready]
      exact ⟨fun hmem => ⟨⟨hb, hmem.1⟩, hmem.2⟩, fun hmem => ⟨hmem.1.2, hmem.2⟩⟩
  · have := h.retired
    dsimp only at this ⊢
    omega
  · obtain ⟨-, ha⟩ := h.nodup.mem_erase_iff.mp ha
    exact h.nodup.mem_erase_iff.mpr ⟨fun heq => hnone a ha (heq ▸ hb), h.closed a ha b hb⟩
  · by_cases heq : b = node
    · exact heq ▸ hacc
    · exact h.acc b hb fun hmem => hrest (h.nodup.mem_erase_iff.mpr ⟨heq, hmem⟩)

/-- The visit of a ready node. -/
lemma Inv.pop {incoming : ι → ℕ} {node : ι} {ready : List ι} {retired : ℕ}
    (h : Inv targets nodes rest [] ⟨incoming, node :: ready, retired⟩) :
    node ∈ rest ∧ Inv targets nodes (rest.erase node) []
      ((targets node).foldl retireEdge ⟨incoming, ready, retired + 1⟩) := by
  obtain ⟨hnode, -, hedges, htake⟩ := h.take
  rw [← List.append_nil (targets node)] at htake
  exact ⟨hnode, htake.foldl hedges⟩

/-- The order in which the ready nodes are kept does not matter. -/
lemma Inv.perm {ready : List ι} (h : Inv targets nodes rest todo progress)
    (hperm : progress.ready.Perm ready) :
    Inv targets nodes rest todo { progress with ready := ready } where
  sub := h.sub
  nodup := h.nodup
  counts := h.counts
  ready b := by rw [← hperm.mem_iff, h.ready b]
  distinct := hperm.nodup_iff.mp h.distinct
  retired := h.retired
  closed := h.closed
  acc := h.acc

/-- Every node that is left has an edge from one that is left. -/
lemma Inv.exists_edge {incoming : ι → ℕ} {retired : ℕ}
    (h : Inv targets nodes rest [] ⟨incoming, [], retired⟩) {b : ι} (hb : b ∈ rest) :
    ∃ a ∈ rest, Edge targets nodes a b := by
  have hcount := h.counts b
  have hready := h.ready b
  simp only [List.not_mem_nil, false_iff, not_and] at hready
  have hpos : 0 < (rest.flatMap targets).count b := by
    have := hready hb
    rw [List.count_nil] at hcount
    dsimp only at hcount
    omega
  obtain ⟨a, ha, hedge⟩ := List.mem_flatMap.mp (List.count_pos_iff.mp hpos)
  exact ⟨a, ha, h.sub ha, hedge⟩

omit [DecidableEq ι] in
lemma not_self_of_acc {r : ι → ι → Prop} {a : ι} (h : Acc r a) : ¬ r a a := by
  induction h with
  | intro a _ ih => exact fun hself => ih a hself hself

/-- The nodes that are left in the end hold a cycle. -/
lemma Inv.rest_eq_nil_iff {incoming : ι → ℕ} {retired : ℕ}
    (h : Inv targets nodes rest [] ⟨incoming, [], retired⟩) :
    rest = [] ↔ ∀ a, ¬ Relation.TransGen (Edge targets nodes) a a := by
  constructor
  · rintro rfl a hcycle
    have hmem : a ∈ nodes := by
      obtain ⟨b, hedge, -⟩ := Relation.TransGen.head'_iff.mp hcycle
      exact hedge.1
    exact not_self_of_acc (h.acc a hmem List.not_mem_nil).transGen hcycle
  · intro hacyclic
    by_contra hne
    obtain ⟨b, hb⟩ := List.exists_mem_of_ne_nil rest hne
    -- Without a cycle the nodes that are left have a first one.
    have htrans : IsTrans {a // a ∈ rest} fun a b =>
        Relation.TransGen (Edge targets nodes) a.1 b.1 := ⟨fun _ _ _ => Relation.TransGen.trans⟩
    have hirrefl : Std.Irrefl fun a b : {a // a ∈ rest} =>
        Relation.TransGen (Edge targets nodes) a.1 b.1 := ⟨fun a => hacyclic a.1⟩
    obtain ⟨first, -, hfirst⟩ := (Finite.wellFounded_of_trans_of_irrefl fun a b :
      {a // a ∈ rest} => Relation.TransGen (Edge targets nodes) a.1 b.1).has_min Set.univ
        ⟨⟨b, hb⟩, trivial⟩
    obtain ⟨a, ha, hedge⟩ := h.exists_edge first.2
    exact hfirst ⟨a, ha⟩ trivial (.single hedge)

/-! ### Runs -/

lemma Inv.retire {fuel : ℕ} (h : Inv targets nodes rest [] progress) (hfuel : rest.length ≤ fuel) :
    ∃ retired, TopologicalOrder.retire targets fuel progress = some retired ∧
      (retired = nodes.length ↔ ∀ a, ¬ Relation.TransGen (Edge targets nodes) a a) := by
  induction fuel generalizing rest progress with
  | zero =>
    obtain ⟨incoming, - | ⟨node, ready⟩, retired⟩ := progress
    · refine ⟨retired, rfl, ?_⟩
      rw [← h.rest_eq_nil_iff, ← h.retired, ← List.length_eq_zero_iff]
      dsimp only
      omega
    · have hnode := ((h.ready node).mp List.mem_cons_self).1
      rw [List.eq_nil_of_length_eq_zero (Nat.le_zero.mp hfuel)] at hnode
      cases hnode
  | succ fuel ih =>
    obtain ⟨incoming, - | ⟨node, ready⟩, retired⟩ := progress
    · refine ⟨retired, rfl, ?_⟩
      rw [← h.rest_eq_nil_iff, ← h.retired, ← List.length_eq_zero_iff]
      dsimp only
      omega
    · obtain ⟨hnode, hnext⟩ := h.pop
      refine ih hnext ?_
      rw [List.length_erase_of_mem hnode]
      omega

/-- Every node retires exactly when the graph has no cycle. -/
theorem retire_eq_length_iff (hnodes : nodes.Nodup)
    (hclosed : ∀ a ∈ nodes, ∀ b ∈ targets a, b ∈ nodes) :
    ∃ retired, retire targets nodes.length (start targets nodes) = some retired ∧
      (retired = nodes.length ↔ ∀ a, ¬ Relation.TransGen (Edge targets nodes) a a) :=
  (inv_start hnodes hclosed).retire le_rfl

end VitaSX2.TopologicalOrder
