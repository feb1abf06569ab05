/-
Marking what can be reached in a graph from a worklist.

A node is marked when it is pushed, so it is popped at most once.  Some nodes may
be marked without being pushed: nothing is reached through them.
-/
import Mathlib.Data.List.Nodup
import Mathlib.Data.List.Perm.Subperm
import Mathlib.Logic.Relation
import Mathlib.Data.Nat.Notation

namespace VitaSX2.Marking

variable {ι : Type*} [DecidableEq ι] (targets : ι → List ι) (pushes : ι → Bool)

/-- The marked nodes, and those that have not been popped yet. -/
structure Marks (ι : Type*) where
  marked : List ι
  work : List ι

/-- One edge of the node that has been popped. -/
def markTarget (marks : Marks ι) (target : ι) : Marks ι :=
  if target ∈ marks.marked then marks
  else
    { marked := target :: marks.marked
      work := if pushes target then target :: marks.work else marks.work }

/-- Marking until no node is pending. -/
def mark : ℕ → Marks ι → Option (List ι)
  | _, ⟨marked, []⟩ => some marked
  | 0, ⟨_, _ :: _⟩ => none
  | fuel + 1, ⟨marked, node :: work⟩ =>
    mark fuel ((targets node).foldl (markTarget pushes) ⟨marked, work⟩)

/-- An edge that marking follows. -/
def Edge (a b : ι) : Prop := pushes a = true ∧ b ∈ targets a

/-- What marking keeps: every marked node is reached, and a node that is pushed is
pending or its targets are marked. -/
structure Inv (start : List ι) (marks : Marks ι) : Prop where
  starts : ∀ a ∈ start, a ∈ marks.marked
  pending : ∀ a ∈ marks.work, a ∈ marks.marked ∧ pushes a = true
  reached : ∀ b ∈ marks.marked, ∃ a ∈ start, Relation.ReflTransGen (Edge targets pushes) a b
  closed : ∀ a ∈ marks.marked, pushes a = true →
    a ∈ marks.work ∨ ∀ b ∈ targets a, b ∈ marks.marked

variable {targets pushes} {start : List ι} {marks : Marks ι} {node target : ι}

lemma mem_markTarget : target ∈ (markTarget pushes marks target).marked := by
  unfold markTarget
  split
  next h => exact h
  next => exact List.mem_cons_self

lemma mem_markTarget_of_mem {a : ι} (h : a ∈ marks.marked) :
    a ∈ (markTarget pushes marks target).marked := by
  unfold markTarget
  split
  next => exact h
  next => exact List.mem_cons_of_mem _ h

lemma mem_foldl_markTarget (edges : List ι) :
    (∀ a ∈ marks.marked, a ∈ (edges.foldl (markTarget pushes) marks).marked) ∧
      ∀ a ∈ edges, a ∈ (edges.foldl (markTarget pushes) marks).marked := by
  induction edges generalizing marks with
  | nil => exact ⟨fun a ha => ha, fun a ha => nomatch ha⟩
  | cons target edges ih =>
    obtain ⟨hkeep, hnew⟩ := @ih (markTarget pushes marks target)
    refine ⟨fun a ha => hkeep a (mem_markTarget_of_mem ha), fun a ha => ?_⟩
    rcases List.mem_cons.mp ha with rfl | ha
    · exact hkeep _ mem_markTarget
    · exact hnew a ha

/-- While the edges of a node are followed, the node itself is neither pending nor
closed. -/
structure Popped (targets : ι → List ι) (pushes : ι → Bool) (start : List ι) (node : ι)
    (marks : Marks ι) : Prop where
  starts : ∀ a ∈ start, a ∈ marks.marked
  popped : node ∈ marks.marked ∧ pushes node = true
  pending : ∀ a ∈ marks.work, a ∈ marks.marked ∧ pushes a = true
  reached : ∀ b ∈ marks.marked, ∃ a ∈ start, Relation.ReflTransGen (Edge targets pushes) a b
  closed : ∀ a ∈ marks.marked, pushes a = true →
    a = node ∨ a ∈ marks.work ∨ ∀ b ∈ targets a, b ∈ marks.marked

lemma Popped.markTarget (h : Popped targets pushes start node marks) (htarget : target ∈ targets node) :
    Popped targets pushes start node (markTarget pushes marks target) := by
  unfold Marking.markTarget
  split
  · exact h
  refine ⟨fun a ha => List.mem_cons_of_mem _ (h.starts a ha),
    ⟨List.mem_cons_of_mem _ h.popped.1, h.popped.2⟩, fun a ha => ?_, fun b hb => ?_,
    fun a ha hpushes => ?_⟩
  · dsimp only at ha ⊢
    split at ha
    next hpushes =>
      rcases List.mem_cons.mp ha with rfl | ha
      · exact ⟨List.mem_cons_self, hpushes⟩
      · exact ⟨List.mem_cons_of_mem _ (h.pending a ha).1, (h.pending a ha).2⟩
    next => exact ⟨List.mem_cons_of_mem _ (h.pending a ha).1, (h.pending a ha).2⟩
  · rcases List.mem_cons.mp hb with rfl | hb
    · obtain ⟨a, ha, hreach⟩ := h.reached node h.popped.1
      exact ⟨a, ha, hreach.tail ⟨h.popped.2, htarget⟩⟩
    · exact h.reached b hb
  · dsimp only
    rcases List.mem_cons.mp ha with rfl | ha
    · rw [if_pos hpushes]
      exact Or.inr (Or.inl List.mem_cons_self)
    · rcases h.closed a ha hpushes with hnode | hwork | hclosed
      · exact Or.inl hnode
      · refine Or.inr (Or.inl ?_)
        split
        · exact List.mem_cons_of_mem _ hwork
        · exact hwork
      · exact Or.inr (Or.inr fun b hb => List.mem_cons_of_mem _ (hclosed b hb))

lemma Popped.foldl {edges : List ι} (hedges : ∀ b ∈ edges, b ∈ targets node)
    (h : Popped targets pushes start node marks) :
    Popped targets pushes start node (edges.foldl (Marking.markTarget pushes) marks) := by
  induction edges generalizing marks with
  | nil => exact h
  | cons target edges ih =>
    exact ih (fun b hb => hedges b (List.mem_cons_of_mem _ hb))
      (h.markTarget (hedges target List.mem_cons_self))

/-- The visit of a node. -/
lemma Inv.pop {marked work : List ι} (h : Inv targets pushes start ⟨marked, node :: work⟩) :
    Inv targets pushes start ((targets node).foldl (markTarget pushes) ⟨marked, work⟩) := by
  have hpopped : Popped targets pushes start node ⟨marked, work⟩ :=
    { starts := h.starts
      popped := h.pending node List.mem_cons_self
      pending := fun a ha => h.pending a (List.mem_cons_of_mem _ ha)
      reached := h.reached
      closed := fun a ha hpushes => by
        rcases h.closed a ha hpushes with hwork | hclosed
        · rcases List.mem_cons.mp hwork with rfl | hwork
          · exact Or.inl rfl
          · exact Or.inr (Or.inl hwork)
        · exact Or.inr (Or.inr hclosed) }
  have hdone := hpopped.foldl fun b (hb : b ∈ targets node) => hb
  refine ⟨hdone.starts, hdone.pending, hdone.reached, fun a ha hpushes => ?_⟩
  rcases hdone.closed a ha hpushes with rfl | hrest
  · exact Or.inr (mem_foldl_markTarget _).2
  · exact hrest

omit [DecidableEq ι] in
lemma Inv.done {marked : List ι} (h : Inv targets pushes start ⟨marked, []⟩) (b : ι) :
    b ∈ marked ↔ ∃ a ∈ start, Relation.ReflTransGen (Edge targets pushes) a b := by
  refine ⟨h.reached b, ?_⟩
  rintro ⟨a, ha, hreach⟩
  induction hreach with
  | refl => exact h.starts a ha
  | tail _ hedge ih => exact (h.closed _ ih hedge.1).resolve_left List.not_mem_nil _ hedge.2

/-- The marked nodes are those that are reached. -/
theorem mem_mark_iff {fuel : ℕ} {result : List ι} (hinv : Inv targets pushes start marks)
    (h : mark targets pushes fuel marks = some result) (b : ι) :
    b ∈ result ↔ ∃ a ∈ start, Relation.ReflTransGen (Edge targets pushes) a b := by
  induction fuel generalizing marks with
  | zero =>
    obtain ⟨marked, - | ⟨node, work⟩⟩ := marks
    · cases h
      exact hinv.done b
    · cases h
  | succ fuel ih =>
    obtain ⟨marked, - | ⟨node, work⟩⟩ := marks
    · cases h
      exact hinv.done b
    · exact ih hinv.pop h

/-! ### Termination -/

/-- The nodes that are pending or not yet marked. -/
def left (nodes : List ι) (marks : Marks ι) : ℕ :=
  marks.work.length + (nodes.filter (· ∉ marks.marked)).length

lemma left_markTarget {nodes : List ι} (htarget : target ∈ nodes) :
    left nodes (markTarget pushes marks target) ≤ left nodes marks := by
  unfold markTarget left
  split
  · exact Nat.le_refl _
  next hfresh =>
    have hlt : (nodes.filter (· ∉ target :: marks.marked)).length <
        (nodes.filter (· ∉ marks.marked)).length := by
      have hfilter : nodes.filter (· ∉ target :: marks.marked) =
          (nodes.filter (· ∉ marks.marked)).filter (· ≠ target) := by
        rw [List.filter_filter]
        refine List.filter_congr fun a _ => ?_
        simp only [List.mem_cons, not_or, ne_eq, Bool.decide_and]
      rw [hfilter]
      refine List.length_filter_lt_length_iff_exists.mpr ⟨target, ?_, by simp⟩
      exact List.mem_filter.mpr ⟨htarget, by simpa using hfresh⟩
    dsimp only
    split
    · rw [List.length_cons]
      omega
    · omega

lemma left_foldl {nodes edges : List ι} (hedges : ∀ b ∈ edges, b ∈ nodes) :
    left nodes (edges.foldl (markTarget pushes) marks) ≤ left nodes marks := by
  induction edges generalizing marks with
  | nil => exact Nat.le_refl _
  | cons target edges ih =>
    exact Nat.le_trans (ih fun b hb => hedges b (List.mem_cons_of_mem _ hb))
      (left_markTarget (hedges target List.mem_cons_self))

/-- Marking in a finite graph ends. -/
theorem mark_isSome (nodes : List ι) (hclosed : ∀ a, ∀ b ∈ targets a, b ∈ nodes) {fuel : ℕ}
    (hfuel : left nodes marks ≤ fuel) : (mark targets pushes fuel marks).isSome := by
  induction fuel generalizing marks with
  | zero =>
    obtain ⟨marked, work⟩ := marks
    cases work with
    | nil => rfl
    | cons node work => simp [left] at hfuel
  | succ fuel ih =>
    obtain ⟨marked, work⟩ := marks
    cases work with
    | nil => rfl
    | cons node work =>
      refine ih (Nat.le_trans (left_foldl (hclosed node)) ?_)
      simp only [left, List.length_cons] at hfuel ⊢
      omega

end VitaSX2.Marking
