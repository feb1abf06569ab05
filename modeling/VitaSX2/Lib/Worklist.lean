/-
Exploring a graph from a worklist.

Every vertex is inspected once; an inspection may refuse the vertex, and then
the exploration fails.  A successful exploration returns a set that is closed
under successors and holds only accepted vertices.
-/
import Mathlib.Algebra.BigOperators.Group.List.Basic
import Mathlib.Algebra.GroupWithZero.Nat
import Mathlib.Data.List.Nodup
import Mathlib.Data.List.Perm.Basic
import Mathlib.Logic.Relation

namespace VitaSX2.Worklist

variable {α : Type*} [DecidableEq α]

/-- The vertices visited from the pending ones, or nothing when one is refused. -/
def explore (inspect : α → Option (List α)) : ℕ → List α → List α → Option (List α)
  | _, [], visited => some visited
  | 0, _ :: _, _ => none
  | fuel + 1, a :: pending, visited =>
    if a ∈ visited then explore inspect fuel pending visited
    else
      match inspect a with
      | none => none
      | some successors => explore inspect fuel (pending ++ successors) (a :: visited)

variable {inspect : α → Option (List α)}

/-- A vertex is accepted and its successors are in the set. -/
def AcceptedIn (inspect : α → Option (List α)) (visited : List α) (a : α) : Prop :=
  ∃ successors, inspect a = some successors ∧ ∀ b ∈ successors, b ∈ visited

/-- The result keeps what was visited, covers what was pending, and every new
vertex is accepted. -/
theorem explore_spec {fuel : ℕ} {pending visited result : List α}
    (h : explore inspect fuel pending visited = some result) :
    (∀ a ∈ visited, a ∈ result) ∧ (∀ a ∈ pending, a ∈ result) ∧
      ∀ a ∈ result, a ∈ visited ∨ AcceptedIn inspect result a := by
  induction fuel generalizing pending visited with
  | zero =>
    cases pending with
    | nil =>
      cases h
      exact ⟨fun a ha => ha, fun a ha => by simp at ha, fun a ha => Or.inl ha⟩
    | cons a pending => simp [explore] at h
  | succ fuel ih =>
    cases pending with
    | nil =>
      cases h
      exact ⟨fun a ha => ha, fun a ha => by simp at ha, fun a ha => Or.inl ha⟩
    | cons a pending =>
      simp only [explore] at h
      split at h
      next hvisited =>
        obtain ⟨hold, hpending, haccepted⟩ := ih h
        exact ⟨hold, fun b hb => (List.mem_cons.mp hb).elim (fun heq => heq ▸ hold a hvisited)
          (hpending b), haccepted⟩
      next hfresh =>
        split at h
        next => cases h
        next successors hinspect =>
          obtain ⟨hold, hpending, haccepted⟩ := ih h
          have ha : a ∈ result := hold a List.mem_cons_self
          refine ⟨fun b hb => hold b (List.mem_cons_of_mem _ hb), fun b hb => ?_, fun b hb => ?_⟩
          · rcases List.mem_cons.mp hb with rfl | hb
            · exact ha
            · exact hpending b (List.mem_append_left _ hb)
          · rcases haccepted b hb with hb | hb
            · rcases List.mem_cons.mp hb with rfl | hb
              · exact Or.inr ⟨successors, hinspect,
                  fun c hc => hpending c (List.mem_append_right _ hc)⟩
              · exact Or.inl hb
            · exact Or.inr hb

/-- One edge of the inspected graph. -/
def Edge (inspect : α → Option (List α)) (a b : α) : Prop :=
  ∃ successors, inspect a = some successors ∧ b ∈ successors

/-- An exploration from one vertex accepts everything reachable from it. -/
theorem accepted_of_reachable {fuel : ℕ} {a b : α} {result : List α}
    (h : explore inspect fuel [a] [] = some result)
    (hreach : Relation.ReflTransGen (Edge inspect) a b) :
    b ∈ result ∧ (inspect b).isSome := by
  obtain ⟨-, hpending, haccepted⟩ := explore_spec h
  have hmem : b ∈ result := by
    induction hreach with
    | refl => exact hpending a (by simp)
    | tail _ hedge ih =>
      obtain ⟨successors, hinspect, hb⟩ := hedge
      obtain ⟨successors', hinspect', hclosed⟩ := (haccepted _ ih).resolve_left (by simp)
      rw [hinspect] at hinspect'
      cases hinspect'
      exact hclosed _ hb
  obtain ⟨successors, hinspect, -⟩ := (haccepted b hmem).resolve_left (by simp)
  exact ⟨hmem, by simp [hinspect]⟩

/-- An exploration visits only what is reached. -/
theorem reachable_of_explore {fuel : ℕ} {start : α} {pending visited result : List α}
    (hpending : ∀ a ∈ pending, Relation.ReflTransGen (Edge inspect) start a)
    (hvisited : ∀ a ∈ visited, Relation.ReflTransGen (Edge inspect) start a)
    (h : explore inspect fuel pending visited = some result) :
    ∀ a ∈ result, Relation.ReflTransGen (Edge inspect) start a := by
  induction fuel generalizing pending visited with
  | zero =>
    cases pending with
    | nil => exact Option.some.inj h ▸ hvisited
    | cons a pending => simp [explore] at h
  | succ fuel ih =>
    cases pending with
    | nil => exact Option.some.inj h ▸ hvisited
    | cons a pending =>
      obtain ⟨ha, hpending⟩ := List.forall_mem_cons.mp hpending
      simp only [explore] at h
      split at h
      next => exact ih hpending hvisited h
      next =>
        split at h
        next => cases h
        next successors hinspect =>
          refine ih (fun b hb => ?_) (List.forall_mem_cons.mpr ⟨ha, hvisited⟩) h
          rcases List.mem_append.mp hb with hb | hb
          · exact hpending b hb
          · exact ha.tail ⟨successors, hinspect, hb⟩

/-- The work left: the pending vertices and what unvisited ones can still push. -/
def work (inspect : α → Option (List α)) (vertices pending visited : List α) : ℕ :=
  pending.length +
    ((vertices.filter fun a => a ∉ visited).map fun a => ((inspect a).getD []).length).sum

/-- An exploration with enough fuel fails only at a refused vertex. -/
theorem explore_isSome {vertices : List α} (hnodup : vertices.Nodup)
    (haccept : ∀ a ∈ vertices, AcceptedIn inspect vertices a) {fuel : ℕ} {pending visited : List α}
    (hpending : ∀ a ∈ pending, a ∈ vertices)
    (hfuel : work inspect vertices pending visited ≤ fuel) :
    (explore inspect fuel pending visited).isSome := by
  induction fuel generalizing pending visited with
  | zero =>
    cases pending with
    | nil => simp [explore]
    | cons a pending => simp [work] at hfuel
  | succ fuel ih =>
    cases pending with
    | nil => simp [explore]
    | cons a pending =>
      simp only [explore]
      have hrest : ∀ b ∈ pending, b ∈ vertices := fun b hb => hpending b (List.mem_cons_of_mem _ hb)
      split
      next hvisited =>
        refine ih hrest ?_
        simp only [work, List.length_cons] at hfuel ⊢
        omega
      next hfresh =>
        obtain ⟨successors, hinspect, hclosed⟩ := haccept a (hpending a List.mem_cons_self)
        simp only [hinspect]
        refine ih (fun b hb => (List.mem_append.mp hb).elim (hrest b) (hclosed b)) ?_
        -- The successors of the vertex move from the second summand to the first.
        have hperm : (vertices.filter fun b => b ∉ visited).Perm
            (a :: vertices.filter fun b => b ∉ a :: visited) := by
          refine (List.perm_ext_iff_of_nodup (hnodup.filter _)
            (List.nodup_cons.mpr ⟨by simp, hnodup.filter _⟩)).mpr fun b => ?_
          have ha := hpending a List.mem_cons_self
          by_cases hb : b = a
          · subst hb
            simp [ha, hfresh]
          · simp [hb]
        have hsum := (hperm.map fun b => ((inspect b).getD []).length).sum_eq
        simp only [List.map_cons, List.sum_cons, hinspect, Option.getD_some] at hsum
        simp only [work, List.length_cons, List.length_append] at hfuel ⊢
        omega

end VitaSX2.Worklist
