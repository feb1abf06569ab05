/-
First-fit placing of a range among ranges that are in its way.

The range starts at an offset, is moved to the next offset of its alignment, and
from there behind every obstacle that it overlaps, until it overlaps none.
-/
import VitaSX2.Lib.Tiling

namespace VitaSX2.FirstFit

open Tiling

/-- The range of the given offset and size overlaps an obstacle. -/
def meets (offset size : ℕ) (obstacle : ℕ × ℕ) : Bool :=
  offset < obstacle.1 + obstacle.2 && obstacle.1 < offset + size

/-- Move behind an obstacle that is in the way. -/
def pass (offset size next : ℕ) (obstacle : ℕ × ℕ) : ℕ :=
  if meets offset size obstacle then max next (obstacle.1 + obstacle.2) else next

/-- The offset behind all obstacles in the way, and the offset itself if there is
none. -/
def behind (size : ℕ) (obstacles : List (ℕ × ℕ)) (offset : ℕ) : ℕ :=
  obstacles.foldl (pass offset size) offset

/-- Restart behind the obstacles until there is none in the way. -/
def search (align : ℕ → ℕ) (size : ℕ) (obstacles : List (ℕ × ℕ)) : ℕ → ℕ → Option ℕ
  | 0, _ => none
  | fuel + 1, offset =>
    let aligned := align offset
    let next := behind size obstacles aligned
    if next = aligned then some aligned else search align size obstacles fuel next

variable {align : ℕ → ℕ} {size bound offset place fuel : ℕ} {obstacles : List (ℕ × ℕ)}

lemma apart_of_not_meets {obstacle : ℕ × ℕ} (h : meets offset size obstacle = false) :
    Apart (offset, size) obstacle := by
  rw [meets, Bool.and_eq_false_iff, decide_eq_false_iff_not, decide_eq_false_iff_not] at h
  rcases h with h | h
  · exact .inr (by dsimp only; omega)
  · exact .inl (by dsimp only; omega)

/-- The start is a lower bound, and so is the end of what is in the way. -/
private lemma foldl_pass (offset size bound : ℕ) (obstacles : List (ℕ × ℕ)) (next : ℕ) :
    next ≤ obstacles.foldl (pass offset size) next ∧
      (∀ obstacle ∈ obstacles, meets offset size obstacle = true →
        obstacle.1 + obstacle.2 ≤ obstacles.foldl (pass offset size) next) ∧
      (next ≤ bound → (∀ obstacle ∈ obstacles, obstacle.1 + obstacle.2 ≤ bound) →
        obstacles.foldl (pass offset size) next ≤ bound) := by
  induction obstacles generalizing next with
  | nil => exact ⟨le_rfl, fun obstacle h => (List.not_mem_nil h).elim, fun h _ => h⟩
  | cons obstacle obstacles ih =>
    rw [List.foldl_cons]
    obtain ⟨hle, hends, hbound⟩ := ih (pass offset size next obstacle)
    have hkeep : next ≤ pass offset size next obstacle := by
      rw [pass]
      split
      · exact le_max_left _ _
      · exact le_rfl
    refine ⟨hkeep.trans hle, fun other hother hmeets => ?_, fun hnext hall => hbound ?_
      fun other hother => hall other (List.mem_cons_of_mem _ hother)⟩
    · rcases List.mem_cons.mp hother with rfl | hother
      · rw [pass, if_pos hmeets] at hle ⊢
        exact (le_max_right _ _).trans hle
      · exact hends other hother hmeets
    · rw [pass]
      split
      · exact max_le hnext (hall obstacle List.mem_cons_self)
      · exact hnext

lemma le_behind : offset ≤ behind size obstacles offset :=
  (foldl_pass offset size 0 obstacles offset).1

lemma behind_le (hoffset : offset ≤ bound)
    (h : ∀ obstacle ∈ obstacles, obstacle.1 + obstacle.2 ≤ bound) :
    behind size obstacles offset ≤ bound :=
  (foldl_pass offset size bound obstacles offset).2.2 hoffset h

/-- Nothing is in the way of a range that is not moved. -/
lemma not_meets_of_behind (h : behind size obstacles offset = offset) :
    ∀ obstacle ∈ obstacles, meets offset size obstacle = false := by
  intro obstacle hobstacle
  by_contra hmeets
  rw [Bool.not_eq_false] at hmeets
  have hle := (foldl_pass offset size 0 obstacles offset).2.1 obstacle hobstacle hmeets
  change obstacle.1 + obstacle.2 ≤ behind size obstacles offset at hle
  rw [meets, Bool.and_eq_true, decide_eq_true_eq] at hmeets
  omega

/-- A range that is moved starts before the bound of the obstacles. -/
lemma lt_of_behind (h : ∀ obstacle ∈ obstacles, obstacle.1 + obstacle.2 ≤ bound)
    (hmoved : behind size obstacles offset ≠ offset) : offset < bound := by
  by_contra hle
  have := @behind_le size offset offset obstacles le_rfl fun obstacle hobstacle =>
    (h obstacle hobstacle).trans (not_lt.mp hle)
  exact hmoved (le_antisymm this le_behind)

/-- The place that is found is apart from every obstacle. -/
theorem search_spec (h : search align size obstacles fuel offset = some place) :
    ∀ obstacle ∈ obstacles, Apart (place, size) obstacle := by
  induction fuel generalizing offset with
  | zero => cases h
  | succ fuel ih =>
    rw [search] at h
    split at h
    next hstay =>
      cases h
      exact fun obstacle hobstacle => apart_of_not_meets (not_meets_of_behind hstay obstacle hobstacle)
    next => exact ih h

/-- The search ends: every restart is behind the last one and not behind the
bound of the obstacles. -/
theorem search_isSome (halign : ∀ v ≤ bound, v ≤ align v)
    (h : ∀ obstacle ∈ obstacles, obstacle.1 + obstacle.2 ≤ bound) (hoffset : offset ≤ bound)
    (hfuel : bound - offset < fuel) : ∃ place, search align size obstacles fuel offset = some place := by
  induction fuel generalizing offset with
  | zero => exact absurd hfuel (Nat.not_lt_zero _)
  | succ fuel ih =>
    rw [search]
    split
    next => exact ⟨_, rfl⟩
    next hmoved =>
      have hlt := lt_of_behind h hmoved
      have hle := @le_behind size (align offset) obstacles
      have hstart := halign offset hoffset
      exact ih (behind_le hlt.le h) (by omega)

/-- An empty range at offset zero meets nothing. -/
lemma search_empty (halign : align 0 = 0) (hfuel : 0 < fuel) :
    search align 0 obstacles fuel 0 = some 0 := by
  obtain ⟨fuel, rfl⟩ := Nat.exists_eq_add_of_le' hfuel
  have hstay : behind 0 obstacles 0 = 0 := by
    by_contra hmoved
    obtain ⟨obstacle, -, hmeets⟩ : ∃ obstacle ∈ obstacles, meets 0 0 obstacle = true := by
      by_contra hnone
      push Not at hnone
      refine hmoved (List.foldlRecOn (motive := fun next => next = 0) _ _ rfl ?_)
      intro next hnext obstacle hobstacle
      rw [pass, if_neg (hnone obstacle hobstacle), hnext]
    simp [meets] at hmeets
  rw [search, halign, hstay]
  rfl

end VitaSX2.FirstFit
