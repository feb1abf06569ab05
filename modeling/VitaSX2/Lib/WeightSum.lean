/-
The total weight of a finite family when one member changes.
-/
import Mathlib.Algebra.Order.BigOperators.Group.Finset
import Mathlib.Data.Fintype.Basic

namespace VitaSX2.WeightSum

variable {ι α : Type*} [Fintype ι]

/-- The total weight of the members of a family. -/
def weightSum (weight : α → ℕ) (members : ι → α) : ℕ := ∑ index, weight (members index)

lemma weight_le_weightSum (weight : α → ℕ) (members : ι → α) (index : ι) :
    weight (members index) ≤ weightSum weight members :=
  Finset.single_le_sum (fun other _ => Nat.zero_le (weight (members other))) (Finset.mem_univ index)

variable [DecidableEq ι]

/-- The weight of one member and of the others. -/
lemma weightSum_eq_add (weight : α → ℕ) (members : ι → α) (index : ι) :
    weightSum weight members =
      weight (members index) + ∑ other ∈ Finset.univ.erase index, weight (members other) :=
  (Finset.add_sum_erase _ _ (Finset.mem_univ index)).symm

/-- Only the weight of the member that changes is exchanged. -/
theorem weightSum_update (weight : α → ℕ) (members : ι → α) (index : ι) (member : α) :
    weightSum weight (Function.update members index member) + weight (members index) =
      weightSum weight members + weight member := by
  have hrest : ∑ other ∈ Finset.univ.erase index,
      weight (Function.update members index member other) =
        ∑ other ∈ Finset.univ.erase index, weight (members other) :=
    Finset.sum_congr rfl fun other hother => by
      rw [Function.update_of_ne (Finset.ne_of_mem_erase hother)]
  rw [weightSum_eq_add weight members index,
    weightSum_eq_add weight (Function.update members index member) index, hrest,
    Function.update_self]
  omega

/-- Two members weigh at most as much as all. -/
lemma add_le_weightSum (weight : α → ℕ) (members : ι → α) {index other : ι} (h : other ≠ index) :
    weight (members index) + weight (members other) ≤ weightSum weight members := by
  rw [weightSum_eq_add weight members index]
  exact Nat.add_le_add_left (Finset.single_le_sum
    (fun third _ => Nat.zero_le (weight (members third)))
    (Finset.mem_erase.mpr ⟨h, Finset.mem_univ other⟩)) _

/-- When all weigh as much as one member, the others weigh nothing. -/
lemma eq_zero_of_weightSum_le (weight : α → ℕ) (members : ι → α) {index other : ι}
    (h : other ≠ index) (hsum : weightSum weight members ≤ weight (members index)) :
    weight (members other) = 0 := by
  have hadd := add_le_weightSum weight members h
  omega

end VitaSX2.WeightSum
