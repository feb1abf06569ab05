/-
Sums of quotients.

Numbers that are divided one by one give at most the quotient of their sum, and
exactly it when their remainders stay below the divisor together.
-/
import Mathlib.Algebra.BigOperators.Group.List.Basic
import Mathlib.Algebra.GroupWithZero.Nat
import Mathlib.Algebra.Order.BigOperators.Group.List

namespace VitaSX2.FloorSum

variable {l front back : List ℕ} {v : ℕ}

lemma sum_eq (l : List ℕ) (v : ℕ) :
    l.sum = v * (l.map (· / v)).sum + (l.map (· % v)).sum := by
  induction l with
  | nil => rfl
  | cons n l ih =>
    have := Nat.div_add_mod n v
    simp only [List.map_cons, List.sum_cons, Nat.mul_add]
    omega

/-- What the quotients miss of the quotient of the sum. -/
lemma sum_div (l : List ℕ) (hv : 0 < v) :
    l.sum / v = (l.map (· / v)).sum + (l.map (· % v)).sum / v := by
  rw [sum_eq l v, Nat.mul_add_div hv]

lemma sum_div_le (l : List ℕ) (hv : 0 < v) : (l.map (· / v)).sum ≤ l.sum / v := by
  rw [sum_div l hv]
  exact Nat.le_add_right _ _

theorem sum_div_eq_iff (l : List ℕ) (hv : 0 < v) :
    (l.map (· / v)).sum = l.sum / v ↔ (l.map (· % v)).sum < v := by
  rw [sum_div l hv, ← Nat.div_eq_zero_iff_lt hv]
  omega

/-- Remainders that stay below the divisor do so at every earlier point. -/
lemma sum_mod_append_lt (h : ((front ++ back).map (· % v)).sum < v) :
    (front.map (· % v)).sum < v := by
  rw [List.map_append, List.sum_append] at h
  omega

end VitaSX2.FloorSum
