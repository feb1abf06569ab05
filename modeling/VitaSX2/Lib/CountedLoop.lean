/-
Loops that make a given number of turns.

A loop is the iterate of its turn.  An invariant and a relation to another loop
are carried along with the number of turns made; a loop that makes its turns in
groups makes the same turns.
-/
import Mathlib.Logic.Function.Iterate
import Mathlib.Data.Nat.Basic

namespace VitaSX2.CountedLoop

variable {S T : Type*} {turn : S → S} {turn' : T → T} {count : ℕ}

/-- The invariant rule. -/
theorem invariant (P : ℕ → S → Prop) (step : ∀ i < count, ∀ s, P i s → P (i + 1) (turn s))
    {s : S} (h : P 0 s) : P count (turn^[count] s) := by
  have hall : ∀ i ≤ count, P i (turn^[i] s) := by
    intro i
    induction i with
    | zero => exact fun _ => h
    | succ i ih =>
      intro hi
      rw [Function.iterate_succ_apply']
      exact step i hi _ (ih (Nat.le_of_succ_le hi))
  exact hall count le_rfl

/-- The rule for two loops side by side. -/
theorem simulation (R : ℕ → S → T → Prop)
    (step : ∀ i < count, ∀ s t, R i s t → R (i + 1) (turn s) (turn' t))
    {s : S} {t : T} (h : R 0 s t) : R count (turn^[count] s) (turn'^[count] t) := by
  have hall : ∀ i ≤ count, R i (turn^[i] s) (turn'^[i] t) := by
    intro i
    induction i with
    | zero => exact fun _ => h
    | succ i ih =>
      intro hi
      rw [Function.iterate_succ_apply', Function.iterate_succ_apply']
      exact step i hi _ _ (ih (Nat.le_of_succ_le hi))
  exact hall count le_rfl

/-- Groups of turns and the turns that are left over. -/
theorem groups (turn : S → S) (size count : ℕ) (s : S) :
    turn^[count % size] ((turn^[size])^[count / size] s) = turn^[count] s := by
  rw [← Function.iterate_mul, ← Function.iterate_add_apply, Nat.mod_add_div]

end VitaSX2.CountedLoop
