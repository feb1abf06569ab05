/-
Counting the cells that carry a token.

A table gives every cell a token.  Changing one cell moves one unit from the
count of its old token to the count of its new one.
-/
import Mathlib.Data.Fintype.Basic
import Mathlib.Data.Finset.Card

namespace VitaSX2.TokenCount

variable {κ τ : Type*} [Fintype κ] [DecidableEq τ]

/-- The number of cells with a token. -/
def tokenCount (table : κ → τ) (token : τ) : ℕ :=
  (Finset.univ.filter fun cell => table cell = token).card

lemma tokenCount_pos {table : κ → τ} {token : τ} :
    0 < tokenCount table token ↔ ∃ cell, table cell = token := by
  rw [tokenCount, Finset.card_pos]
  constructor
  · rintro ⟨cell, hcell⟩
    exact ⟨cell, (Finset.mem_filter.mp hcell).2⟩
  · rintro ⟨cell, hcell⟩
    exact ⟨cell, Finset.mem_filter.mpr ⟨Finset.mem_univ cell, hcell⟩⟩

lemma tokenCount_const_ne {token other : τ} (h : token ≠ other) :
    tokenCount (fun _ : κ => token) other = 0 := by
  simp [tokenCount, h]

variable [DecidableEq κ]

/-- The count of a token is the count over the other cells and the one over the cell. -/
lemma tokenCount_eq_add (table : κ → τ) (cell : κ) (token : τ) :
    tokenCount table token =
      ((Finset.univ.erase cell).filter fun other => table other = token).card +
        if table cell = token then 1 else 0 := by
  have hsplit : (Finset.univ : Finset κ) = insert cell (Finset.univ.erase cell) :=
    (Finset.insert_erase (Finset.mem_univ cell)).symm
  rw [tokenCount]
  conv_lhs => rw [hsplit]
  rw [Finset.filter_insert]
  split
  next h =>
    rw [Finset.card_insert_of_notMem]
    simp
  next h => rfl

/-- The other cells do not see a change. -/
lemma filter_erase_update (table : κ → τ) (cell : κ) (value token : τ) :
    ((Finset.univ.erase cell).filter fun other => Function.update table cell value other = token) =
      (Finset.univ.erase cell).filter fun other => table other = token := by
  refine Finset.filter_congr fun other hother => ?_
  rw [Function.update_of_ne (Finset.ne_of_mem_erase hother)]

/-- One unit moves from the old token to the new one. -/
theorem tokenCount_update (table : κ → τ) (cell : κ) (value token : τ) :
    tokenCount (Function.update table cell value) token + (if table cell = token then 1 else 0) =
      tokenCount table token + if value = token then 1 else 0 := by
  rw [tokenCount_eq_add table cell token,
    tokenCount_eq_add (Function.update table cell value) cell token, filter_erase_update,
    Function.update_self]
  omega

lemma tokenCount_update_of_eq {table : κ → τ} {cell : κ} {value : τ} (h : table cell = value)
    (token : τ) : tokenCount (Function.update table cell value) token = tokenCount table token := by
  rw [← h, Function.update_eq_self]

end VitaSX2.TokenCount
