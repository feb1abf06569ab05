/-
Tilings of a range of numbers.

Tiles lie back to back, each with a label.  A tile may be replaced by others that
cover the same range.
-/
import Mathlib.Algebra.BigOperators.Group.List.Basic
import Mathlib.Algebra.GroupWithZero.Nat
import Mathlib.Data.List.Chain
import Mathlib.Order.Interval.Finset.Nat

namespace VitaSX2.Tiling

/-- A range with a label. -/
structure Tile (κ : Type*) where
  start : ℕ
  size : ℕ
  label : κ
deriving DecidableEq

variable {κ : Type*}

/-- The end of a tile. -/
def Tile.stop (tile : Tile κ) : ℕ := tile.start + tile.size

/-- Tiles that are not empty lie back to back from the first number to the second. -/
def Tiles : ℕ → List (Tile κ) → ℕ → Prop
  | p, [], q => p = q
  | p, tile :: tiles, q => tile.start = p ∧ 0 < tile.size ∧ Tiles tile.stop tiles q

variable {p q x : ℕ} {tile other : Tile κ} {tiles others front back : List (Tile κ)}

lemma tiles_append : Tiles p (tiles ++ others) q ↔ ∃ m, Tiles p tiles m ∧ Tiles m others q := by
  induction tiles generalizing p with
  | nil => simp [Tiles]
  | cons tile tiles ih => simp only [List.cons_append, Tiles, ih, and_assoc, exists_and_left]

lemma Tiles.le (h : Tiles p tiles q) : p ≤ q := by
  induction tiles generalizing p with
  | nil => exact Nat.le_of_eq h
  | cons tile tiles ih =>
    obtain ⟨rfl, -, hrest⟩ := h
    have := ih hrest
    simp only [Tile.stop] at this
    omega

/-- Every tile lies between the ends. -/
lemma Tiles.bounds (h : Tiles p tiles q) (hmem : tile ∈ tiles) :
    p ≤ tile.start ∧ 0 < tile.size ∧ tile.stop ≤ q := by
  induction tiles generalizing p with
  | nil => cases hmem
  | cons first tiles ih =>
    obtain ⟨rfl, hpos, hrest⟩ := h
    rcases List.mem_cons.mp hmem with rfl | hmem
    · exact ⟨le_rfl, hpos, hrest.le⟩
    · have hbounds := ih hrest hmem
      simp only [Tile.stop] at hbounds ⊢
      omega

/-- The tiles are in order. -/
lemma Tiles.pairwise (h : Tiles p tiles q) :
    tiles.Pairwise fun left right => left.stop ≤ right.start := by
  induction tiles generalizing p with
  | nil => exact List.Pairwise.nil
  | cons tile tiles ih =>
    obtain ⟨-, -, hrest⟩ := h
    exact List.pairwise_cons.mpr ⟨fun other hother => (hrest.bounds hother).1, ih hrest⟩

/-- Every number between the ends lies in a tile. -/
lemma Tiles.exists_mem (h : Tiles p tiles q) (hp : p ≤ x) (hq : x < q) :
    ∃ tile ∈ tiles, tile.start ≤ x ∧ x < tile.stop := by
  induction tiles generalizing p with
  | nil =>
    have : p = q := h
    omega
  | cons tile tiles ih =>
    obtain ⟨rfl, -, hrest⟩ := h
    by_cases hstop : x < tile.stop
    · exact ⟨tile, List.mem_cons_self, hp, hstop⟩
    · obtain ⟨other, hother, hbounds⟩ := ih hrest (not_lt.mp hstop)
      exact ⟨other, List.mem_cons_of_mem _ hother, hbounds⟩

/-- Tiles around a split: those in front end before it, those behind start after it. -/
lemma Tiles.split (h : Tiles p (front ++ tile :: back) q) :
    Tiles p front tile.start ∧ 0 < tile.size ∧ Tiles tile.stop back q := by
  obtain ⟨m, hfront, rfl, hpos, hback⟩ := tiles_append.mp h
  exact ⟨hfront, hpos, hback⟩

lemma Tiles.join (hfront : Tiles p front tile.start) (hpos : 0 < tile.size)
    (hback : Tiles tile.stop back q) : Tiles p (front ++ tile :: back) q :=
  tiles_append.mpr ⟨tile.start, hfront, rfl, hpos, hback⟩

/-- The sizes add up to the range. -/
lemma Tiles.sum_size (h : Tiles p tiles q) : p + (tiles.map Tile.size).sum = q := by
  induction tiles generalizing p with
  | nil => exact h
  | cons tile tiles ih =>
    obtain ⟨rfl, -, hrest⟩ := h
    have := ih hrest
    simp only [Tile.stop] at this
    rw [List.map_cons, List.sum_cons]
    omega

/-! ### Ranges that do not overlap -/

/-- Two ranges, by start and size, do not overlap. -/
def Apart (left right : ℕ × ℕ) : Prop :=
  left.1 + left.2 ≤ right.1 ∨ right.1 + right.2 ≤ left.1

instance : Std.Symm Apart := ⟨fun _ _ h => Or.symm h⟩

/-- Ranges that do not overlap fit in every set that holds them. -/
lemma sum_le_card {ranges : List (ℕ × ℕ)} (h : ranges.Pairwise Apart) (space : Finset ℕ)
    (hspace : ∀ range ∈ ranges, Finset.Ico range.1 (range.1 + range.2) ⊆ space) :
    (ranges.map Prod.snd).sum ≤ space.card := by
  induction ranges generalizing space with
  | nil => exact Nat.zero_le _
  | cons range ranges ih =>
    obtain ⟨hrange, hrest⟩ := List.pairwise_cons.mp h
    have hsub := hspace range List.mem_cons_self
    have hleft := ih hrest (space \ Finset.Ico range.1 (range.1 + range.2)) fun other hother x hx => by
      refine Finset.mem_sdiff.mpr ⟨hspace other (List.mem_cons_of_mem _ hother) hx, fun hin => ?_⟩
      rw [Finset.mem_Ico] at hx hin
      rcases hrange other hother with hle | hle <;> omega
    rw [Finset.card_sdiff_of_subset hsub, Nat.card_Ico] at hleft
    have hcard := Finset.card_le_card hsub
    rw [Nat.card_Ico] at hcard
    rw [List.map_cons, List.sum_cons]
    omega

end VitaSX2.Tiling
