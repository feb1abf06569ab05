/-
The fragments into which the scheduler splits the moves of an edge, and the
bytes they touch.

After the split a move either copies one component between one-word places or a
whole Neon register between two registers.  The scratch slot is of one of these
two shapes as well, so that two places are disjoint as sets of bytes as soon as
`locationsOverlap` says so.
-/
import VitaSX2.Region.EdgeCopy.Machine
import Mathlib.Tactic.IntervalCases

namespace VitaSX2.RegionAllocation

/-! ### The components of a mask -/

lemma mem_maskWords {mask word : ℕ} :
    word ∈ maskWords mask ↔ word < 4 ∧ mask.testBit word = true := by
  simp [maskWords]

lemma maskWords_nodup (mask : ℕ) : (maskWords mask).Nodup :=
  List.nodup_range.filter _

lemma maskWords_two_pow {word : ℕ} (h : word < 4) : maskWords (2 ^ word) = [word] := by
  interval_cases word <;> decide

lemma maskWords_fifteen : maskWords 15 = [0, 1, 2, 3] := by decide

lemma rankWord_two_pow {word : ℕ} (h : word < 4) : rankWord (2 ^ word) word = 0 := by
  interval_cases word <;> decide

/-! ### Places -/

/-- A place that carries the components of `mask`: one word, or four words of a
Neon register or of the scratch slot. -/
structure Place (location : Location) (mask : ℕ) : Prop where
  mask_eq : location.wordMask = mask
  shape : (∃ word < 4, mask = 2 ^ word ∧ location.words = 1) ∨
    (mask = 15 ∧ location.words = 4 ∧ (location.kind = .neonQ ∨ location.kind = .spill))
  index_lt : location.kind = .core ∨ location.kind = .fixedCycle → location.index < 2 ^ 16
  bytes_le : location.kind = .spill → location.index + location.words * 4 ≤ 2 ^ 16

namespace Place

variable {a b : Location} {mask mask' : ℕ}

lemma mask_ne_zero (h : Place a mask) : mask ≠ 0 := by
  rcases h.shape with ⟨word, _, rfl, _⟩ | ⟨rfl, _⟩
  · exact (Nat.two_pow_pos word).ne'
  · decide

lemma words_pos (h : Place a mask) : 0 < a.words := by
  rcases h.shape with ⟨_, _, _, hw⟩ | ⟨_, hw, _⟩ <;> omega

lemma normalizedWordMask_eq (h : Place a mask) : normalizedWordMask a = mask := by
  unfold normalizedWordMask
  rw [h.mask_eq, if_pos h.mask_ne_zero]

lemma laneMask_eq (h : Place a mask) : laneMask a = mask := by
  unfold laneMask
  rw [h.mask_eq, if_pos h.mask_ne_zero]

/-- The position of a component in a place, in words. -/
def slotOf (location : Location) (word : ℕ) : ℕ :=
  if location.words = 4 then word else 0

lemma slotOf_lt (h : Place a mask) {word : ℕ} (hw : word ∈ maskWords mask) :
    slotOf a word < a.words := by
  have := (mem_maskWords.1 hw).1
  unfold slotOf
  split
  · omega
  · exact h.words_pos

lemma componentLocation_kind (h : Place a mask) {word : ℕ} (hw : word ∈ maskWords mask) :
    (componentLocation a word).kind = a.kind := by
  obtain ⟨_, hbit⟩ := mem_maskWords.1 hw
  unfold componentLocation
  simp only [h.normalizedWordMask_eq, hbit, not_true_eq_false, if_false]
  cases hk : a.kind <;> simp

lemma componentLocation_index (h : Place a mask) {word : ℕ} (hw : word ∈ maskWords mask) :
    (componentLocation a word).index =
      if a.kind = .spill then a.index + slotOf a word * 4
      else if a.kind = .none then 0 else a.index := by
  obtain ⟨_, hbit⟩ := mem_maskWords.1 hw
  have hslot := h.slotOf_lt hw
  have hbytes := h.bytes_le
  have hindex := h.index_lt
  have hrank : a.words ≠ 4 → rankWord mask word = 0 := by
    intro hne
    rcases h.shape with ⟨w, hlt, rfl, _⟩ | ⟨_, hw4, _⟩
    · rw [maskWords_two_pow hlt, List.mem_singleton] at hw
      rw [hw, rankWord_two_pow hlt]
    · exact absurd hw4 hne
  have hnarrow : a.kind = .core ∨ a.kind = .fixedCycle → rankWord mask word = 0 := by
    intro hk
    refine hrank fun hw4 => ?_
    rcases h.shape with ⟨_, _, _, hw1⟩ | ⟨_, _, hk' | hk'⟩
    · omega
    · rw [hk'] at hk; simp at hk
    · rw [hk'] at hk; simp at hk
  unfold componentLocation
  simp only [h.normalizedWordMask_eq, hbit, not_true_eq_false, if_false]
  cases hk : a.kind <;> simp only [reduceCtorEq, if_false, if_true]
  case core =>
    rw [hnarrow (by simp [hk]), Nat.add_zero]
    exact Nat.mod_eq_of_lt (hindex (by simp [hk]))
  case fixedCycle =>
    rw [hnarrow (by simp [hk]), Nat.add_zero]
    exact Nat.mod_eq_of_lt (hindex (by simp [hk]))
  case spill =>
    have hb := hbytes hk
    unfold slotOf at hslot ⊢
    by_cases h4 : a.words = 4
    · rw [if_pos h4] at hslot ⊢
      rw [if_pos h4]
      exact Nat.mod_eq_of_lt (by omega)
    · rw [if_neg h4, if_neg h4, hrank h4]
      exact Nat.mod_eq_of_lt (by have := h.words_pos; omega)

/-- The bytes of a component of a place. -/
lemma address_eq (h : Place a mask) {word : ℕ} (hw : word ∈ maskWords mask) :
    address a word =
      match a.kind with
      | .core => some (.core, a.index * 4)
      | .fixedCycle => some (.cycle, a.index * 4)
      | .vfpS => some (.vfpS, a.index * 4)
      | .neonQ => some (.neonQ, a.index * 16 + word * 4)
      | .spill => some (.frame, a.index + slotOf a word * 4)
      | _ => none := by
  unfold address
  simp only [h.componentLocation_kind hw, h.componentLocation_index hw]
  cases hk : a.kind <;> simp

lemma address_isSome (h : Place a mask) (htarget : isMoveTarget a = true) {word : ℕ}
    (hw : word ∈ maskWords mask) : (address a word).isSome := by
  rw [h.address_eq hw]
  unfold isMoveTarget at htarget
  cases hk : a.kind <;> simp_all

/-- Places that do not overlap share no byte. -/
lemma cellsDisjoint (ha : Place a mask) (hb : Place b mask') (h : locationsOverlap a b = false)
    {word word' : ℕ} (hw : word ∈ maskWords mask) (hw' : word' ∈ maskWords mask') :
    ∀ x ∈ address a word, ∀ y ∈ address b word', CellsDisjoint x y := by
  intro x hx y hy
  rw [ha.address_eq hw] at hx
  rw [hb.address_eq hw'] at hy
  by_cases hk : a.kind = b.kind
  · unfold locationsOverlap at h
    simp only [hk, ne_eq, not_true_eq_false, if_false] at h
    rw [hk] at hx
    have hslot := ha.slotOf_lt hw
    have hslot' := hb.slotOf_lt hw'
    have hwa := ha.words_pos
    have hwb := hb.words_pos
    cases hkind : b.kind <;> simp only [hkind, Option.mem_def, Option.some.injEq, reduceCtorEq]
      at hx hy h <;> subst hx <;> subst hy
    case core => right; simp only [rangesMeet, Bool.and_eq_false_iff, decide_eq_false_iff_not] at h; grind
    case fixedCycle =>
      right; simp only [rangesMeet, Bool.and_eq_false_iff, decide_eq_false_iff_not] at h; grind
    case vfpS => right; simp only [beq_eq_false_iff_ne] at h; grind
    case neonQ =>
      right
      obtain ⟨hlt, hbit⟩ := mem_maskWords.1 hw
      obtain ⟨hlt', hbit'⟩ := mem_maskWords.1 hw'
      rw [ha.laneMask_eq, hb.laneMask_eq, Bool.and_eq_false_iff, beq_eq_false_iff_ne,
        bne_eq_false_iff_eq] at h
      rcases h with h | h
      · simp only; omega
      · -- the lane masks have no common bit
        have hne : word ≠ word' := by
          rintro rfl
          have := congrArg (·.testBit word) h
          simp [hbit, hbit'] at this
        simp only; omega
    case spill =>
      right
      simp only [rangesMeet, Bool.and_eq_false_iff, decide_eq_false_iff_not] at h
      simp only; omega
  · left
    cases hka : a.kind <;> cases hkb : b.kind <;> simp_all <;> subst hx <;> subst hy <;> simp

end Place

end VitaSX2.RegionAllocation
