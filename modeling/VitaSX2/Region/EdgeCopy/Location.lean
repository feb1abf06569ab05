/-
Storage locations of the EE region allocator (`VitaEeRegionAllocation.h`) and
the tests on them that the edge-copy scheduler relies on.

A location names one physical place: consecutive core words, a VFP scalar, the
lanes of a Neon register, bytes of the region-private spill frame, or one of the
two read-only places, an immediate and a slot of the canonical state.  Its word
mask says which of the four 32-bit components of an architectural value the
place carries.
-/
import Mathlib.Data.Nat.Bitwise
import Mathlib.Data.List.Basic

namespace VitaSX2.RegionAllocation

/-- An SSA value of the region program. -/
abbrev ValueId := ℕ

/-- `RegionIR::INVALID_VALUE`. -/
def invalidValue : ValueId := 2 ^ 32 - 1

/-- `RegionIR::INVALID_BLOCK`. -/
def invalidBlock : ℕ := 2 ^ 32 - 1

inductive LocationKind
  | none
  | immediate
  | canonicalState
  | core
  | fixedCycle
  | vfpS
  | neonQ
  | spill
deriving DecidableEq, Repr

structure Location where
  kind : LocationKind := .none
  /-- A logical register, a state slot, or a byte offset in the spill frame. -/
  index : ℕ := 0
  words : ℕ := 0
  /-- The architectural components carried by the place, one bit each. -/
  wordMask : ℕ := 0
deriving DecidableEq, Repr

/-- One SSA transfer of an internal CFG edge. -/
structure EdgeMove where
  sourceBlock : ℕ := invalidBlock
  targetBlock : ℕ := invalidBlock
  edgeIndex : ℕ := 0
  source : ValueId := invalidValue
  targetParameter : ValueId := invalidValue
  sourceLocation : Location := {}
  targetLocation : Location := {}
  wordMask : ℕ := 0
deriving DecidableEq, Repr

/-- The lanes of a Neon location; a zero mask stands for the whole register. -/
def laneMask (location : Location) : ℕ :=
  if location.wordMask ≠ 0 then location.wordMask else 0x0f

/-- Two half-open ranges of the given lengths meet. -/
def rangesMeet (left leftLength right rightLength : ℕ) : Bool :=
  left < right + rightLength && right < left + leftLength

def locationsOverlap (left right : Location) : Bool :=
  if left.kind ≠ right.kind then false
  else match left.kind with
    | .core | .fixedCycle => rangesMeet left.index left.words right.index right.words
    | .neonQ => left.index == right.index && (laneMask left &&& laneMask right) != 0
    | .vfpS => left.index == right.index
    | .spill => rangesMeet left.index (left.words * 4) right.index (right.words * 4)
    | _ => false

def samePhysicalStorage (left right : Location) : Bool :=
  if left.kind ≠ right.kind ∨ left.index ≠ right.index ∨ left.words ≠ right.words then false
  else match left.kind with
    | .neonQ => laneMask left == laneMask right
    | .core | .fixedCycle | .vfpS | .spill => true
    | _ => false

def normalizedWordMask (location : Location) : ℕ :=
  if location.wordMask ≠ 0 then location.wordMask
  else if location.words = 0 then 0
  else 2 ^ min location.words 4 - 1

/-- The number of the four component bits that are set. -/
def countWords (mask : ℕ) : ℕ :=
  (mask.testBit 0).toNat + (mask.testBit 1).toNat + (mask.testBit 2).toNat + (mask.testBit 3).toNat

/-- The position of a component among the packed components of a place. -/
def rankWord (mask word : ℕ) : ℕ :=
  countWords (mask &&& (2 ^ word - 1))

/-- The part of a location that carries one component. -/
def componentLocation (location : Location) (word : ℕ) : Location :=
  let mask := normalizedWordMask location
  if ¬ mask.testBit word then {}
  else
    let fragment := { location with words := 1, wordMask := 2 ^ word }
    match location.kind with
    | .core | .fixedCycle =>
        { fragment with index := (location.index + rankWord mask word) % 2 ^ 16 }
    | .spill =>
        -- a four-word spill keeps the lane layout of the register it stands for
        let physicalWord := if location.words = 4 then word else rankWord mask word
        { fragment with index := (location.index + physicalWord * 4) % 2 ^ 16 }
    | .immediate | .canonicalState | .vfpS | .neonQ => fragment
    | .none => {}

def isMoveSource (location : Location) : Bool :=
  location.kind != .none

def isMoveTarget (location : Location) : Bool :=
  match location.kind with
  | .core | .fixedCycle | .vfpS | .neonQ | .spill => true
  | _ => false

/-! ### The tests on locations -/

lemma locationsOverlap_symm {left right : Location} (h : locationsOverlap left right = true) :
    locationsOverlap right left = true := by
  unfold locationsOverlap at h ⊢
  by_cases hk : left.kind = right.kind
  · have hk' : right.kind = left.kind := hk.symm
    simp only [hk, ne_eq, not_true_eq_false, if_false] at h ⊢
    cases hkind : right.kind <;> simp only [hkind, rangesMeet, Bool.and_eq_true,
      decide_eq_true_eq, beq_iff_eq, bne_iff_ne, ne_eq, Bool.false_eq_true] at h ⊢
    case neonQ => exact ⟨h.1.symm, by rw [Nat.land_comm]; exact h.2⟩
    case vfpS => exact h.symm
    all_goals exact h.symm
  · simp [hk] at h

lemma samePhysicalStorage_symm {left right : Location}
    (h : samePhysicalStorage left right = true) : samePhysicalStorage right left = true := by
  unfold samePhysicalStorage at h ⊢
  split at h
  · simp at h
  · rename_i hne
    push Not at hne
    obtain ⟨hk, hi, hw⟩ := hne
    rw [if_neg (by simp [hk, hi, hw])]
    rw [hk] at h
    cases hkind : right.kind <;> simp_all

/-- A place meets everything that meets a place with the same storage. -/
lemma locationsOverlap_of_same {a b c : Location} (hac : locationsOverlap a c = true)
    (hbc : samePhysicalStorage b c = true) : locationsOverlap a b = true := by
  unfold samePhysicalStorage at hbc
  split at hbc
  · simp at hbc
  · rename_i hne
    push Not at hne
    obtain ⟨hk, hi, hw⟩ := hne
    unfold locationsOverlap at hac ⊢
    rw [hk, hi, hw]
    rw [hk] at hbc
    cases hkind : c.kind <;> simp_all

lemma laneMask_ne_zero (location : Location) : laneMask location ≠ 0 := by
  unfold laneMask
  split
  · assumption
  · decide

/-- Two nonempty places with the storage of a third one meet. -/
lemma locationsOverlap_of_same_same {a b c : Location} (hac : samePhysicalStorage a c = true)
    (hbc : samePhysicalStorage b c = true) (hwords : 0 < c.words) :
    locationsOverlap a b = true := by
  refine @locationsOverlap_of_same a b c ?_ hbc
  refine locationsOverlap_symm (@locationsOverlap_of_same c a c ?_ hac)
  unfold samePhysicalStorage at hac
  split at hac
  · simp at hac
  · rename_i hne
    push Not at hne
    rw [hne.1] at hac
    unfold locationsOverlap
    cases hkind : c.kind <;> simp_all [rangesMeet, Nat.and_self, laneMask_ne_zero]

end VitaSX2.RegionAllocation
