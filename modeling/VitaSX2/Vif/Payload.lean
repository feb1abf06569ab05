/-
References to raw VIF payloads in the input ring (`VitaGpuVuVifInput.cpp`), as
one thread sees them.

A slot holds the bytes of one generation.  A reference names a range of a
generation, and is retained and released by the count of the slot.
-/
import Mathlib.Algebra.Group.Nat.Defs
import Mathlib.Data.Nat.Notation
import Mathlib.Logic.Function.Basic
import Mathlib.Tactic.SplitIfs

namespace VitaSX2.Vif

abbrev Byte := BitVec 8

def inputRingSlotCount : ℕ := 4

def inputRingSlotSize : ℕ := 2 * 1024 * 1024

def isInputRingLogicalRange (offset size : ℕ) : Bool :=
  offset ≤ inputRingSlotSize ∧ size ≤ inputRingSlotSize - offset

structure RawVifPayloadRef where
  owner : ℕ := 0
  slot : ℕ := 0
  generation : ℕ := 0
  offset : ℕ := 0
  size : ℕ := 0
deriving DecidableEq, Repr

def RawVifPayloadRef.isValid (payload : RawVifPayloadRef) : Bool :=
  payload.owner ≠ 0 ∧ payload.generation ≠ 0 ∧ payload.size ≠ 0

structure InputSlot where
  generation : ℕ
  references : ℕ
  committedOffset : ℕ
  mapped : Bool
  bytes : ℕ → Byte

/-- A ring at an address, and whether it is the active one. -/
structure InputRing where
  address : ℕ
  active : Bool
  accepting : Bool
  slots : ℕ → InputSlot

def InputRing.setReferences (ring : InputRing) (slot references : ℕ) : InputRing :=
  { ring with
    slots := Function.update ring.slots slot { ring.slots slot with references := references } }

/-- `RetainRawVifPayload`: the count is raised before the range is confirmed,
and lowered again when the ring no longer accepts. -/
def retainRawVifPayload (ring : InputRing) (payload : RawVifPayloadRef) : Bool × InputRing :=
  if !payload.isValid || inputRingSlotCount ≤ payload.slot || payload.owner != ring.address then
    (false, ring)
  else
    let slot := ring.slots payload.slot
    if !isInputRingLogicalRange payload.offset payload.size then (false, ring)
    else if !slot.mapped || slot.committedOffset < payload.offset + payload.size then (false, ring)
    else if slot.generation ≠ payload.generation ∨ slot.references = 0 ∨
        slot.references = 2 ^ 32 - 1 then (false, ring)
    else
      let acquired := ring.setReferences payload.slot (slot.references + 1)
      if ring.active && ring.accepting then (true, acquired)
      else (false, acquired.setReferences payload.slot
        ((acquired.slots payload.slot).references - 1))

/-- `ReleaseRawVifPayload`. -/
def releaseRawVifPayload (ring : InputRing) (payload : RawVifPayloadRef) : InputRing :=
  if !payload.isValid || inputRingSlotCount ≤ payload.slot || payload.owner != ring.address then
    ring
  else
    let slot := ring.slots payload.slot
    if slot.generation ≠ payload.generation ∨ slot.references = 0 then ring
    else ring.setReferences payload.slot (slot.references - 1)

/-- A pointer into the mapped bytes of a slot. -/
structure PayloadPointer where
  slot : ℕ
  offset : ℕ
deriving DecidableEq, Repr

/-- `ResolveRawVifPayload`. -/
def resolveRawVifPayload (ring : InputRing) (payload : RawVifPayloadRef) : Option PayloadPointer :=
  let slot := ring.slots payload.slot
  if !payload.isValid then none
  else if payload.owner ≠ ring.address ∨ !ring.active then none
  else if inputRingSlotCount ≤ payload.slot then none
  else if !slot.mapped then none
  else if slot.generation ≠ payload.generation then none
  else if !isInputRingLogicalRange payload.offset payload.size then none
  else if slot.committedOffset < payload.offset + payload.size then none
  else if slot.references = 0 then none
  else some ⟨payload.slot, payload.offset⟩

def InputRing.read (ring : InputRing) (pointer : PayloadPointer) (index : ℕ) : Byte :=
  (ring.slots pointer.slot).bytes (pointer.offset + index)

/-- The reference names a committed range of the current generation of its slot. -/
structure Live (ring : InputRing) (payload : RawVifPayloadRef) : Prop where
  valid : payload.isValid = true
  slot : payload.slot < inputRingSlotCount
  owner : payload.owner = ring.address
  range : isInputRingLogicalRange payload.offset payload.size = true
  mapped : (ring.slots payload.slot).mapped = true
  generation : (ring.slots payload.slot).generation = payload.generation
  committed : payload.offset + payload.size ≤ (ring.slots payload.slot).committedOffset

/-! ### Reference counts -/

section References

variable {ring : InputRing} {payload : RawVifPayloadRef} {slot references : ℕ}

lemma references_setReferences (other : ℕ) :
    ((ring.setReferences slot references).slots other).references =
      if other = slot then references else (ring.slots other).references := by
  by_cases h : other = slot
  · subst h
    simp [InputRing.setReferences]
  · simp [InputRing.setReferences, h]

/-- Setting a count changes nothing else of any slot. -/
lemma slots_setReferences (other : ℕ) :
    (ring.setReferences slot references).slots other =
      { ring.slots other with
        references := if other = slot then references else (ring.slots other).references } := by
  by_cases h : other = slot
  · subst h
    simp [InputRing.setReferences]
  · simp [InputRing.setReferences, h]

@[simp] lemma bytes_setReferences (other : ℕ) :
    ((ring.setReferences slot references).slots other).bytes = (ring.slots other).bytes := by
  rw [slots_setReferences]

lemma Live.setReferences (h : Live ring payload) : Live (ring.setReferences slot references) payload where
  valid := h.valid
  slot := h.slot
  owner := h.owner
  range := h.range
  mapped := by rw [slots_setReferences]; exact h.mapped
  generation := by rw [slots_setReferences]; exact h.generation
  committed := by rw [slots_setReferences]; exact h.committed

/-- Taking a reference back restores the ring. -/
lemma setReferences_setReferences_self (other : ℕ) :
    (ring.setReferences slot other).setReferences slot (ring.slots slot).references = ring := by
  simp [InputRing.setReferences]

/-- A retain that succeeds has found a live reference, and counts it. -/
lemma retain_of_true (h : (retainRawVifPayload ring payload).1 = true) :
    Live ring payload ∧ (retainRawVifPayload ring payload).2 =
      ring.setReferences payload.slot ((ring.slots payload.slot).references + 1) := by
  unfold retainRawVifPayload at h ⊢
  dsimp only at h ⊢
  split at h
  next => cases h
  next howner =>
    split at h
    next => cases h
    next hrange =>
      split at h
      next => cases h
      next hcommitted =>
        split at h
        next => cases h
        next hgeneration =>
          split at h
          next hactive =>
            refine ⟨?_, by rw [if_neg howner, if_neg hrange, if_neg hcommitted, if_neg hgeneration,
              if_pos hactive]⟩
            simp only [Bool.or_eq_true, not_or, Bool.not_eq_true, Bool.not_eq_false', bne_iff_ne,
              ne_eq, not_not, decide_eq_true_eq, Nat.not_le] at howner hcommitted hgeneration
            simp only [Bool.not_eq_true, Bool.not_eq_false'] at hrange
            refine ⟨?_, howner.1.2, howner.2, hrange, ?_, hgeneration.1, ?_⟩
            · simpa using howner.1.1
            · simpa using hcommitted.1
            · simpa using hcommitted.2
          next => cases h

/-- A retain that fails leaves the counts as they were. -/
lemma retain_of_false (h : (retainRawVifPayload ring payload).1 = false) :
    (retainRawVifPayload ring payload).2 = ring := by
  unfold retainRawVifPayload at h ⊢
  dsimp only at h ⊢
  split_ifs at h ⊢
  iterate 4 rfl
  rw [references_setReferences, if_pos rfl, Nat.add_sub_cancel]
  exact setReferences_setReferences_self _

lemma release_of_live (h : Live ring payload) (hreferences : (ring.slots payload.slot).references ≠ 0) :
    releaseRawVifPayload ring payload =
      ring.setReferences payload.slot ((ring.slots payload.slot).references - 1) := by
  have hslot := Nat.not_le.mpr h.slot
  simp [releaseRawVifPayload, h.valid, hslot, h.owner, h.generation, hreferences]

lemma bytes_release (other : ℕ) :
    ((releaseRawVifPayload ring payload).slots other).bytes = (ring.slots other).bytes := by
  unfold releaseRawVifPayload
  dsimp only
  split
  next => rfl
  next =>
    split
    next => rfl
    next => exact bytes_setReferences other

lemma resolve_of_live (h : Live ring payload) (hactive : ring.active = true)
    (hreferences : (ring.slots payload.slot).references ≠ 0) :
    resolveRawVifPayload ring payload = some ⟨payload.slot, payload.offset⟩ := by
  have hslot := Nat.not_le.mpr h.slot
  have hcommitted := Nat.not_lt.mpr h.committed
  simp [resolveRawVifPayload, h.valid, hslot, h.owner, h.generation, hreferences, hactive, h.mapped,
    h.range, hcommitted]

/-- Releasing right after a retain gives the ring back. -/
lemma release_retain (h : (retainRawVifPayload ring payload).1 = true) :
    releaseRawVifPayload (retainRawVifPayload ring payload).2 payload = ring := by
  obtain ⟨hlive, hring⟩ := retain_of_true h
  rw [hring, release_of_live hlive.setReferences, references_setReferences, if_pos rfl,
    Nat.add_sub_cancel]
  · exact setReferences_setReferences_self _
  · rw [references_setReferences, if_pos rfl]
    exact Nat.succ_ne_zero _

end References

end VitaSX2.Vif
