/-
Raw UNPACK spans and the memory effect of a direct V4-32 span
(`VitaGpuVuVifInput.cpp`).

A direct span holds one qword of VU memory per vector, and its destination
wraps at the 1024 qwords of the memory.
-/
import Mathlib.Algebra.Group.Nat.Defs
import Mathlib.Data.Fintype.Basic
import Mathlib.Order.Basic
import VitaSX2.Lib.FixedSize
import VitaSX2.Vif.Payload

namespace VitaSX2.Vif

def vu1MemoryQwords : ℕ := 1024

/-- The metadata of one completed UNPACK command. -/
structure VifUnpackSpan where
  payload : RawVifPayloadRef := {}
  sequence : ℕ := 0
  sourceSize : ℕ := 0
  tagSizeWords : ℕ := 0
  mask : BitVec 32 := 0
  destinationQword : ℕ := 0
  vectorCount : ℕ := 0
  vifTop : ℕ := 0
  vifItop : ℕ := 0
  command : BitVec 8 := 0
  cycleCl : ℕ := 0
  cycleWl : ℕ := 0
  mode : ℕ := 0
  unsignedData : ℕ := 0
  startAlignment : ℕ := 0
deriving DecidableEq

def normalizedCycle (value : ℕ) : ℕ := if value ≠ 0 then value else 256

def isDirectAffineV4_32Span (span : VifUnpackSpan) : Bool :=
  let command := span.command &&& 0x7f#8
  if command ≠ 0x6c#8 ∨ span.mode ≠ 0 ∨ 1 < span.unsignedData ∨ span.vectorCount = 0 ∨
      vu1MemoryQwords ≤ span.destinationQword ∨
      normalizedCycle span.cycleCl ≠ normalizedCycle span.cycleWl then false
  else span.vectorCount * 16 ≤ span.sourceSize

/-- A qword of VU memory. -/
abbrev QwordAddress := Fin 1024

/-- The qword a vector of the span goes to. -/
def VifUnpackSpan.qword (span : VifUnpackSpan) (vector : ℕ) : QwordAddress :=
  Fin.ofNat 1024 (span.destinationQword + vector)

/-- The vector of the span that goes to a qword, if there is one. -/
def VifUnpackSpan.vectorOf (span : VifUnpackSpan) (qword : QwordAddress) : ℕ :=
  (qword - Fin.ofNat 1024 span.destinationQword).val

lemma qword_vectorOf (span : VifUnpackSpan) (qword : QwordAddress) :
    span.qword (span.vectorOf qword) = qword := by
  refine Fin.ext ?_
  simp only [VifUnpackSpan.qword, VifUnpackSpan.vectorOf, Fin.ofNat, Fin.sub_def]
  omega

lemma vectorOf_qword (span : VifUnpackSpan) {vector : ℕ} (h : vector < 1024) :
    span.vectorOf (span.qword vector) = vector := by
  simp only [VifUnpackSpan.qword, VifUnpackSpan.vectorOf, Fin.ofNat, Fin.sub_def]
  omega

lemma vectorOf_lt (span : VifUnpackSpan) (qword : QwordAddress) : span.vectorOf qword < 1024 :=
  (qword - Fin.ofNat 1024 span.destinationQword).isLt

/-- What a direct span satisfies. -/
lemma of_isDirectAffine {span : VifUnpackSpan} (h : isDirectAffineV4_32Span span = true) :
    0 < span.vectorCount ∧ span.destinationQword < 1024 ∧
      span.vectorCount * 16 ≤ span.sourceSize := by
  unfold isDirectAffineV4_32Span at h
  dsimp only at h
  split at h
  next => cases h
  next hshape =>
    simp only [not_or, not_not, vu1MemoryQwords, Nat.not_le] at hshape
    exact ⟨Nat.pos_of_ne_zero hshape.2.2.2.1, hshape.2.2.2.2.1, of_decide_eq_true h⟩

/-! ### Copying bytes -/

abbrev Memory := ℕ → Byte

/-- `std::memcpy`. -/
def memcpy (memory : Memory) (destination : ℕ) (source : ℕ → Byte) (count : ℕ) : Memory :=
  fun address =>
    if destination ≤ address ∧ address < destination + count then source (address - destination)
    else memory address

/-- The loop of `MaterializeDirectAffineV4_32Span`, with a turn for every remaining byte at most. -/
def copyChunks (source : ℕ → Byte) (memorySize : ℕ) :
    ℕ → ℕ → ℕ → ℕ → Memory → Memory
  | 0, _, _, _, memory => memory
  | turns + 1, remaining, sourceOffset, destinationOffset, memory =>
    if remaining = 0 then memory
    else
      let chunk := min remaining (memorySize - destinationOffset)
      copyChunks source memorySize turns (remaining - chunk) (sourceOffset + chunk) 0
        (memcpy memory destinationOffset (fun index => source (sourceOffset + index)) chunk)

def materializeDirectAffineV4_32Span (span : VifUnpackSpan) (source : ℕ → Byte) (memory : Memory)
    (memorySize : ℕ) : Bool × Memory :=
  if !isDirectAffineV4_32Span span || memorySize == 0 || memorySize % 16 != 0 then (false, memory)
  else if span.sourceSize < span.vectorCount * 16 ∨ 2 ^ 32 ≤ span.vectorCount * 16 then
    (false, memory)
  else
    let required := span.vectorCount * 16
    (true, copyChunks source memorySize required required 0
      (span.destinationQword * 16 % memorySize) memory)

lemma copyChunks_nothing (source : ℕ → Byte) (memorySize turns sourceOffset destinationOffset : ℕ)
    (memory : Memory) :
    copyChunks source memorySize turns 0 sourceOffset destinationOffset memory = memory := by
  cases turns <;> simp [copyChunks]

/-- A range that does not wrap is copied in one chunk. -/
lemma copyChunks_of_le {source : ℕ → Byte} {memorySize turns remaining sourceOffset
    destinationOffset : ℕ} {memory : Memory} (hturns : 0 < turns)
    (h : remaining ≤ memorySize - destinationOffset) :
    copyChunks source memorySize turns remaining sourceOffset destinationOffset memory =
      memcpy memory destinationOffset (fun index => source (sourceOffset + index)) remaining := by
  obtain ⟨turns, rfl⟩ := Nat.exists_eq_succ_of_ne_zero hturns.ne'
  rw [copyChunks, min_eq_left h]
  dsimp only
  rw [Nat.sub_self, copyChunks_nothing]
  split
  next hzero =>
    subst hzero
    funext address
    simp [memcpy]
  next => rfl

/-- A longer one goes on at the start of the memory. -/
lemma copyChunks_of_lt {source : ℕ → Byte} {memorySize turns remaining destinationOffset : ℕ}
    {memory : Memory} (hturns : 1 < turns) (h : memorySize - destinationOffset < remaining)
    (hwrap : remaining ≤ memorySize) :
    copyChunks source memorySize turns remaining 0 destinationOffset memory =
      memcpy (memcpy memory destinationOffset source (memorySize - destinationOffset)) 0
        (fun index => source (memorySize - destinationOffset + index))
        (remaining - (memorySize - destinationOffset)) := by
  obtain ⟨turns, rfl⟩ := Nat.exists_eq_succ_of_ne_zero (Nat.zero_lt_of_lt hturns).ne'
  rw [copyChunks, if_neg (by omega), min_eq_right h.le]
  dsimp only
  rw [copyChunks_of_le (by omega) (by omega)]
  simp only [Nat.zero_add]

/-- A direct span of at most the whole memory puts every vector into its qword. -/
theorem materialize_of_isDirectAffine {span : VifUnpackSpan}
    (h : isDirectAffineV4_32Span span = true) (hcount : span.vectorCount ≤ 1024)
    (source : ℕ → Byte) (memory : Memory) :
    materializeDirectAffineV4_32Span span source memory (1024 * 16) =
      (true, fun address =>
        if haddress : address < 1024 * 16 then
          let vector := span.vectorOf ⟨address / 16, by omega⟩
          if vector < span.vectorCount then source (vector * 16 + address % 16) else memory address
        else memory address) := by
  obtain ⟨hpos, hdestination, hsource⟩ := of_isDirectAffine h
  have hmod : span.destinationQword * 16 % (1024 * 16) = span.destinationQword * 16 :=
    Nat.mod_eq_of_lt (by omega)
  have hvector : ∀ address (haddress : address < 1024 * 16),
      span.vectorOf ⟨address / 16, by omega⟩ =
        (address / 16 + 1024 - span.destinationQword) % 1024 := by
    intro address haddress
    simp only [VifUnpackSpan.vectorOf, Fin.ofNat, Fin.sub_def]
    omega
  unfold materializeDirectAffineV4_32Span
  have hshape : (!isDirectAffineV4_32Span span || 1024 * 16 == 0 || 1024 * 16 % 16 != 0) = false := by
    rw [h]
    rfl
  rw [if_neg (by rw [hshape]; exact Bool.false_ne_true), if_neg (by omega)]
  refine Prod.ext rfl (funext fun address => ?_)
  dsimp only
  rw [hmod]
  by_cases hwrap : span.vectorCount * 16 ≤ 1024 * 16 - span.destinationQword * 16
  · rw [copyChunks_of_le (by omega) hwrap]
    simp only [memcpy, Nat.zero_add]
    split <;> rename_i hrange
    · rw [dif_pos (by omega)]
      simp only [hvector address (by omega)]
      rw [if_pos (by omega)]
      congr 1
      omega
    · split
      next haddress =>
        simp only [hvector address (by omega)]
        rw [if_neg (by omega)]
      next => rfl
  · rw [copyChunks_of_lt (by omega) (by omega) (by omega)]
    simp only [memcpy, Nat.zero_le, true_and, Nat.zero_add, Nat.sub_zero]
    split
    next hlow =>
      rw [dif_pos (by omega)]
      simp only [hvector address (by omega)]
      rw [if_pos (by omega)]
      congr 1
      omega
    next hlow =>
      split
      next hhigh =>
        rw [dif_pos (by omega)]
        simp only [hvector address (by omega)]
        rw [if_pos (by omega)]
        congr 1
        omega
      next hhigh =>
        split
        next haddress =>
          simp only [hvector address (by omega)]
          rw [if_neg (by omega)]
        next => rfl

end VitaSX2.Vif
