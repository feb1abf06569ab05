/-
Binding a grid of qwords to the payload bytes of one direct span
(`VitaGpuVuVifInput.cpp`).

An invocation of the grid reads the qword `first + outer * co + child * cc`, around the VU
memory.  A binding gives the byte offset and the two strides of its payload bytes.
-/
import Mathlib.Tactic.Ring
import VitaSX2.Vif.SpanRewrite

namespace VitaSX2.Vif

structure RawQwordBinding where
  payload : RawVifPayloadRef
  payloadByteOffset : ℕ
  byteStride : ℕ
  invocationCount : ℕ
  outerByteStride : ℕ
  payloadByteExtent : ℕ
deriving DecidableEq, Repr

def u32Maximum : ℕ := 2 ^ 32 - 1

/-- The vector of the span at which the first qword of the grid lies. -/
def firstSourceVector (span : VifUnpackSpan) (firstQwordAddress : ℕ) : ℕ :=
  (firstQwordAddress % vu1MemoryQwords + vu1MemoryQwords -
    span.destinationQword % vu1MemoryQwords) % vu1MemoryQwords

def bindAffineRawQwords (span : VifUnpackSpan) (firstQwordAddress : ℕ)
    (invocationCoefficient : ℤ) (invocationCount : ℕ) : Option RawQwordBinding :=
  if !span.payload.isValid || !isDirectAffineV4_32Span span || invocationCoefficient ≤ 0 ||
      invocationCount == 0 then none
  else
    let first := firstSourceVector span firstQwordAddress
    let coefficient := invocationCoefficient.toNat
    let lastSourceVector := first + coefficient * (invocationCount - 1)
    if span.vectorCount ≤ lastSourceVector then none
    else
      let byteOffset := first * 16
      let byteStride := coefficient * 16
      let lastByte := byteOffset + (invocationCount - 1) * byteStride + 16
      if u32Maximum < byteOffset ∨ u32Maximum < byteStride ∨ span.sourceSize < lastByte ∨
          span.payload.size < lastByte then none
      else
        some
          { payload := span.payload
            payloadByteOffset := byteOffset
            byteStride
            invocationCount
            outerByteStride := 0
            payloadByteExtent := lastByte - byteOffset }

/-- The products of counts below `2 ^ 32` and coefficients below `2 ^ 31` fit their 64 bits. -/
def bindGridRawQwords (span : VifUnpackSpan) (firstQwordAddress : ℕ)
    (outerInvocationCoefficient : ℤ) (outerInvocationCount : ℕ)
    (childInvocationCoefficient : ℤ) (childInvocationCount : ℕ) : Option RawQwordBinding :=
  if !span.payload.isValid || !isDirectAffineV4_32Span span || outerInvocationCoefficient < 0 ||
      childInvocationCoefficient < 0 || outerInvocationCount == 0 || childInvocationCount == 0 ||
      (outerInvocationCoefficient == 0 && childInvocationCoefficient == 0) then none
  else
    let first := firstSourceVector span firstQwordAddress
    let outerExtent := (outerInvocationCount - 1) * outerInvocationCoefficient.toNat
    let childExtent := (childInvocationCount - 1) * childInvocationCoefficient.toNat
    let lastSourceVector := first + outerExtent + childExtent
    if span.vectorCount ≤ lastSourceVector then none
    else
      let byteOffset := first * 16
      let outerByteStride := outerInvocationCoefficient.toNat * 16
      let childByteStride := childInvocationCoefficient.toNat * 16
      let byteExtent := (outerExtent + childExtent + 1) * 16
      let invocationCount := outerInvocationCount * childInvocationCount
      if u32Maximum < byteOffset ∨ u32Maximum < outerByteStride ∨ u32Maximum < childByteStride ∨
          u32Maximum < byteExtent ∨ u32Maximum < invocationCount ∨
          span.sourceSize < byteOffset + byteExtent ∨
          span.payload.size < byteOffset + byteExtent then none
      else
        some
          { payload := span.payload
            payloadByteOffset := byteOffset
            byteStride := childByteStride
            invocationCount
            outerByteStride
            payloadByteExtent := byteExtent }

/-! ### What a binding names -/

/-- The payload bytes of an invocation. -/
def RawQwordBinding.byte (binding : RawQwordBinding) (outer child : ℕ) : ℕ :=
  binding.payloadByteOffset + outer * binding.outerByteStride + child * binding.byteStride

/-- The sixteen bytes lie in the payload and are the qword of the memory after the span. -/
structure RawQwordBinding.Reads (binding : RawQwordBinding) (span : VifUnpackSpan)
    (arena : PayloadArena) (memory : Memory) (qword : ℤ) (outer child : ℕ) : Prop where
  inside : binding.byte outer child + 16 ≤ span.payload.size
  value : ∀ i < 16, span.source arena (binding.byte outer child + i) =
    materialize arena memory span ((qword % 1024).toNat * 16 + i)

/-- The bytes of a vector of a span that does not go around twice. -/
lemma source_eq_materialize {span : VifUnpackSpan} (h : isDirectAffineV4_32Span span = true)
    (hcount : span.vectorCount ≤ 1024) (arena : PayloadArena) (memory : Memory) {vector : ℕ}
    (hvector : vector < span.vectorCount) {i : ℕ} (hi : i < 16) :
    span.source arena (vector * 16 + i) =
      materialize arena memory span ((span.destinationQword + vector) % 1024 * 16 + i) := by
  obtain ⟨-, hqword, -⟩ := of_isDirectAffine h
  have haddress : (span.destinationQword + vector) % 1024 * 16 + i < 1024 * 16 := by omega
  rw [materialize, materialize_of_isDirectAffine h hcount]
  dsimp only
  rw [dif_pos haddress, vectorOf_address hqword haddress]
  have hback : (((span.destinationQword + vector) % 1024 * 16 + i) / 16 + 1024 -
      span.destinationQword) % 1024 = vector := by omega
  rw [hback, if_pos hvector]
  exact congrArg (span.source arena) (by omega)

/-- The qword of a vector of the grid. -/
lemma qword_of_vector (span : VifUnpackSpan)
    (first extent : ℕ) :
    (span.destinationQword + (firstSourceVector span first + extent)) % 1024 =
      (first + extent) % 1024 := by
  simp only [firstSourceVector, vu1MemoryQwords]
  omega

/-- **Every invocation of a bound grid reads the qword it addresses.** -/
theorem bindGrid_reads {span : VifUnpackSpan} {first outerCount childCount : ℕ}
    {outerCoefficient childCoefficient : ℤ} {binding : RawQwordBinding}
    (h : bindGridRawQwords span first outerCoefficient outerCount childCoefficient childCount =
      some binding) (hcount : span.vectorCount ≤ 1024) {outer child : ℕ} (houter : outer < outerCount)
    (hchild : child < childCount) (arena : PayloadArena) (memory : Memory) :
    binding.Reads span arena memory
      (first + outerCoefficient * outer + childCoefficient * child) outer child := by
  rw [bindGridRawQwords] at h
  split at h
  · cases h
  · next hshape =>
    simp only [Bool.or_eq_true, Bool.not_eq_true', decide_eq_true_eq, not_or, Bool.not_eq_false,
      Int.not_lt] at hshape
    obtain ⟨⟨⟨⟨⟨⟨-, hdirect⟩, houterPos⟩, hchildPos⟩, -⟩, -⟩, -⟩ := hshape
    dsimp only at h
    split at h
    · cases h
    · next hlast =>
      split at h
      · cases h
      · next hfits =>
        obtain rfl := Option.some.inj h
        simp only [not_or, Nat.not_lt] at hfits
        obtain ⟨-, -, -, -, -, -, hsize⟩ := hfits
        obtain ⟨-, hqword, -⟩ := of_isDirectAffine hdirect
        obtain ⟨co, rfl⟩ := Int.eq_ofNat_of_zero_le houterPos
        obtain ⟨cc, rfl⟩ := Int.eq_ofNat_of_zero_le hchildPos
        simp only [Int.toNat_natCast] at hlast hsize ⊢
        -- an invocation is not beyond the last one of the grid
        have hleOuter : outer * co ≤ (outerCount - 1) * co := Nat.mul_le_mul_right co (by omega)
        have hleChild : child * cc ≤ (childCount - 1) * cc := Nat.mul_le_mul_right cc (by omega)
        have hbyte : firstSourceVector span first * 16 + outer * (co * 16) + child * (cc * 16) =
            (firstSourceVector span first + (outer * co + child * cc)) * 16 := by ring
        have hvector : firstSourceVector span first + (outer * co + child * cc) <
            span.vectorCount := by omega
        refine ⟨?_, fun i hi => ?_⟩
        · simp only [RawQwordBinding.byte, hbyte]
          omega
        · have haddress : (((first : ℤ) + co * outer + cc * child) % 1024).toNat =
              (span.destinationQword +
                (firstSourceVector span first + (outer * co + child * cc))) % 1024 := by
            rw [qword_of_vector]
            have hcast : (first : ℤ) + co * outer + cc * child =
                ((first + (outer * co + child * cc) : ℕ) : ℤ) := by
              push_cast
              ring
            rw [hcast]
            omega
          simp only [RawQwordBinding.byte, hbyte, haddress]
          exact source_eq_materialize hdirect hcount arena memory hvector hi

/-- An affine binding is a grid of one row. -/
theorem bindAffine_eq_grid {span : VifUnpackSpan} {first count : ℕ} {coefficient : ℤ}
    {binding : RawQwordBinding}
    (h : bindAffineRawQwords span first coefficient count = some binding) (hcount : count < 2 ^ 32)
    (hsize : span.vectorCount < 2 ^ 16) :
    bindGridRawQwords span first 0 1 coefficient count = some binding := by
  rw [bindAffineRawQwords] at h
  split at h
  · cases h
  · next hshape =>
    simp only [Bool.or_eq_true, Bool.not_eq_true', decide_eq_true_eq, not_or, Bool.not_eq_false,
      Int.not_le, beq_iff_eq] at hshape
    obtain ⟨⟨⟨hvalid, hdirect⟩, hpos⟩, hsome⟩ := hshape
    dsimp only at h
    split at h
    · cases h
    · next hlast =>
      split at h
      · cases h
      · next hfits =>
        obtain rfl := Option.some.inj h
        simp only [not_or, Nat.not_lt] at hfits
        obtain ⟨hoffset, hstride, hsource, hpayload⟩ := hfits
        have hextent : firstSourceVector span first * 16 +
            (count - 1) * (coefficient.toNat * 16) + 16 =
            firstSourceVector span first * 16 + ((count - 1) * coefficient.toNat + 1) * 16 := by
          ring
        have hcomm : coefficient.toNat * (count - 1) = (count - 1) * coefficient.toNat :=
          Nat.mul_comm _ _
        rw [hcomm] at hlast
        rw [hextent] at hsource hpayload
        have hgood : ¬((!span.payload.isValid || !isDirectAffineV4_32Span span ||
            decide ((0 : ℤ) < 0) || decide (coefficient < 0) || (1 : ℕ) == 0 || count == 0 ||
            ((0 : ℤ) == 0 && coefficient == 0)) = true) := by
          simp only [hvalid, hdirect, Bool.not_true, Bool.or_self, Int.lt_irrefl, decide_false,
            Bool.false_or, Bool.or_eq_true, decide_eq_true_eq, beq_iff_eq, Bool.and_eq_true]
          omega
        rw [bindGridRawQwords, if_neg hgood]
        dsimp only
        have hnone : (1 - 1) * (0 : ℤ).toNat = 0 := rfl
        rw [hnone, if_neg (by omega), if_neg]
        · rw [hextent]
          simp
        · simp only [not_or, Nat.not_lt, u32Maximum] at *
          omega

/-- **Rewriting spans preserves the VU memory, and bindings name its qwords.**  In a list of
direct spans two neighbours may be merged and a covered span may be deleted, a refused merge
leaves both spans, and a bound grid lies in the payload and reads what it addresses. -/
theorem spanRewriting_sound (arena : PayloadArena) (memory : Memory) :
    (∀ front earlier later back, (mergeInPlace earlier later).1 = true →
      materializeAll arena (front ++ (mergeInPlace earlier later).2.1 :: back) memory =
        materializeAll arena (front ++ earlier :: later :: back) memory) ∧
    (∀ front older middle newer back,
      (∀ span ∈ front ++ older :: (middle ++ newer :: back), span.Direct) →
      directAffineSpanFullyOverwrites newer older = true →
      materializeAll arena (front ++ (middle ++ newer :: back)) memory =
        materializeAll arena (front ++ older :: (middle ++ newer :: back)) memory) ∧
    (∀ earlier later, (mergeInPlace earlier later).1 = false →
      (mergeInPlace earlier later).2 = (earlier, later)) ∧
    ∀ span first outerCoefficient outerCount childCoefficient childCount binding,
      bindGridRawQwords span first outerCoefficient outerCount childCoefficient childCount =
        some binding → span.vectorCount ≤ 1024 →
      ∀ outer < outerCount, ∀ child < childCount, binding.Reads span arena memory
        (first + outerCoefficient * outer + childCoefficient * child) outer child := by
  refine ⟨fun front earlier later back h => ?_, fun front older middle newer back hdirect h => ?_,
    fun earlier later h => ?_, fun span first co no cc nc binding h hcount outer houter child hchild =>
      bindGrid_reads h hcount houter hchild arena memory⟩
  · rw [mergeInPlace] at h ⊢
    split at h
    · cases h
    · next merged hmerged =>
      rw [materializeAll_append, materializeAll_append]
      exact congrArg (materializeAll arena back)
        (materialize_merged (merges_of_merge hmerged) arena _)
  · have holder := hdirect older (by simp)
    have hmiddle : ∀ span ∈ middle, span.Direct := fun span hmem => hdirect span (by simp [hmem])
    have hnewer := hdirect newer (by simp)
    have hsplit : ∀ l, materializeAll arena (front ++ (l ++ newer :: back)) memory =
        materializeAll arena back
          (materializeAll arena (l ++ [newer]) (materializeAll arena front memory)) := by
      intro l
      rw [← materializeAll_append, ← materializeAll_append]
      simp
    have hdrop : materializeAll arena (older :: middle ++ [newer])
        (materializeAll arena front memory) = _ :=
      materializeAll_drop holder hmiddle hnewer h _
    calc materializeAll arena (front ++ (middle ++ newer :: back)) memory
        = materializeAll arena back
            (materializeAll arena (middle ++ [newer]) (materializeAll arena front memory)) :=
          hsplit middle
      _ = materializeAll arena back
            (materializeAll arena (older :: middle ++ [newer])
              (materializeAll arena front memory)) := by rw [hdrop]
      _ = materializeAll arena (front ++ older :: (middle ++ newer :: back)) memory :=
          (hsplit (older :: middle)).symm
  · rw [mergeInPlace] at h ⊢
    split at h
    · rfl
    · cases h

end VitaSX2.Vif
