/-
Rewriting a list of direct spans, and binding qwords to payload bytes
(`VitaGpuVuVifInput.cpp`).

A direct span writes its vectors one after another around the VU memory; of the vectors that
go to one qword the last stays.  A merged span writes what the two wrote, a span that a later
one covers may be left out, and a binding names the payload bytes of the qwords of a grid.
-/
import VitaSX2.Vif.DeferredSpan

namespace VitaSX2.Vif

/-! ### What a span of any length writes -/

/-- The last vector of the span that goes to the same qword. -/
def VifUnpackSpan.last (span : VifUnpackSpan) (vector : ℕ) : ℕ :=
  vector + 1024 * ((span.vectorCount - 1 - vector) / 1024)

/-- Chunks that go around the memory: the last byte that goes to an address stays. -/
lemma copyChunks_wrapped {source : ℕ → Byte} {turns remaining sourceOffset destinationOffset : ℕ}
    {memory : Memory} (hturns : remaining ≤ turns) (hdestination : destinationOffset < 16384)
    (address : ℕ) :
    copyChunks source 16384 turns remaining sourceOffset destinationOffset memory address =
      if address < 16384 then
        if (address + 16384 - destinationOffset) % 16384 < remaining then
          source (sourceOffset + (address + 16384 - destinationOffset) % 16384 +
            16384 * ((remaining - 1 - (address + 16384 - destinationOffset) % 16384) / 16384))
        else memory address
      else memory address := by
  induction turns generalizing remaining sourceOffset destinationOffset memory with
  | zero =>
    obtain rfl : remaining = 0 := by omega
    simp [copyChunks]
  | succ turns ih =>
    rw [copyChunks]
    by_cases hzero : remaining = 0
    · subst hzero
      simp
    · rw [if_neg hzero, ih (by omega) (by omega)]
      by_cases haddress : address < 16384
      · have hstart : (address + 16384 - 0) % 16384 = address := by omega
        rw [if_pos haddress, if_pos haddress, hstart]
        -- the rest starts at the address zero; either it comes to the address again or not
        by_cases hagain : address < remaining - min remaining (16384 - destinationOffset)
        · have hin : (address + 16384 - destinationOffset) % 16384 < remaining := by omega
          rw [if_pos hagain, if_pos hin]
          exact congrArg source (by omega)
        · rw [if_neg hagain, memcpy]
          by_cases hhere : destinationOffset ≤ address ∧
              address < destinationOffset + min remaining (16384 - destinationOffset)
          · have hin : (address + 16384 - destinationOffset) % 16384 < remaining := by omega
            rw [if_pos hhere, if_pos hin]
            exact congrArg source (by omega)
          · have hout : ¬(address + 16384 - destinationOffset) % 16384 < remaining := by omega
            rw [if_neg hhere, if_neg hout]
      · have hout : ¬(destinationOffset ≤ address ∧
            address < destinationOffset + min remaining (16384 - destinationOffset)) := by omega
        rw [if_neg haddress, if_neg haddress, memcpy, if_neg hout]

/-- A direct span puts into every qword the last vector that goes there. -/
theorem materialize_wrapped {span : VifUnpackSpan} (h : isDirectAffineV4_32Span span = true)
    (hcount : span.vectorCount < 2 ^ 16) (source : ℕ → Byte) (memory : Memory) :
    materializeDirectAffineV4_32Span span source memory (1024 * 16) =
      (true, fun address =>
        if haddress : address < 1024 * 16 then
          let vector := span.vectorOf ⟨address / 16, qwordIndex_lt haddress⟩
          if vector < span.vectorCount then source (span.last vector * 16 + address % 16)
          else memory address
        else memory address) := by
  obtain ⟨hpos, hdestination, hsource⟩ := of_isDirectAffine h
  have hmod : span.destinationQword * 16 % (1024 * 16) = span.destinationQword * 16 :=
    Nat.mod_eq_of_lt (by omega)
  have hshape : (!isDirectAffineV4_32Span span || 1024 * 16 == 0 || 1024 * 16 % 16 != 0) = false := by
    rw [h]
    rfl
  rw [materializeDirectAffineV4_32Span, if_neg (by rw [hshape]; exact Bool.false_ne_true),
    if_neg (by omega)]
  refine Prod.ext rfl (funext fun address => ?_)
  dsimp only
  rw [hmod, copyChunks_wrapped (Nat.le_refl _) (by omega)]
  by_cases haddress : address < 1024 * 16
  · rw [if_pos haddress, dif_pos haddress, vectorOf_address hdestination haddress]
    by_cases hin : (address / 16 + 1024 - span.destinationQword) % 1024 < span.vectorCount
    · rw [if_pos hin, if_pos (by omega), VifUnpackSpan.last]
      congr 1
      omega
    · rw [if_neg hin, if_neg (by omega)]
  · rw [if_neg haddress, dif_neg haddress]

/-! ### Lists of spans -/

/-- The payload bytes of a span. -/
def VifUnpackSpan.source (span : VifUnpackSpan) (arena : PayloadArena) : ℕ → Byte := fun index =>
  arena span.payload.owner span.payload.slot span.payload.generation (span.payload.offset + index)

/-- A direct span whose vector count fits its sixteen bits. -/
structure VifUnpackSpan.Direct (span : VifUnpackSpan) : Prop where
  direct : isDirectAffineV4_32Span span = true
  count : span.vectorCount < 2 ^ 16

/-- The memory after a span. -/
def materialize (arena : PayloadArena) (memory : Memory) (span : VifUnpackSpan) : Memory :=
  (materializeDirectAffineV4_32Span span (span.source arena) memory (1024 * 16)).2

/-- The memory after a list of spans. -/
def materializeAll (arena : PayloadArena) (spans : List VifUnpackSpan) (memory : Memory) : Memory :=
  spans.foldl (materialize arena) memory

lemma materializeAll_append (arena : PayloadArena) (front back : List VifUnpackSpan)
    (memory : Memory) :
    materializeAll arena (front ++ back) memory =
      materializeAll arena back (materializeAll arena front memory) :=
  List.foldl_append

section List

variable {arena : PayloadArena} {span : VifUnpackSpan} {memory memory' : Memory} {address : ℕ}

lemma materialize_of_not_covers (h : span.Direct) (hcovers : ¬span.Covers address) :
    materialize arena memory span address = memory address := by
  rw [materialize, materialize_wrapped h.direct h.count]
  dsimp only
  split
  · next haddress => exact if_neg fun hvector => hcovers ⟨haddress, hvector⟩
  · rfl

lemma materialize_of_covers (h : span.Direct) (hcovers : span.Covers address) :
    materialize arena memory span address =
      span.source arena
        (span.last (span.vectorOf ⟨address / 16, qwordIndex_lt hcovers.1⟩) * 16 +
          address % 16) := by
  obtain ⟨haddress, hvector⟩ := hcovers
  rw [materialize, materialize_wrapped h.direct h.count]
  dsimp only
  rw [dif_pos haddress, if_pos hvector]

/-- Memories that agree off some addresses still do after a span. -/
lemma materialize_agree (h : span.Direct) {hidden : ℕ → Prop}
    (hagree : ∀ address, ¬hidden address → memory address = memory' address) (address : ℕ)
    (hshown : ¬hidden address) :
    materialize arena memory span address = materialize arena memory' span address := by
  by_cases hcovers : span.Covers address
  · rw [materialize_of_covers h hcovers, materialize_of_covers h hcovers]
  · rw [materialize_of_not_covers h hcovers, materialize_of_not_covers h hcovers,
      hagree address hshown]

lemma materializeAll_agree {spans : List VifUnpackSpan} (h : ∀ span ∈ spans, span.Direct)
    {hidden : ℕ → Prop} (hagree : ∀ address, ¬hidden address → memory address = memory' address) :
    ∀ address, ¬hidden address →
      materializeAll arena spans memory address = materializeAll arena spans memory' address := by
  induction spans generalizing memory memory' with
  | nil => exact hagree
  | cons span spans ih =>
    refine ih (fun other hmem => h other (List.mem_cons_of_mem _ hmem)) ?_
    exact materialize_agree (h span List.mem_cons_self) hagree

/-- A span that a later one covers may be left out. -/
theorem materializeAll_drop {older newer : VifUnpackSpan} {middle : List VifUnpackSpan}
    (holder : older.Direct) (hmiddle : ∀ span ∈ middle, span.Direct) (hnewer : newer.Direct)
    (h : directAffineSpanFullyOverwrites newer older = true) (memory : Memory) :
    materializeAll arena (older :: middle ++ [newer]) memory =
      materializeAll arena (middle ++ [newer]) memory := by
  rw [materializeAll_append, materializeAll_append]
  funext address
  show materialize arena (materializeAll arena middle (materialize arena memory older)) newer
    address = materialize arena (materializeAll arena middle memory) newer address
  by_cases hcovers : newer.Covers address
  · rw [materialize_of_covers hnewer hcovers, materialize_of_covers hnewer hcovers]
  · rw [materialize_of_not_covers hnewer hcovers, materialize_of_not_covers hnewer hcovers]
    have hagree : ∀ address, ¬older.Covers address →
        materialize arena memory older address = memory address := fun _ hother =>
      materialize_of_not_covers holder hother
    exact materializeAll_agree hmiddle hagree address
      fun hhidden => hcovers (covers_of_fullyOverwrites h hhidden)

end List

/-! ### Merging -/

/-- `ReleaseRawVifPayload`, as the reference is left. -/
def releasedPayload (payload : RawVifPayloadRef) : RawVifPayloadRef :=
  if payload.isValid then {} else payload

/-- `MergeAdjacentDirectAffineV4_32Spans`: its result and the two spans after it. -/
def mergeInPlace (earlier later : VifUnpackSpan) : Bool × VifUnpackSpan × VifUnpackSpan :=
  match mergeAdjacentDirectAffineV4_32Spans earlier later with
  | none => (false, earlier, later)
  | some merged => (true, merged, { later with payload := releasedPayload later.payload })

/-- What a merge has found out about the two spans, and the span it makes. -/
structure Merges (earlier later merged : VifUnpackSpan) : Prop where
  directEarlier : isDirectAffineV4_32Span earlier = true
  directLater : isDirectAffineV4_32Span later = true
  directMerged : isDirectAffineV4_32Span merged = true
  once : earlier.vectorCount + later.vectorCount ≤ 1024
  count : merged.vectorCount = earlier.vectorCount + later.vectorCount
  destination : merged.destinationQword = earlier.destinationQword
  next : (earlier.destinationQword + earlier.vectorCount) % 1024 = later.destinationQword
  source : ∀ arena, merged.source arena = earlier.source arena
  rest : ∀ (arena : PayloadArena) (index : ℕ),
    later.source arena index = earlier.source arena (earlier.vectorCount * 16 + index)

lemma merges_of_merge {earlier later merged : VifUnpackSpan}
    (h : mergeAdjacentDirectAffineV4_32Spans earlier later = some merged) :
    Merges earlier later merged := by
  rw [mergeAdjacentDirectAffineV4_32Spans] at h
  split at h
  · cases h
  · next hdirect =>
    simp only [Bool.or_eq_true, Bool.not_eq_true', not_or, Bool.not_eq_false] at hdirect
    obtain ⟨hearlier, hlater⟩ := hdirect
    dsimp only at h
    split at h
    · cases h
    · next hadjacent =>
      obtain rfl := Option.some.inj h
      simp only [not_or, not_not, Nat.not_lt, vu1MemoryQwords] at hadjacent
      obtain ⟨hcombined, hsize, hsize', -, -, howner, hslot, hgeneration, hoffset, hring, hnext⟩ :=
        hadjacent
      refine ⟨hearlier, hlater, ?_, hcombined, rfl, rfl, hnext, fun _ => rfl, fun arena index => ?_⟩
      · obtain ⟨hpos, -, -⟩ := of_isDirectAffine hearlier
        rw [isDirectAffineV4_32Span] at hearlier ⊢
        dsimp only at hearlier ⊢
        split at hearlier
        · cases hearlier
        · next hshape =>
          simp only [not_or, not_not] at hshape
          rw [if_neg]
          · exact decide_eq_true (by omega)
          · simp only [not_or, not_not]
            exact ⟨hshape.1, hshape.2.1, hshape.2.2.1, by omega, hshape.2.2.2.2⟩
      · simp only [VifUnpackSpan.source, ← howner, ← hslot, ← hgeneration, ← hoffset, Nat.add_assoc]

/-- A merged span does what the two do one after another. -/
theorem materialize_merged {earlier later merged : VifUnpackSpan} (h : Merges earlier later merged)
    (arena : PayloadArena) (memory : Memory) :
    materialize arena memory merged =
      materialize arena (materialize arena memory earlier) later := by
  obtain ⟨hearlier, hlater, hmerged, honce, hcount, hdestination, hnext, hsource, hrest⟩ := h
  obtain ⟨-, hqword, -⟩ := of_isDirectAffine hearlier
  obtain ⟨-, hqword', -⟩ := of_isDirectAffine hlater
  have hlt : merged.destinationQword < 1024 := hdestination ▸ hqword
  funext address
  rw [materialize, materialize, materialize, materialize_of_isDirectAffine hmerged (by omega),
    materialize_of_isDirectAffine hearlier (by omega),
    materialize_of_isDirectAffine hlater (by omega)]
  dsimp only
  by_cases haddress : address < 1024 * 16
  · rw [dif_pos haddress, dif_pos haddress, dif_pos haddress, vectorOf_address hlt haddress,
      vectorOf_address hqword haddress, vectorOf_address hqword' haddress, hdestination, hcount,
      hsource]
    by_cases hsecond : (address / 16 + 1024 - later.destinationQword) % 1024 < later.vectorCount
    · rw [if_pos hsecond, if_pos (by omega), hrest]
      congr 1
      omega
    · rw [if_neg hsecond]
      by_cases hfirst : (address / 16 + 1024 - earlier.destinationQword) % 1024 <
          earlier.vectorCount
      · rw [if_pos hfirst, if_pos (by omega)]
      · rw [if_neg hfirst, if_neg (by omega)]
  · rw [dif_neg haddress, dif_neg haddress, dif_neg haddress]

end VitaSX2.Vif
