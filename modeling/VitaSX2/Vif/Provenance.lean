/-
`PersistentVifMemoryProvenance`: which retained span holds the latest bytes of
every qword of VU memory.

Every qword carries the token of its owner.  An owner is active while it owns a
qword, and keeps one reference to its payload.  The indices of the others are on
the free list.
-/
import VitaSX2.Lib.FixedSize
import VitaSX2.Vif.Span

namespace VitaSX2.Vif

/-- An index of `owners`, which is the token less one. -/
abbrev OwnerIndex := Fin 1024

structure Owner where
  span : VifUnpackSpan := {}
  ownedQwordCount : ℕ := 0
  active : Bool := false

/-- `PersistentVifMemoryProvenance::Impl`, with the last free index first. -/
structure Provenance where
  owners : OwnerIndex → Owner := fun _ => {}
  qwordOwners : QwordAddress → Option OwnerIndex := fun _ => none
  freeOwners : List OwnerIndex := List.finRange 1024
  activeOwnerCount : ℕ := 0
  ownedQwordCount : ℕ := 0

def Provenance.setOwner (provenance : Provenance) (index : OwnerIndex) (owner : Owner) :
    Provenance :=
  { provenance with owners := Function.update provenance.owners index owner }

def Provenance.setToken (provenance : Provenance) (qword : QwordAddress)
    (token : Option OwnerIndex) : Provenance :=
  { provenance with qwordOwners := Function.update provenance.qwordOwners qword token }

/-- One turn of the walk of `InvalidateOwner` over the old span. -/
def clearVector (index : OwnerIndex) (span : VifUnpackSpan) (provenance : Provenance)
    (vector : ℕ) : Provenance :=
  if provenance.qwordOwners (span.qword vector) ≠ some index then provenance
  else
    let cleared := provenance.setToken (span.qword vector) none
    { cleared with ownedQwordCount := cleared.ownedQwordCount - 1 }

/-- The end of `InvalidateOwner`, once no qword names the owner. -/
def Provenance.retire (provenance : Provenance) (index : OwnerIndex) : Provenance :=
  { provenance.setOwner index {} with
    freeOwners := index :: provenance.freeOwners
    activeOwnerCount := provenance.activeOwnerCount - 1 }

def invalidateOwner (index : OwnerIndex) (provenance : Provenance) (ring : InputRing) :
    Provenance × InputRing :=
  let owner := provenance.owners index
  if !owner.active then (provenance, ring)
  else
    let walked :=
      if owner.ownedQwordCount ≠ 0 then
        (List.range owner.span.vectorCount).foldl (clearVector index owner.span) provenance
      else provenance
    (walked.retire index, releaseRawVifPayload ring owner.span.payload)

/-- `Clear`. -/
def clear (provenance : Provenance) (ring : InputRing) : Provenance × InputRing :=
  (List.finRange 1024).foldl (fun current index => invalidateOwner index current.1 current.2)
    (provenance, ring)

/-- The token does not name an active owner of a qword. -/
def Provenance.faulty (provenance : Provenance) (token : Option OwnerIndex) : Bool :=
  match token with
  | none => false
  | some index =>
    !(provenance.owners index).active || (provenance.owners index).ownedQwordCount == 0

/-- The last free index becomes an active owner without a qword. -/
def Provenance.openOwner (provenance : Provenance) (index : OwnerIndex) (free : List OwnerIndex)
    (span : VifUnpackSpan) : Provenance :=
  { provenance.setOwner index ⟨span, 0, true⟩ with
    freeOwners := free
    activeOwnerCount := provenance.activeOwnerCount + 1 }

/-- The owner takes a qword that nobody owns. -/
def Provenance.takeFree (provenance : Provenance) (index : OwnerIndex) (qword : QwordAddress) :
    Provenance :=
  let counted := { provenance with ownedQwordCount := provenance.ownedQwordCount + 1 }
  let moved := counted.setToken qword (some index)
  let owner := moved.owners index
  moved.setOwner index { owner with ownedQwordCount := owner.ownedQwordCount + 1 }

/-- The owner takes a qword from another one. -/
def Provenance.takeFrom (provenance : Provenance) (prior index : OwnerIndex)
    (qword : QwordAddress) : Provenance :=
  let priorOwner := provenance.owners prior
  let reduced := provenance.setOwner prior
    { priorOwner with ownedQwordCount := priorOwner.ownedQwordCount - 1 }
  let moved := reduced.setToken qword (some index)
  let owner := moved.owners index
  moved.setOwner index { owner with ownedQwordCount := owner.ownedQwordCount + 1 }

/-- The owner loses a qword. -/
def Provenance.dropFrom (provenance : Provenance) (index : OwnerIndex) (qword : QwordAddress) :
    Provenance :=
  let dropped := provenance.setToken qword none
  let counted := { dropped with ownedQwordCount := dropped.ownedQwordCount - 1 }
  let owner := counted.owners index
  counted.setOwner index { owner with ownedQwordCount := owner.ownedQwordCount - 1 }

/-- Invalidate an owner that has lost its last qword. -/
def invalidateIfEmptied (index : OwnerIndex) (provenance : Provenance) (ring : InputRing) :
    Provenance × InputRing :=
  if (provenance.owners index).ownedQwordCount = 0 then invalidateOwner index provenance ring
  else (provenance, ring)

/-- One turn of the loop of `ApplyDirectAffineSpan` that moves qwords to the new owner. -/
def takeQword (index : OwnerIndex) (span : VifUnpackSpan) (current : Provenance × InputRing)
    (vector : ℕ) : Provenance × InputRing :=
  let qword := span.qword vector
  match current.1.qwordOwners qword with
  | none => (current.1.takeFree index qword, current.2)
  | some prior =>
    if prior = index then current
    else invalidateIfEmptied prior (current.1.takeFrom prior index qword) current.2

def applyDirectAffineSpan (span : VifUnpackSpan) (provenance : Provenance) (ring : InputRing) :
    Bool × Provenance × InputRing :=
  if !isDirectAffineV4_32Span span || span.vectorCount == 0 then (false, provenance, ring)
  else
    let retained := retainRawVifPayload ring span.payload
    if !retained.1 then (false, provenance, retained.2)
    else if (List.range span.vectorCount).any fun vector =>
        provenance.faulty (provenance.qwordOwners (span.qword vector)) then
      (false, provenance, releaseRawVifPayload retained.2 span.payload)
    else
      match provenance.freeOwners with
      | [] => (false, provenance, releaseRawVifPayload retained.2 span.payload)
      | index :: free =>
        (true, (List.range span.vectorCount).foldl (takeQword index span)
          (provenance.openOwner index free span, retained.2))

def invalidateQword (qword : QwordAddress) (provenance : Provenance) (ring : InputRing) :
    Provenance × InputRing :=
  match provenance.qwordOwners qword with
  | none => (provenance, ring)
  | some index =>
    if provenance.faulty (some index) then (provenance, ring)
    else invalidateIfEmptied index (provenance.dropFrom index qword) ring

/-- The pointer that `ResolveQword` returns, if there is one. -/
def resolveQword (qword : QwordAddress) (provenance : Provenance) (ring : InputRing) :
    Option PayloadPointer :=
  match provenance.qwordOwners qword with
  | none => none
  | some index =>
    let owner := provenance.owners index
    if !owner.active then none
    else
      let vector := owner.span.vectorOf qword
      let byteOffset := vector * 16
      match resolveRawVifPayload ring owner.span.payload with
      | none => none
      | some pointer =>
        if owner.span.vectorCount ≤ vector ∨ owner.span.payload.size < byteOffset ∨
            owner.span.payload.size - byteOffset < 16 then none
        else some ⟨pointer.slot, pointer.offset + byteOffset⟩

def materializeAndInvalidateQword (memory : Memory) (memorySize : ℕ) (qword : QwordAddress)
    (provenance : Provenance) (ring : InputRing) : Bool × Memory × Provenance × InputRing :=
  if memorySize < 1024 * 16 then (false, memory, provenance, ring)
  else if provenance.qwordOwners qword = none then (true, memory, provenance, ring)
  else
    match resolveQword qword provenance ring with
    | none => (false, memory, provenance, ring)
    | some pointer =>
      (true, memcpy memory (qword.val * 16) (ring.read pointer) 16,
        invalidateQword qword provenance ring)

/-- The qwords of the set bits of the mask words, in ascending order. -/
def maskedQwords (masks : List (BitVec 32)) : List QwordAddress :=
  masks.zipIdx.flatMap fun word =>
    ((List.range 32).filter fun bit => word.1.getLsbD bit).map fun bit =>
      Fin.ofNat 1024 (word.2 * 32 + bit)

def invalidateFullyOverwrittenQwords (masks : List (BitVec 32)) (provenance : Provenance)
    (ring : InputRing) : Bool × Provenance × InputRing :=
  if 1024 / 32 < masks.length then (false, provenance, ring)
  else if (maskedQwords masks).any fun qword =>
      provenance.faulty (provenance.qwordOwners qword) then (false, provenance, ring)
  else
    (true, (maskedQwords masks).foldl
      (fun current qword => invalidateQword qword current.1 current.2) (provenance, ring))

/-- The loop of `MaterializeOwnedQwords`, which stops at a qword it cannot resolve. -/
def materializeQwords (provenance : Provenance) (ring : InputRing) :
    List QwordAddress → Memory → Bool × Memory
  | [], memory => (true, memory)
  | qword :: rest, memory =>
    if provenance.qwordOwners qword = none then materializeQwords provenance ring rest memory
    else
      match resolveQword qword provenance ring with
      | none => (false, memory)
      | some pointer =>
        materializeQwords provenance ring rest
          (memcpy memory (qword.val * 16) (ring.read pointer) 16)

def materializeOwnedQwords (provenance : Provenance) (ring : InputRing) (memory : Memory)
    (memorySize : ℕ) : Bool × Memory :=
  if memorySize < 1024 * 16 then (false, memory)
  else materializeQwords provenance ring (List.finRange 1024) memory

end VitaSX2.Vif
