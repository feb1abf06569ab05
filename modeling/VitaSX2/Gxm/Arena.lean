/-
The arena for memory that is registered with libGXM (`VitaGxmArena.cpp`,
`VitaGxmMemory.cpp`).

A slab is one kernel block.  It keeps its free ranges and its live ranges as maps
by offset, while alignment is that of the absolute address.  An allocation takes
the tightest free range; a release coalesces with the free ranges on both sides.
-/
import VitaSX2.Lib.SortedMap
import VitaSX2.Lib.Tiling
import Mathlib.Algebra.Order.Group.Nat

namespace VitaSX2.GxmArena

open SortedMap

/-- `std::numeric_limits<std::size_t>::max()`. -/
def sizeMax : ℕ := 2 ^ 32 - 1

/-- The errors of the arena; `block` is an error of the kernel or of libGXM. -/
inductive ArenaError
  | uninitialized
  | invalidValue
  | invalidPointer
  | outOfMemory
  | block (code : ℤ)
deriving DecidableEq, Repr

/-! ### Alignment -/

/-- `IsPowerOfTwo`. -/
def isPowerOfTwo (value : ℕ) : Bool := value != 0 && value &&& (value - 1) == 0

/-- `AlignUp`. -/
def alignUp (value alignment : ℕ) : Option ℕ :=
  if !isPowerOfTwo alignment || sizeMax - (alignment - 1) < value then none
  else some ((value + alignment - 1) &&& (sizeMax ^^^ (alignment - 1)))

/-- `AlignSlabOffset`. -/
def alignSlabOffset (base offset alignment : ℕ) : Option ℕ :=
  if base = 0 then none
  else if sizeMax - base < offset then none
  else
    (alignUp (base + offset) alignment).bind fun alignedAddress =>
      if alignedAddress < base then none else some (alignedAddress - base)

/-! ### Blocks -/

/-- `ArenaMemory`. -/
inductive ArenaMemory
  | mainNonCached
  | cdram
deriving DecidableEq, Repr

/-- `MappedBlock`. -/
structure MappedBlock where
  base : ℕ
  size : ℕ
  mapped : Bool
deriving DecidableEq, Repr

/-- `IsMapped`. -/
def MappedBlock.isMapped (block : MappedBlock) : Bool := block.base != 0 && block.mapped

/-- What the kernel and libGXM make of a request for a block. -/
inductive BlockResponse
  | failed (code : ℤ)
  | mapped (base : ℕ)
deriving DecidableEq, Repr

/-- The granularity of the blocks of a memory. -/
def memblockAlignment : ArenaMemory → ℕ
  | .mainNonCached => 4 * 1024
  | .cdram => 256 * 1024

/-- `GetAlignedSize`, in 64 bits. -/
def getAlignedSize (memory : ArenaMemory) (requestedSize : ℕ) : Option ℕ :=
  if requestedSize = 0 then none
  else
    let alignment := memblockAlignment memory
    let rounded := (requestedSize + alignment - 1) &&& ((2 ^ 64 - 1) ^^^ (alignment - 1))
    if rounded < requestedSize ∨ sizeMax < rounded then none else some rounded

/-- `AllocateMappedBlock`. -/
def allocateMappedBlock (memory : ArenaMemory) (requestedSize : ℕ) (response : BlockResponse) :
    Except ArenaError MappedBlock :=
  match getAlignedSize memory requestedSize with
  | none => .error .invalidValue
  | some size =>
    match response with
    | .failed code => .error (.block code)
    | .mapped base =>
      if base = 0 then .error .invalidPointer else .ok { base, size, mapped := true }

/-! ### Slabs -/

/-- `LiveRange`. -/
structure LiveRange where
  size : ℕ
  token : ℕ
deriving DecidableEq, Repr

/-- `Slab`. -/
structure Slab where
  block : MappedBlock
  logicalSize : ℕ
  freeRanges : List (ℕ × ℕ)
  liveRanges : List (ℕ × LiveRange) := []
deriving DecidableEq, Repr

/-- A free range that holds an aligned allocation. -/
structure Fit where
  offset : ℕ
  rangeSize : ℕ
  alignedOffset : ℕ
  waste : ℕ
deriving DecidableEq, Repr

/-- The first half of `InsertFreeRange`: the range with the free range that ends
where it starts, which is taken out. -/
def coalescePrevious (offset size : ℕ) (ranges : List (ℕ × ℕ)) : List (ℕ × ℕ) × ℕ × ℕ :=
  match prevBound offset ranges with
  | some previous =>
    if previous.1 + previous.2 = offset then
      (erase previous.1 ranges, previous.1, size + previous.2)
    else (ranges, offset, size)
  | none => (ranges, offset, size)

/-- The second half: the range goes in, with the free range that starts where it
ends. -/
def coalesceNext (offset size : ℕ) (ranges : List (ℕ × ℕ)) : List (ℕ × ℕ) :=
  match lowerBound offset ranges with
  | some next =>
    if offset + size = next.1 then emplace offset (size + next.2) (erase next.1 ranges)
    else emplace offset size ranges
  | none => emplace offset size ranges

namespace Slab

variable (slab : Slab) (size alignment : ℕ)

/-- The fit of a free range. -/
def fit (range : ℕ × ℕ) : Option Fit :=
  (alignSlabOffset slab.block.base range.1 alignment).bind fun alignedOffset =>
    if alignedOffset < range.1 then none
    else
      let lead := alignedOffset - range.1
      if range.2 < lead ∨ range.2 - lead < size then none
      else some ⟨range.1, range.2, alignedOffset, range.2 - lead - size⟩

/-- The scan of `AllocateFromSlab`. -/
def bestFit : Option Fit :=
  slab.freeRanges.foldl (fun best range =>
    match slab.fit size alignment range with
    | none => best
    | some fit => if fit.waste < best.elim sizeMax Fit.waste then some fit else best) none

/-- The free ranges behind an allocation in one of them. -/
def splitRange (best : Fit) : List (ℕ × ℕ) :=
  let erased := erase best.offset slab.freeRanges
  let leading :=
    if best.offset < best.alignedOffset then
      emplace best.offset (best.alignedOffset - best.offset) erased
    else erased
  let allocationEnd := best.alignedOffset + size
  let rangeEnd := best.offset + best.rangeSize
  if allocationEnd < rangeEnd then emplace allocationEnd (rangeEnd - allocationEnd) leading
  else leading

/-- The ranges that `AllocateFromSlab` leaves, with the offset of the allocation. -/
def allocate (token : ℕ) : Option (Slab × ℕ) :=
  (slab.bestFit size alignment).map fun best =>
    ({ slab with
        freeRanges := slab.splitRange size best
        liveRanges := emplace best.alignedOffset ⟨size, token⟩ slab.liveRanges },
      best.alignedOffset)

/-- `InsertFreeRange`. -/
def insertFreeRange (offset size : ℕ) : List (ℕ × ℕ) :=
  let (ranges, offset, size) := coalescePrevious offset size slab.freeRanges
  coalesceNext offset size ranges

/-- The ranges that `Release` leaves. -/
def release (offset : ℕ) (live : LiveRange) : Slab :=
  { slab with
    freeRanges := slab.insertFreeRange offset live.size
    liveRanges := erase offset slab.liveRanges }

end Slab

/-! ### The arena -/

/-- `ArenaAllocation`; a cleared handle belongs to no arena. -/
structure ArenaAllocation where
  arena : Option ℕ := none
  data : ℕ := 0
  size : ℕ := 0
  offset : ℕ := 0
  slabIndex : ℕ := 0
  token : ℕ := 0
deriving DecidableEq, Repr

/-- `Arena`, with the address of the object as its identity. -/
structure Arena where
  self : ℕ
  memory : ArenaMemory := .mainNonCached
  preferredSlabSize : ℕ := 0
  slabs : List Slab := []
  allocatedBytes : ℕ := 0
  peakAllocatedBytes : ℕ := 0
  liveAllocations : ℕ := 0
  nextToken : ℕ := 1
  initialized : Bool := false
deriving DecidableEq, Repr

/-- The result of a call, the arena, and the handle that it was given. -/
structure ArenaOutcome where
  error : Option ArenaError
  arena : Arena
  allocation : ArenaAllocation
deriving DecidableEq, Repr

/-- `GpuMappedFetchGuardSize`. -/
def gpuMappedFetchGuardSize : ℕ := 4 * 1024

namespace Arena

/-- `Initialize`. -/
def fresh (self : ℕ) (memory : ArenaMemory) (preferredSlabSize : ℕ) : Arena where
  self := self
  memory := memory
  preferredSlabSize := preferredSlabSize
  initialized := true

variable (arena : Arena) (size alignment : ℕ)

/-- One free range in the scan of `Allocate`: the best slab and its waste. -/
def scanRange (slab : Slab) (index : ℕ) (best : Option (ℕ × ℕ)) (range : ℕ × ℕ) :
    Option (ℕ × ℕ) :=
  match slab.fit size alignment range with
  | none => best
  | some fit => if fit.waste < best.elim sizeMax Prod.snd then some (index, fit.waste) else best

/-- One slab in the scan. -/
def scanSlab (best : Option (ℕ × ℕ)) (entry : Slab × ℕ) : Option (ℕ × ℕ) :=
  if entry.1.block.isMapped then
    entry.1.freeRanges.foldl (scanRange size alignment entry.1 entry.2) best
  else best

/-- The best fit across the slabs. -/
def scan : Option ℕ :=
  (arena.slabs.zipIdx.foldl (scanSlab size alignment) none).map Prod.fst

/-- `AddSlab`, with the index of the slab. -/
def addSlab (minimumSize : ℕ) (response : BlockResponse) : Except ArenaError (Arena × ℕ) :=
  if 2 ^ 32 - 1 ≤ arena.slabs.length then .error .outOfMemory
  else
    let logicalRequest := max arena.preferredSlabSize minimumSize
    let fetchGuard := if arena.memory = .mainNonCached then gpuMappedFetchGuardSize else 0
    if sizeMax - fetchGuard < logicalRequest then .error .invalidValue
    else
      match allocateMappedBlock arena.memory (logicalRequest + fetchGuard) response with
      | .error error => .error error
      | .ok block =>
        if block.size < fetchGuard ∨ block.size - fetchGuard < minimumSize then
          .error .outOfMemory
        else
          let slab : Slab :=
            { block
              logicalSize := block.size - fetchGuard
              freeRanges := [(0, block.size - fetchGuard)] }
          .ok ({ arena with slabs := arena.slabs ++ [slab] }, arena.slabs.length)

/-- The token of the next allocation, zero left out, and the one after it. -/
def takeToken : ℕ × ℕ :=
  if arena.nextToken = 0 then (1, 2) else (arena.nextToken, (arena.nextToken + 1) % 2 ^ 64)

/-- `AllocateFromSlab`. -/
def allocateFromSlab (index : ℕ) : Option (Arena × ArenaAllocation) :=
  (arena.slabs[index]?).bind fun slab =>
    (slab.allocate size alignment arena.takeToken.1).map fun (slab', offset) =>
      let allocatedBytes := (arena.allocatedBytes + size) % 2 ^ 32
      ({ arena with
          slabs := arena.slabs.set index slab'
          allocatedBytes
          peakAllocatedBytes := max arena.peakAllocatedBytes allocatedBytes
          liveAllocations := (arena.liveAllocations + 1) % 2 ^ 32
          nextToken := arena.takeToken.2 },
        { arena := some arena.self
          data := (slab.block.base + offset) % 2 ^ 32
          size, offset
          slabIndex := index
          token := arena.takeToken.1 })

/-- The slab of an allocation: the best fit, or else a new one. -/
def findSlab (response : BlockResponse) : Except ArenaError (Arena × ℕ) :=
  match arena.scan size alignment with
  | some index => .ok (arena, index)
  | none =>
    if sizeMax - (alignment - 1) < size then .error .invalidValue
    else arena.addSlab (size + (alignment - 1)) response

/-- `Allocate`. -/
def allocate (allocation : ArenaAllocation) (response : BlockResponse) : ArenaOutcome :=
  if !arena.initialized then ⟨some .uninitialized, arena, allocation⟩
  else if allocation.arena.isSome || size = 0 || !isPowerOfTwo alignment then
    ⟨some .invalidValue, arena, allocation⟩
  else
    match arena.findSlab size alignment response with
    | .error error => ⟨some error, arena, allocation⟩
    | .ok (arena', index) =>
      match arena'.allocateFromSlab size alignment index with
      | none => ⟨some .outOfMemory, arena', allocation⟩
      | some (arena'', allocation') => ⟨none, arena'', allocation'⟩

/-- The live range that a handle names. -/
def liveRange (allocation : ArenaAllocation) : Option (Slab × LiveRange) :=
  if allocation.arena ≠ some arena.self then none
  else
    (arena.slabs[allocation.slabIndex]?).bind fun slab =>
      (find allocation.offset slab.liveRanges).bind fun entry =>
        if entry.2.token ≠ allocation.token ∨ entry.2.size ≠ allocation.size then none
        else some (slab, entry.2)

/-- `Release`. -/
def release (allocation : ArenaAllocation) : ArenaOutcome :=
  match arena.liveRange allocation with
  | none => ⟨some .invalidValue, arena, allocation⟩
  | some (slab, live) =>
    ⟨none,
      { arena with
        slabs := arena.slabs.set allocation.slabIndex (slab.release allocation.offset live)
        allocatedBytes := (arena.allocatedBytes + (2 ^ 32 - live.size)) % 2 ^ 32
        liveAllocations := (arena.liveAllocations + (2 ^ 32 - 1)) % 2 ^ 32 },
      {}⟩

end Arena

end VitaSX2.GxmArena
