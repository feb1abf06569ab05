/-
The input ring under concurrent captures, retains, releases, publications and
resolutions (`VitaGpuVuVifInput.cpp`).

Every load, store and compare-exchange of a shared variable is one step of one
thread.  The bit that a step is given decides what the code cannot: whether a
weak compare-exchange fails spuriously, whether a fetch guard is intact and
whether a semaphore wait returns an error.  The references at rest are in a pool
from which a call takes the ones it is given and to which it returns them.
-/
import Mathlib.Algebra.Group.Nat.Defs
import VitaSX2.Lib.FixedSize
import VitaSX2.Vif.Payload

namespace VitaSX2.InputRing

open Vif

/-- A reference and the bytes that were captured for it. -/
structure Owned where
  payload : RawVifPayloadRef
  bytes : ℕ → Byte

structure Slot where
  generation : ℕ
  references : ℕ
  committedOffset : ℕ
  publishedOffset : ℕ
  fetchGuardGeneration : ℕ
  writeOffset : ℕ
  bytes : ℕ → Byte

structure Shared where
  address : ℕ
  slots : ℕ → Slot
  waitingSlot : Option ℕ
  accepting : Bool
  active : Bool
  semaphore : ℕ
  captureLocked : Bool
  currentSlot : ℕ
  activeSlotCount : ℕ
  pool : List Owned
  begun : List (ℕ × ℕ)

/-- The largest value of a reference count or a generation. -/
def maximumU32 : ℕ := 2 ^ 32 - 1

def Shared.setSlot (shared : Shared) (slot : ℕ) (value : Slot) : Shared :=
  { shared with slots := Function.update shared.slots slot value }

def Shared.setOwnership (shared : Shared) (slot generation references : ℕ) : Shared :=
  shared.setSlot slot
    { shared.slots slot with generation := generation, references := references }

def Shared.setCommitted (shared : Shared) (slot value : ℕ) : Shared :=
  shared.setSlot slot { shared.slots slot with committedOffset := value }

def Shared.setPublished (shared : Shared) (slot value : ℕ) : Shared :=
  shared.setSlot slot { shared.slots slot with publishedOffset := value }

def Shared.setFetchGuard (shared : Shared) (slot value : ℕ) : Shared :=
  shared.setSlot slot { shared.slots slot with fetchGuardGeneration := value }

def Shared.setWriteOffset (shared : Shared) (slot value : ℕ) : Shared :=
  shared.setSlot slot { shared.slots slot with writeOffset := value }

/-- `memcpy` into the mapped bytes of a slot. -/
def Shared.copyBytes (shared : Shared) (slot offset size : ℕ) (source : ℕ → Byte) : Shared :=
  shared.setSlot slot
    { shared.slots slot with
      bytes := fun index =>
        if offset ≤ index ∧ index < offset + size then source (index - offset)
        else (shared.slots slot).bytes index }

/-- Start a new generation of a slot with some references. -/
def Shared.begin (shared : Shared) (slot generation references : ℕ) : Shared :=
  { shared.setOwnership slot generation references with
    begun := (slot, generation) :: shared.begun }

/-- The references of a call that ends go back to the pool. -/
def Shared.return (shared : Shared) (back : List Owned) : Shared :=
  { shared with pool := back ++ shared.pool }

/-! ### Threads -/

structure CaptureRequest where
  source : ℕ → Byte
  size : ℕ
  beginsEpoch : Bool

/-- Where a thread is in `CaptureRawVifPayload` and `CapturePayload`. -/
inductive CapturePc
  | entryActive
  | entryAccepting
  | lock
  | check
  | loop
  | appendLoad (offset : ℕ)
  | appendCas (offset generation references : ℕ)
  | refuse
  | resetCommitted (slot offset generation : ℕ)
  | resetPublished (slot offset generation : ℕ)
  | resetFetchGuard (slot offset generation : ℕ)
  | copy (slot offset generation : ℕ)
  | commit (slot offset generation : ℕ)
  | finish (payload : RawVifPayloadRef)
  | candidateLoad (next : ℕ)
  | scan (next generation : ℕ)
  | recycleCas (next generation : ℕ)
  | recycleCommitted (next : ℕ)
  | recyclePublished (next : ℕ)
  | recycleFetchGuard (next : ℕ)
  | blockedLoad (next : ℕ)
  | publishToken (next : ℕ)
  | recheckAccepting (next : ℕ)
  | recheckReferences (next : ℕ)
  | withdraw (next : ℕ)
  | wait (next : ℕ)
  | afterWait (next : ℕ) (failed : Bool)
  | fail

inductive RetainPc
  | committedLoad
  | ownershipLoad
  | cas (generation references : ℕ)
  | confirmCommitted
  | confirmActive
  | confirmAccepting
  | rollbackLoad
  | rollbackCas (generation references : ℕ)

inductive ReleasePc
  | ownershipLoad
  | cas (generation references : ℕ)

inductive PublishPc
  | entry
  | live (pending : List RawVifPayloadRef)
  | fetchGuardLoad (payload : RawVifPayloadRef) (rest : List RawVifPayloadRef)
  | scan (payload : RawVifPayloadRef) (rest : List RawVifPayloadRef)
  | refuse
  | liveAfterScan (payload : RawVifPayloadRef) (rest : List RawVifPayloadRef)
  | fetchGuardStore (payload : RawVifPayloadRef) (rest : List RawVifPayloadRef)
  | committedLoad (payload : RawVifPayloadRef) (rest : List RawVifPayloadRef)
  | publishedLoad (payload : RawVifPayloadRef) (rest : List RawVifPayloadRef) (committed : ℕ)
  | liveBeforeStore (payload : RawVifPayloadRef) (rest : List RawVifPayloadRef) (committed : ℕ)
  | publishedStore (payload : RawVifPayloadRef) (rest : List RawVifPayloadRef) (committed : ℕ)

inductive ResolvePc
  | activeLoad
  | ownershipLoad
  | committedLoad (generation references : ℕ)
  | publishedLoad (generation references committed : ℕ)
  | confirm
  | done (result : Option PayloadPointer)

inductive ShutdownPc
  | clearActive
  | clearAccepting
  | exchange

/-- A thread, with the references it was given.  `claim` and `signal` are the
handoff to the waiter after the last reference of a slot is dropped. -/
inductive Thread
  | idle
  | capture (request : CaptureRequest) (pc : CapturePc)
  | retain (owned : Owned) (pc : RetainPc)
  | release (owned : Owned) (pc : ReleasePc)
  | publish (borrowed : List Owned) (pc : PublishPc)
  | resolve (owned : Owned) (requirePublished : Bool) (pc : ResolvePc)
  | shutdown (pc : ShutdownPc)
  | claim (slot : ℕ) (back : List Owned)
  | signal (back : List Owned)

/-! ### Capturing -/

def payloadAlignment : ℕ := 16

def directInputEpochReservationBytes : ℕ := 1024 * 16

def alignUp (value alignment : ℕ) : Option ℕ :=
  if maximumU32 - (alignment - 1) < value then none
  else some ((value + alignment - 1) / alignment * alignment)

def CaptureRequest.requiredCapacity (request : CaptureRequest) : ℕ :=
  if request.beginsEpoch then max request.size directInputEpochReservationBytes else request.size

/-- The offset at which the payload fits into the current slot. -/
def appendOffset (shared : Shared) (request : CaptureRequest) : Option ℕ :=
  (alignUp (shared.slots shared.currentSlot).writeOffset payloadAlignment).filter fun offset =>
    isInputRingLogicalRange offset request.requiredCapacity

def Shared.nextSlot (shared : Shared) : ℕ :=
  (shared.currentSlot + 1) % shared.activeSlotCount

variable (shared : Shared)

def stepCapture (request : CaptureRequest) (bit : Bool) : CapturePc → Option (Shared × Thread)
  | .entryActive =>
    if request.size = 0 ∨ !shared.active then some (shared, .idle)
    else some (shared, .capture request .entryAccepting)
  | .entryAccepting =>
    if !shared.accepting then some (shared, .idle) else some (shared, .capture request .lock)
  | .lock =>
    if shared.captureLocked then none
    else some ({ shared with captureLocked := true }, .capture request .check)
  | .check =>
    if inputRingSlotSize < request.size ∨ shared.activeSlotCount < 2 ∨ !shared.accepting then
      some (shared, .capture request .fail)
    else some (shared, .capture request .loop)
  | .loop =>
    if !shared.accepting then some (shared, .capture request .fail)
    else
      match appendOffset shared request with
      | some offset => some (shared, .capture request (.appendLoad offset))
      | none => some (shared, .capture request (.candidateLoad shared.nextSlot))
  | .appendLoad offset =>
    let current := shared.slots shared.currentSlot
    some (shared, .capture request (.appendCas offset current.generation current.references))
  | .appendCas offset generation references =>
    let slot := shared.currentSlot
    let current := shared.slots slot
    if references = maximumU32 then some (shared, .capture request .fail)
    else if references = 0 ∧ generation = maximumU32 then some (shared, .capture request .refuse)
    else if bit || current.generation != generation || current.references != references then
      some (shared, .capture request (.appendCas offset current.generation current.references))
    else if references = 0 then
      some (shared.begin slot (generation + 1) 1,
        .capture request (.resetCommitted slot offset (generation + 1)))
    else
      some (shared.setOwnership slot generation (references + 1),
        .capture request (.copy slot offset generation))
  | .refuse => some ({ shared with accepting := false }, .capture request .fail)
  | .resetCommitted slot offset generation =>
    some (shared.setCommitted slot 0, .capture request (.resetPublished slot offset generation))
  | .resetPublished slot offset generation =>
    some (shared.setPublished slot 0, .capture request (.resetFetchGuard slot offset generation))
  | .resetFetchGuard slot offset generation =>
    some (shared.setFetchGuard slot 0, .capture request (.copy slot offset generation))
  | .copy slot offset generation =>
    some ((shared.setWriteOffset slot (offset + request.size)).copyBytes slot offset request.size
      request.source, .capture request (.commit slot offset generation))
  | .commit slot offset generation =>
    some (shared.setCommitted slot (offset + request.size),
      .capture request (.finish ⟨shared.address, slot, generation, offset, request.size⟩))
  | .finish payload =>
    some ({ shared.return [⟨payload, request.source⟩] with captureLocked := false }, .idle)
  | .candidateLoad next =>
    let candidate := shared.slots next
    if candidate.references = 0 then
      some (shared, .capture request (.scan next candidate.generation))
    else some (shared, .capture request (.blockedLoad next))
  | .scan next generation =>
    if !bit || generation == maximumU32 then some (shared, .capture request .refuse)
    else some (shared, .capture request (.recycleCas next generation))
  | .recycleCas next generation =>
    let candidate := shared.slots next
    if candidate.generation ≠ generation ∨ candidate.references ≠ 0 then
      some (shared, .capture request .loop)
    else
      some ((shared.begin next (generation + 1) 0).setWriteOffset next 0,
        .capture request (.recycleCommitted next))
  | .recycleCommitted next =>
    some (shared.setCommitted next 0, .capture request (.recyclePublished next))
  | .recyclePublished next =>
    some (shared.setPublished next 0, .capture request (.recycleFetchGuard next))
  | .recycleFetchGuard next =>
    some ({ shared.setFetchGuard next 0 with currentSlot := next }, .capture request .loop)
  | .blockedLoad next => some (shared, .capture request (.publishToken next))
  | .publishToken next =>
    if shared.waitingSlot ≠ none then some (shared, .capture request .fail)
    else some ({ shared with waitingSlot := some next }, .capture request (.recheckAccepting next))
  | .recheckAccepting next =>
    if !shared.accepting then some (shared, .capture request (.withdraw next))
    else some (shared, .capture request (.recheckReferences next))
  | .recheckReferences next =>
    if (shared.slots next).references = 0 then some (shared, .capture request (.withdraw next))
    else some (shared, .capture request (.wait next))
  | .withdraw next =>
    if shared.waitingSlot = some next then
      some ({ shared with waitingSlot := none }, .capture request .loop)
    else some (shared, .capture request (.wait next))
  | .wait next =>
    if bit then some (shared, .capture request (.afterWait next true))
    else if shared.semaphore = 0 then none
    else
      some ({ shared with semaphore := shared.semaphore - 1 },
        .capture request (.afterWait next false))
  | .afterWait next failed =>
    let cleared :=
      if shared.waitingSlot = some next then { shared with waitingSlot := none } else shared
    some (cleared, .capture request (if failed then .fail else .loop))
  | .fail => some ({ shared with captureLocked := false }, .idle)

/-! ### The other calls -/

/-- The block of a slot is mapped. -/
def Shared.isMapped (slot : ℕ) : Bool := slot < shared.activeSlotCount

/-- The checks of a reference that read no shared variable. -/
def Shared.wellFormed (payload : RawVifPayloadRef) : Bool :=
  payload.isValid && payload.owner == shared.address && payload.slot < inputRingSlotCount &&
    isInputRingLogicalRange payload.offset payload.size

def stepRetain (owned : Owned) (bit : Bool) : RetainPc → Option (Shared × Thread)
  | .committedLoad =>
    if !shared.wellFormed owned.payload || !shared.isMapped owned.payload.slot ||
        (shared.slots owned.payload.slot).committedOffset <
          owned.payload.offset + owned.payload.size then
      some (shared.return [owned], .idle)
    else some (shared, .retain owned .ownershipLoad)
  | .ownershipLoad =>
    let slot := shared.slots owned.payload.slot
    if slot.generation ≠ owned.payload.generation then some (shared.return [owned], .idle)
    else some (shared, .retain owned (.cas slot.generation slot.references))
  | .cas generation references =>
    let slot := shared.slots owned.payload.slot
    if generation ≠ owned.payload.generation ∨ references = 0 ∨ references = maximumU32 then
      some (shared.return [owned], .idle)
    else if bit || slot.generation != generation || slot.references != references then
      some (shared, .retain owned (.cas slot.generation slot.references))
    else
      some (shared.setOwnership owned.payload.slot generation (references + 1),
        .retain owned .confirmCommitted)
  | .confirmCommitted =>
    if !shared.isMapped owned.payload.slot ||
        (shared.slots owned.payload.slot).committedOffset <
          owned.payload.offset + owned.payload.size then
      some (shared, .retain owned .rollbackLoad)
    else some (shared, .retain owned .confirmActive)
  | .confirmActive =>
    if !shared.active then some (shared, .retain owned .rollbackLoad)
    else some (shared, .retain owned .confirmAccepting)
  | .confirmAccepting =>
    if !shared.accepting then some (shared, .retain owned .rollbackLoad)
    else some (shared.return [owned, owned], .idle)
  | .rollbackLoad =>
    let slot := shared.slots owned.payload.slot
    some (shared, .retain owned (.rollbackCas slot.generation slot.references))
  | .rollbackCas generation references =>
    let slot := shared.slots owned.payload.slot
    if generation ≠ owned.payload.generation ∨ references = 0 then
      some (shared.return [owned], .idle)
    else if bit || slot.generation != generation || slot.references != references then
      some (shared, .retain owned (.rollbackCas slot.generation slot.references))
    else
      let dropped := shared.setOwnership owned.payload.slot generation (references - 1)
      if references = 1 then some (dropped, .claim owned.payload.slot [owned])
      else some (dropped.return [owned], .idle)

def stepRelease (owned : Owned) (bit : Bool) : ReleasePc → Option (Shared × Thread)
  | .ownershipLoad =>
    let slot := shared.slots owned.payload.slot
    if !owned.payload.isValid || owned.payload.owner != shared.address ||
        inputRingSlotCount ≤ owned.payload.slot then some (shared, .idle)
    else some (shared, .release owned (.cas slot.generation slot.references))
  | .cas generation references =>
    let slot := shared.slots owned.payload.slot
    if generation ≠ owned.payload.generation ∨ references = 0 then some (shared, .idle)
    else if bit || slot.generation != generation || slot.references != references then
      some (shared, .release owned (.cas slot.generation slot.references))
    else
      let dropped := shared.setOwnership owned.payload.slot generation (references - 1)
      if references = 1 then some (dropped, .claim owned.payload.slot [])
      else some (dropped, .idle)

/-- `waiting_slot` is claimed for a slot whose last reference was dropped. -/
def stepClaim (slot : ℕ) (back : List Owned) : Shared × Thread :=
  if shared.waitingSlot = some slot then ({ shared with waitingSlot := none }, .signal back)
  else (shared.return back, .idle)

/-- `sceKernelSignalSema`, which refuses to count beyond one. -/
def stepSignal (back : List Owned) : Shared × Thread :=
  ({ shared.return back with
    semaphore := if shared.semaphore < 1 then shared.semaphore + 1 else shared.semaphore }, .idle)

/-- The first reference of every slot generation, if all are valid and at most four differ. -/
def distinctGenerations :
    List RawVifPayloadRef → List RawVifPayloadRef → Option (List RawVifPayloadRef)
  | [], seen => some seen
  | payload :: rest, seen =>
    if !shared.wellFormed payload then none
    else if seen.any fun other =>
        other.slot == payload.slot && other.generation == payload.generation then
      distinctGenerations rest seen
    else if inputRingSlotCount ≤ seen.length then none
    else distinctGenerations rest (seen ++ [payload])

/-- `generation_is_live`. -/
def Shared.isLive (payload : RawVifPayloadRef) : Bool :=
  (shared.slots payload.slot).generation == payload.generation &&
    (shared.slots payload.slot).references != 0

def stepPublish (borrowed : List Owned) (bit : Bool) : PublishPc → Option (Shared × Thread)
  | .entry =>
    if !shared.accepting then some (shared.return borrowed, .idle)
    else
      match distinctGenerations shared (borrowed.map Owned.payload) [] with
      | none => some (shared.return borrowed, .idle)
      | some pending => some (shared, .publish borrowed (.live pending))
  | .live [] => some (shared.return borrowed, .idle)
  | .live (payload :: rest) =>
    if !shared.isLive payload then some (shared.return borrowed, .idle)
    else some (shared, .publish borrowed (.fetchGuardLoad payload rest))
  | .fetchGuardLoad payload rest =>
    if (shared.slots payload.slot).fetchGuardGeneration ≠ payload.generation then
      some (shared, .publish borrowed (.scan payload rest))
    else some (shared, .publish borrowed (.committedLoad payload rest))
  | .scan payload rest =>
    if !bit then some (shared, .publish borrowed .refuse)
    else some (shared, .publish borrowed (.liveAfterScan payload rest))
  | .refuse => some ({ shared.return borrowed with accepting := false }, .idle)
  | .liveAfterScan payload rest =>
    if !shared.isLive payload then some (shared.return borrowed, .idle)
    else some (shared, .publish borrowed (.fetchGuardStore payload rest))
  | .fetchGuardStore payload rest =>
    some (shared.setFetchGuard payload.slot payload.generation,
      .publish borrowed (.committedLoad payload rest))
  | .committedLoad payload rest =>
    some (shared, .publish borrowed
      (.publishedLoad payload rest (shared.slots payload.slot).committedOffset))
  | .publishedLoad payload rest committed =>
    if committed ≤ (shared.slots payload.slot).publishedOffset then
      some (shared, .publish borrowed (.live rest))
    else if !shared.isMapped payload.slot || inputRingSlotSize < committed then
      some (shared.return borrowed, .idle)
    else some (shared, .publish borrowed (.liveBeforeStore payload rest committed))
  | .liveBeforeStore payload rest committed =>
    if !shared.isLive payload then some (shared.return borrowed, .idle)
    else some (shared, .publish borrowed (.publishedStore payload rest committed))
  | .publishedStore payload rest committed =>
    some (shared.setPublished payload.slot committed, .publish borrowed (.live rest))

def stepResolve (owned : Owned) (requirePublished : Bool) : ResolvePc → Option (Shared × Thread)
  | .activeLoad =>
    if !owned.payload.isValid || owned.payload.owner != shared.address || !shared.active ||
        inputRingSlotCount ≤ owned.payload.slot then
      some (shared, .resolve owned requirePublished (.done none))
    else some (shared, .resolve owned requirePublished .ownershipLoad)
  | .ownershipLoad =>
    let slot := shared.slots owned.payload.slot
    some (shared, .resolve owned requirePublished (.committedLoad slot.generation slot.references))
  | .committedLoad generation references =>
    some (shared, .resolve owned requirePublished (.publishedLoad generation references
      (shared.slots owned.payload.slot).committedOffset))
  | .publishedLoad generation references committed =>
    let required := owned.payload.offset + owned.payload.size
    if !shared.isMapped owned.payload.slot || generation != owned.payload.generation ||
        !isInputRingLogicalRange owned.payload.offset owned.payload.size ||
        committed < required ||
        (requirePublished && (shared.slots owned.payload.slot).publishedOffset < required) ||
        references == 0 then
      some (shared, .resolve owned requirePublished (.done none))
    else some (shared, .resolve owned requirePublished .confirm)
  | .confirm =>
    if !shared.isLive owned.payload then
      some (shared, .resolve owned requirePublished (.done none))
    else
      some (shared, .resolve owned requirePublished
        (.done (some ⟨owned.payload.slot, owned.payload.offset⟩)))
  | .done _ => some (shared.return [owned], .idle)

/-- `Shutdown` up to the wakeup of a waiter; then it only reads until nothing is owned. -/
def stepShutdown : ShutdownPc → Option (Shared × Thread)
  | .clearActive => some ({ shared with active := false }, .shutdown .clearAccepting)
  | .clearAccepting => some ({ shared with accepting := false }, .shutdown .exchange)
  | .exchange =>
    match shared.waitingSlot with
    | none => some (shared, .idle)
    | some _ => some ({ shared with waitingSlot := none }, .signal [])

def Thread.step (bit : Bool) : Thread → Option (Shared × Thread)
  | .idle => none
  | .capture request pc => stepCapture shared request bit pc
  | .retain owned pc => stepRetain shared owned bit pc
  | .release owned pc => stepRelease shared owned bit pc
  | .publish borrowed pc => stepPublish shared borrowed bit pc
  | .resolve owned requirePublished pc => stepResolve shared owned requirePublished pc
  | .shutdown pc => stepShutdown shared pc
  | .claim slot back => some (stepClaim shared slot back)
  | .signal back => some (stepSignal shared back)

/-! ### The system -/

structure State (n : ℕ) where
  shared : Shared
  threads : Fin n → Thread

/-- The calls an idle thread may make; positions name references in the pool. -/
inductive Call
  | capture (request : CaptureRequest)
  | retain (position : ℕ)
  | release (position : ℕ)
  | publish (positions : List ℕ)
  | resolve (position : ℕ) (requirePublished : Bool)
  | shutdown

/-- Take references out of the pool one after the other. -/
def takeOwned : List ℕ → List Owned → Option (List Owned × List Owned)
  | [], pool => some ([], pool)
  | position :: rest, pool =>
    match pool[position]? with
    | none => none
    | some owned => (takeOwned rest (pool.eraseIdx position)).map fun taken =>
      (owned :: taken.1, taken.2)

def beginCall (call : Call) : Option (Shared × Thread) :=
  match call with
  | .capture request => some (shared, .capture request .entryActive)
  | .retain position =>
    match takeOwned [position] shared.pool with
    | some ([owned], pool) => some ({ shared with pool := pool }, .retain owned .committedLoad)
    | _ => none
  | .release position =>
    match takeOwned [position] shared.pool with
    | some ([owned], pool) => some ({ shared with pool := pool }, .release owned .ownershipLoad)
    | _ => none
  | .publish positions =>
    match takeOwned positions shared.pool with
    | some (borrowed, pool) => some ({ shared with pool := pool }, .publish borrowed .entry)
    | none => none
  | .resolve position requirePublished =>
    match takeOwned [position] shared.pool with
    | some ([owned], pool) =>
      some ({ shared with pool := pool }, .resolve owned requirePublished .activeLoad)
    | _ => none
  | .shutdown => some (shared, .shutdown .clearActive)

inductive Event (n : ℕ)
  | call (thread : Fin n) (call : Call)
  | step (thread : Fin n) (bit : Bool)

def State.next {n : ℕ} (state : State n) (thread : Fin n) (result : Shared × Thread) : State n :=
  ⟨result.1, Function.update state.threads thread result.2⟩

def State.perform {n : ℕ} (state : State n) : Event n → Option (State n)
  | .call thread call =>
    match state.threads thread with
    | .idle => (beginCall state.shared call).map (state.next thread)
    | _ => none
  | .step thread bit =>
    ((state.threads thread).step state.shared bit).map (state.next thread)

/-- An initialized ring without payloads. -/
structure Initial {n : ℕ} (state : State n) : Prop where
  idle : ∀ thread, state.threads thread = .idle
  address : state.shared.address ≠ 0
  references : ∀ slot, (state.shared.slots slot).references = 0
  waitingSlot : state.shared.waitingSlot = none
  semaphore : state.shared.semaphore = 0
  captureLocked : state.shared.captureLocked = false
  activeSlotCount : 2 ≤ state.shared.activeSlotCount ∧
    state.shared.activeSlotCount ≤ inputRingSlotCount
  currentSlot : state.shared.currentSlot = 0
  pool : state.shared.pool = []
  begun : state.shared.begun = []

inductive Reachable {n : ℕ} : State n → Prop
  | start {state : State n} : Initial state → Reachable state
  | next {state state' : State n} (event : Event n) :
    Reachable state → state.perform event = some state' → Reachable state'

end VitaSX2.InputRing
