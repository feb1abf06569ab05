/-
The cache of encoded programs (`PrepareUniversalMicroProgramForConfiguration`,
`UniversalMicroProgramHandle`, `ClearUniversalMicroProgramCache`) as steps of threads.

One step acquires or releases the mutex or makes one operation on the reference count of a
pool entry, with the plain reads and writes next to it.  Encoding happens outside of the
mutex, and the entry that is written may look like anything while it does.
-/
import VitaSX2.Lib.Interleaving
import VitaSX2.MicroCache.Program

namespace VitaSX2.MicroCache

/-- An index into the pool (`MaximumPooledPrograms`). -/
abbrev Entry := Fin 16

/-- `CacheSlot`. -/
structure CacheSlot where
  entry : Option Entry := none
  lastUse : ℕ := 0

/-- A place for a `UniversalMicroProgramHandle`.  A handle that is present has its entry,
with the request it was returned for; one that a thread is writing is left alone by the
others. -/
inductive Handle (ι : Type) where
  | absent
  | present (content : Option (Entry × Request))
  | reserved (thread : ι) (content : Option (Entry × Request))

/-- What the threads share: the pool, `s_cache`, the holder of `s_cache_mutex` and the
handles. -/
structure Cache (ι κ : Type) where
  references : Entry → ℤ
  identity : Entry → ℕ
  program : Entry → UniversalMicroProgram
  nextIdentity : ℕ
  slots : Fin 8 → CacheSlot
  clock : ℕ
  holder : Option ι
  handles : κ → Handle ι

/-- A call of `PrepareUniversalMicroProgramForConfiguration` and the place for its result. -/
structure Call (κ : Type) where
  request : Request
  result : κ

/-- Where a thread is. -/
inductive Thread (κ : Type) where
  | idle
  /-- Before the first lock, under it, and after the search. -/
  | lookup (call : Call κ)
  | searching (call : Call κ)
  | searched (call : Call κ) (hit : Option Entry)
  /-- `AcquireProgramStorage` at an index of the pool. -/
  | acquiring (call : Call κ) (index : ℕ)
  | encoding (call : Call κ) (candidate : Entry)
  | discarding (call : Call κ) (candidate : Entry) (error : String)
  /-- Before the second lock, under it, and after the search. -/
  | installing (call : Call κ) (candidate : Entry)
  | rechecking (call : Call κ) (candidate : Entry)
  | superseding (call : Call κ) (candidate hit : Entry)
  | installed (call : Call κ) (result : Entry) (displaced : Option Entry)
  | retiring (call : Call κ) (result : Entry) (displaced : Option Entry)
  | finishing (call : Call κ) (result : Except String Entry)
  /-- `ClearUniversalMicroProgramCache`. -/
  | clearing
  | emptying
  | emptied (retired : List Entry)
  | releasing (retired : List Entry)
  /-- A move assignment, after the old entry has been released. -/
  | assigning (destination source : κ)

/-! ### Operations -/

section Operations

variable {ι κ : Type} [DecidableEq κ] (s : Cache ι κ)

/-- `Retain`. -/
def Cache.retain (entry : Entry) : Cache ι κ :=
  { s with references := Function.update s.references entry (s.references entry + 1) }

/-- `Release`. -/
def Cache.release (entry : Entry) : Cache ι κ :=
  { s with references := Function.update s.references entry (s.references entry - 1) }

/-- `Release` of what a handle points to. -/
def Cache.releaseContent : Option (Entry × Request) → Cache ι κ
  | some (entry, _) => s.release entry
  | none => s

/-- A place for a handle changes. -/
def Cache.setHandle (place : κ) (handle : Handle ι) : Cache ι κ :=
  { s with handles := Function.update s.handles place handle }

/-- The slot that `FindLocked` stops at. -/
def Cache.findLocked (request : Request) : Option (Fin 8) :=
  (List.finRange 8).find? fun slot =>
    (s.slots slot).entry.any fun entry => matchesRequest (s.program entry) request

/-- `slot.last_use = ++s_cache_clock`. -/
def Cache.touch (slot : Fin 8) : Cache ι κ :=
  { s with
    slots := Function.update s.slots slot { s.slots slot with lastUse := s.clock + 1 }
    clock := s.clock + 1 }

/-- The search for the slot that a new program takes: the first empty one, or else the
least recently used one. -/
def evictionFrom (slots : Fin 8 → CacheSlot) : List (Fin 8) → Option (Fin 8) → Option (Fin 8)
  | [], target => target
  | slot :: rest, target =>
    if (slots slot).entry = none then some slot
    else
      evictionFrom slots rest <|
        if target.all fun target => (slots slot).lastUse < (slots target).lastUse then some slot
        else target

/-- The slot that a new program takes. -/
def Cache.evictionTarget : Fin 8 := (evictionFrom s.slots (List.finRange 8) none).getD 0

/-- A new program takes its slot. -/
def Cache.install (candidate : Entry) : Cache ι κ :=
  { s with
    slots := Function.update s.slots s.evictionTarget ⟨some candidate, s.clock + 1⟩
    clock := s.clock + 1 }

/-- What the slots point to. -/
def Cache.resident : List Entry := (List.finRange 8).filterMap fun slot => (s.slots slot).entry

end Operations

/-- The request is rejected before anything else. -/
def validRequest (request : Request) : Bool :=
  validStart request.startPc && knownConfiguration request.configurationBits

/-- The handle of a result. -/
def resultHandle {ι : Type} (request : Request) : Except String Entry → Handle ι
  | .ok entry => .present (some (entry, request))
  | .error _ => .present none

section Steps

variable {ι κ : Type} [DecidableEq κ]
  (tables : BitVec 32 → BitVec 32 → BitVec 32 → Bool → Bool → Option GpuPairPlan) (i : ι)

/-- The steps of a thread. -/
inductive Move : Cache ι κ → Thread κ → Cache ι κ → Thread κ → Prop
  | prepare {s : Cache ι κ} {call : Call κ} : s.handles call.result = .absent →
    validRequest call.request = true →
    Move s .idle (s.setHandle call.result (.reserved i none)) (.lookup call)
  | reject {s : Cache ι κ} {call : Call κ} : s.handles call.result = .absent →
    validRequest call.request = false →
    Move s .idle (s.setHandle call.result (.reserved i none))
      (.finishing call (.error "invalid universal GPU-VU cache request"))
  | lockLookup {s : Cache ι κ} {call : Call κ} : s.holder = none →
    Move s (.lookup call) { s with holder := some i } (.searching call)
  | hit {s : Cache ι κ} {call : Call κ} {slot : Fin 8} {entry : Entry} :
    s.findLocked call.request = some slot → (s.slots slot).entry = some entry →
    Move s (.searching call) ((s.touch slot).retain entry) (.searched call (some entry))
  | miss {s : Cache ι κ} {call : Call κ} : s.findLocked call.request = none →
    Move s (.searching call) s (.searched call none)
  | unlockHit {s : Cache ι κ} {call : Call κ} {entry : Entry} :
    Move s (.searched call (some entry)) { s with holder := none } (.finishing call (.ok entry))
  | unlockMiss {s : Cache ι κ} {call : Call κ} :
    Move s (.searched call none) { s with holder := none } (.acquiring call 0)
  /-- `GetProgramPool` has no pool, or all of it is in use. -/
  | noPool {s : Cache ι κ} {call : Call κ} {index : ℕ} : index = 0 ∨ index = 16 →
    Move s (.acquiring call index) s
      (.finishing call (.error "universal GPU-VU PairPlan pool is full"))
  | acquire {s : Cache ι κ} {call : Call κ} {entry : Entry} : s.references entry = 0 →
    Move s (.acquiring call entry.val) { s with references := Function.update s.references entry 1 }
      (.encoding call entry)
  | skip {s : Cache ι κ} {call : Call κ} {entry : Entry} : s.references entry ≠ 0 →
    Move s (.acquiring call entry.val) s (.acquiring call (entry.val + 1))
  /-- Some writes of the encoding. -/
  | write {s : Cache ι κ} {call : Call κ} {candidate : Entry} (program : UniversalMicroProgram) :
    Move s (.encoding call candidate)
      { s with program := Function.update s.program candidate program } (.encoding call candidate)
  | encoded {s : Cache ι κ} {call : Call κ} {candidate : Entry} {program : UniversalMicroProgram} :
    encodeUniversalMicroProgram tables call.request = .ok program →
    Move s (.encoding call candidate)
      { s with
        program := Function.update s.program candidate program
        identity := Function.update s.identity candidate s.nextIdentity
        nextIdentity := s.nextIdentity + 1 }
      (.installing call candidate)
  | refused {s : Cache ι κ} {call : Call κ} {candidate : Entry} {error : String} :
    encodeUniversalMicroProgram tables call.request = .error error →
    Move s (.encoding call candidate)
      { s with
        identity := Function.update s.identity candidate s.nextIdentity
        nextIdentity := s.nextIdentity + 1 }
      (.discarding call candidate error)
  | discard {s : Cache ι κ} {call : Call κ} {candidate : Entry} {error : String} :
    Move s (.discarding call candidate error) (s.release candidate) (.finishing call (.error error))
  | lockInstall {s : Cache ι κ} {call : Call κ} {candidate : Entry} : s.holder = none →
    Move s (.installing call candidate) { s with holder := some i } (.rechecking call candidate)
  | hitAgain {s : Cache ι κ} {call : Call κ} {candidate entry : Entry} {slot : Fin 8} :
    s.findLocked call.request = some slot → (s.slots slot).entry = some entry →
    Move s (.rechecking call candidate) ((s.touch slot).retain entry)
      (.superseding call candidate entry)
  | supersede {s : Cache ι κ} {call : Call κ} {candidate entry : Entry} :
    Move s (.superseding call candidate entry) (s.release candidate) (.installed call entry none)
  | install {s : Cache ι κ} {call : Call κ} {candidate : Entry} :
    s.findLocked call.request = none →
    Move s (.rechecking call candidate) ((s.install candidate).retain candidate)
      (.installed call candidate (s.slots s.evictionTarget).entry)
  | unlockInstalled {s : Cache ι κ} {call : Call κ} {result : Entry} {displaced : Option Entry} :
    Move s (.installed call result displaced) { s with holder := none }
      (.retiring call result displaced)
  | retire {s : Cache ι κ} {call : Call κ} {result displaced : Entry} :
    Move s (.retiring call result (some displaced)) (s.release displaced)
      (.finishing call (.ok result))
  | retireNone {s : Cache ι κ} {call : Call κ} {result : Entry} :
    Move s (.retiring call result none) s (.finishing call (.ok result))
  | finish {s : Cache ι κ} {call : Call κ} {result : Except String Entry} :
    Move s (.finishing call result) (s.setHandle call.result (resultHandle call.request result))
      .idle
  | clear {s : Cache ι κ} : Move s .idle s .clearing
  | lockClear {s : Cache ι κ} : s.holder = none →
    Move s .clearing { s with holder := some i } .emptying
  | empty {s : Cache ι κ} :
    Move s .emptying { s with slots := fun _ => {}, clock := 0 } (.emptied s.resident)
  | unlockClear {s : Cache ι κ} {retired : List Entry} :
    Move s (.emptied retired) { s with holder := none } (.releasing retired)
  | releaseRetired {s : Cache ι κ} {entry : Entry} {retired : List Entry} :
    Move s (.releasing (entry :: retired)) (s.release entry) (.releasing retired)
  | cleared {s : Cache ι κ} : Move s (.releasing []) s .idle
  /-- The constructors, the move assignment in two steps and the destructor of a handle. -/
  | construct {s : Cache ι κ} {place : κ} : s.handles place = .absent →
    Move s .idle (s.setHandle place (.present none)) .idle
  | moveConstruct {s : Cache ι κ} {place source : κ} {content : Option (Entry × Request)} :
    s.handles place = .absent → s.handles source = .present content →
    Move s .idle ((s.setHandle place (.present content)).setHandle source (.present none)) .idle
  | assign {s : Cache ι κ} {destination source : κ} {old content : Option (Entry × Request)} :
    destination ≠ source → s.handles destination = .present old →
    s.handles source = .present content →
    Move s .idle (((s.releaseContent old).setHandle destination (.reserved i none)).setHandle source
      (.reserved i content)) (.assigning destination source)
  | assigned {s : Cache ι κ} {destination source : κ} {content : Option (Entry × Request)} :
    s.handles source = .reserved i content →
    Move s (.assigning destination source)
      ((s.setHandle destination (.present content)).setHandle source (.present none)) .idle
  | destroy {s : Cache ι κ} {place : κ} {content : Option (Entry × Request)} :
    s.handles place = .present content →
    Move s .idle ((s.releaseContent content).setHandle place .absent) .idle

/-- The threads over the cache. -/
def ownershipSystem : Interleaving.System ι (Cache ι κ) (Thread κ) where
  move := Move tables
  ambient _ _ := False

end Steps

/-- The cache before its first use: no references, no slots and no handles. -/
def startState (ι κ : Type) (program : Entry → UniversalMicroProgram) :
    Interleaving.State ι (Cache ι κ) (Thread κ) where
  shared :=
    { references := fun _ => 0
      identity := fun _ => 0
      program
      nextIdentity := 1
      slots := fun _ => {}
      clock := 0
      holder := none
      handles := fun _ => .absent }
  threads _ := .idle

end VitaSX2.MicroCache
