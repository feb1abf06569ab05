/-
`SingleWaiterProgressEvent`: producers sleep until a separately published value
changes, and one consumer wakes them.

Every acquisition and release of a mutex, every access to the hint, every read
of the progress and every operation on the semaphore is one step.  The fields
under `m_mutex` are read and written in the step that decides on them.  The
resources of the semaphore are counted apart, those that `WakeWaiter` posted for
an arm and the unrelated ones; a wait takes one of either kind.
-/
import VitaSX2.Lib.Interleaving
import Mathlib.Data.Nat.Notation

namespace VitaSX2.Threading

open Interleaving

variable {α ι : Type}

/-- Who holds `m_mutex`. -/
inductive Owner (ι : Type)
  | consumer
  | producer (i : ι)
deriving DecidableEq

/-- Where the consumer is.  `quiesce` tells `PublishQuiescence` from
`NotifyOfProgress`. -/
inductive ConsumerPc
  | active
  | notifyHint
  | lock (quiesce : Bool)
  | claim (quiesce : Bool)
  | clearHint (quiesce : Bool)
  | post (quiesce : Bool)
  | unlock (quiesce : Bool)
  | idle
deriving DecidableEq

structure ProgressEvent (α ι : Type) where
  progress : α
  waitingHint : Bool
  waiterMutex : Option ι
  mutex : Option (Owner ι)
  waiting : Bool
  wakeClaimed : Bool
  claimedResources : ℕ
  otherResources : ℕ
  consumer : ConsumerPc
  /-- The arms so far. -/
  arms : ℕ
  /-- The arms that `WakeWaiter` has claimed. -/
  claimedArms : List ℕ

/-- The count of `m_semaphore`. -/
def ProgressEvent.count (event : ProgressEvent α ι) : ℕ :=
  event.claimedResources + event.otherResources

/-- Why a call returns: its recheck saw another value, or its arm was claimed. -/
inductive Outcome (α : Type)
  | changed (seen : α)
  | woken (arm : ℕ)

/-- Where a producer is in `WaitForChange`. -/
inductive ProducerPc (α : Type)
  | outside
  | lockWaiter (observed : α)
  | lock (observed : α)
  | assertIdle (observed : α)
  | readProgress (observed : α)
  | unlockChanged (observed seen : α)
  | arm (observed : α)
  | storeHint (observed : α) (arm : ℕ)
  | unlockArmed (observed : α) (arm : ℕ)
  | wait (observed : α) (arm : ℕ)
  | lockWoken (observed : α) (arm : ℕ)
  | checkClaim (observed : α) (arm : ℕ)
  | unlockUnclaimed (observed : α) (arm : ℕ)
  | acknowledge (observed : α) (arm : ℕ)
  | drain (observed : α) (arm : ℕ)
  | unlockWoken (observed : α) (arm : ℕ)
  | unlockWaiter (observed : α) (outcome : Outcome α)
  /-- `pxAssertRel` has failed. -/
  | asserted

namespace ProducerPc

def holdsWaiterMutex : ProducerPc α → Bool
  | outside | lockWaiter _ | asserted => false
  | _ => true

def holdsMutex : ProducerPc α → Bool
  | assertIdle _ | readProgress _ | unlockChanged _ _ | arm _ | storeHint _ _ | unlockArmed _ _
  | checkClaim _ _ | unlockUnclaimed _ _ | acknowledge _ _ | drain _ _ | unlockWoken _ _ => true
  | _ => false

/-- Between the arm and its acknowledgement. -/
def armed : ProducerPc α → Bool
  | storeHint _ _ | unlockArmed _ _ | wait _ _ | lockWoken _ _ | checkClaim _ _
  | unlockUnclaimed _ _ | acknowledge _ _ => true
  | _ => false

/-- The resources of a claimed wake are being removed. -/
def draining : ProducerPc α → Bool
  | drain _ _ => true
  | _ => false

end ProducerPc

/-- One resource less, of either kind. -/
inductive Takes (event : ProgressEvent α ι) : ProgressEvent α ι → Prop
  | claimed (h : 0 < event.claimedResources) :
      Takes event { event with claimedResources := event.claimedResources - 1 }
  | other (h : 0 < event.otherResources) :
      Takes event { event with otherResources := event.otherResources - 1 }

/-- `WaitForChange`. -/
inductive ProducerMove [DecidableEq α] (i : ι) (event : ProgressEvent α ι) :
    ProducerPc α → ProgressEvent α ι → ProducerPc α → Prop
  | call (observed : α) : ProducerMove i event .outside event (.lockWaiter observed)
  | lockWaiter {observed : α} (h : event.waiterMutex = none) :
      ProducerMove i event (.lockWaiter observed) { event with waiterMutex := some i }
        (.lock observed)
  | lock {observed : α} (h : event.mutex = none) :
      ProducerMove i event (.lock observed) { event with mutex := some (.producer i) }
        (.assertIdle observed)
  | assertIdle {observed : α} :
      ProducerMove i event (.assertIdle observed) event
        (if !event.waiting && !event.wakeClaimed then .readProgress observed else .asserted)
  | readProgress {observed : α} :
      ProducerMove i event (.readProgress observed) event
        (if event.progress ≠ observed then .unlockChanged observed event.progress
          else .arm observed)
  | unlockChanged {observed seen : α} :
      ProducerMove i event (.unlockChanged observed seen) { event with mutex := none }
        (.unlockWaiter observed (.changed seen))
  | arm {observed : α} :
      ProducerMove i event (.arm observed)
        { event with waiting := true, wakeClaimed := false, arms := event.arms + 1 }
        (.storeHint observed (event.arms + 1))
  | storeHint {observed : α} {arm : ℕ} :
      ProducerMove i event (.storeHint observed arm) { event with waitingHint := true }
        (.unlockArmed observed arm)
  | unlockArmed {observed : α} {arm : ℕ} :
      ProducerMove i event (.unlockArmed observed arm) { event with mutex := none }
        (.wait observed arm)
  | wait {observed : α} {arm : ℕ} {event' : ProgressEvent α ι} (h : Takes event event') :
      ProducerMove i event (.wait observed arm) event' (.lockWoken observed arm)
  | lockWoken {observed : α} {arm : ℕ} (h : event.mutex = none) :
      ProducerMove i event (.lockWoken observed arm) { event with mutex := some (.producer i) }
        (.checkClaim observed arm)
  | checkClaim {observed : α} {arm : ℕ} :
      ProducerMove i event (.checkClaim observed arm) event
        (if !event.wakeClaimed then .unlockUnclaimed observed arm else .acknowledge observed arm)
  | unlockUnclaimed {observed : α} {arm : ℕ} :
      ProducerMove i event (.unlockUnclaimed observed arm) { event with mutex := none }
        (.wait observed arm)
  | acknowledge {observed : α} {arm : ℕ} :
      ProducerMove i event (.acknowledge observed arm)
        { event with waiting := false, wakeClaimed := false } (.drain observed arm)
  | drainOne {observed : α} {arm : ℕ} {event' : ProgressEvent α ι} (h : Takes event event') :
      ProducerMove i event (.drain observed arm) event' (.drain observed arm)
  | drained {observed : α} {arm : ℕ} (h : event.count = 0) :
      ProducerMove i event (.drain observed arm) event (.unlockWoken observed arm)
  | unlockWoken {observed : α} {arm : ℕ} :
      ProducerMove i event (.unlockWoken observed arm) { event with mutex := none }
        (.unlockWaiter observed (.woken arm))
  | unlockWaiter {observed : α} {outcome : Outcome α} :
      ProducerMove i event (.unlockWaiter observed outcome) { event with waiterMutex := none }
        .outside

/-- The consumer, and the posts of unrelated resources. -/
inductive ConsumerMove (event : ProgressEvent α ι) : ProgressEvent α ι → Prop
  | publish (h : event.consumer = .active) (value : α) :
      ConsumerMove event { event with progress := value }
  | notifyOfProgress (h : event.consumer = .active) :
      ConsumerMove event { event with consumer := .notifyHint }
  | publishQuiescence (h : event.consumer = .active) :
      ConsumerMove event { event with consumer := .lock true }
  | loadHint (h : event.consumer = .notifyHint) :
      ConsumerMove event
        { event with consumer := if event.waitingHint then .lock false else .active }
  | lock {quiesce : Bool} (h : event.consumer = .lock quiesce) (hfree : event.mutex = none) :
      ConsumerMove event
        { event with mutex := some .consumer, consumer := .claim quiesce }
  | claim {quiesce : Bool} (h : event.consumer = .claim quiesce)
      (hwaiting : (event.waiting && !event.wakeClaimed) = true) :
      ConsumerMove event
        { event with
          wakeClaimed := true
          claimedArms := event.arms :: event.claimedArms
          consumer := .clearHint quiesce }
  | nobody {quiesce : Bool} (h : event.consumer = .claim quiesce)
      (hwaiting : (event.waiting && !event.wakeClaimed) = false) :
      ConsumerMove event { event with consumer := .unlock quiesce }
  | clearHint {quiesce : Bool} (h : event.consumer = .clearHint quiesce) :
      ConsumerMove event { event with waitingHint := false, consumer := .post quiesce }
  | post {quiesce : Bool} (h : event.consumer = .post quiesce) :
      ConsumerMove event
        { event with
          claimedResources := event.claimedResources + 1
          consumer := .unlock quiesce }
  | unlock {quiesce : Bool} (h : event.consumer = .unlock quiesce) :
      ConsumerMove event
        { event with mutex := none, consumer := if quiesce then .idle else .active }
  | resume (h : event.consumer = .idle) :
      ConsumerMove event { event with consumer := .active }
  | postUnclaimed : ConsumerMove event { event with otherResources := event.otherResources + 1 }

/-- The producers and their consumer. -/
def progressSystem (α ι : Type) [DecidableEq α] :
    System ι (ProgressEvent α ι) (ProducerPc α) where
  move := fun i event pc event' pc' => ProducerMove i event pc event' pc'
  ambient := ConsumerMove

/-- An event that nobody has used. -/
def freshEvent (progress : α) : ProgressEvent α ι where
  progress := progress
  waitingHint := false
  waiterMutex := none
  mutex := none
  waiting := false
  wakeClaimed := false
  claimedResources := 0
  otherResources := 0
  consumer := .active
  arms := 0
  claimedArms := []

/-- Every producer outside of `WaitForChange`. -/
def freshState (progress : α) : State ι (ProgressEvent α ι) (ProducerPc α) :=
  ⟨freshEvent progress, fun _ => .outside⟩

end VitaSX2.Threading
