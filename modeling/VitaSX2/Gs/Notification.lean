/-
The mailbox for GPU notification targets (`VitaGsMailbox.cpp`): the producer of
`QueueGpuVuNotificationTarget`, the loop of the notification thread and other
threads that post the same semaphore.

Every access to a shared atomic is one step.  What the GPU, the watchdogs and
the switch for the call-health mode do is left open.  The words of the target
under observation belong to the notification thread and are stored at once.
-/
import Mathlib.Logic.Function.Basic
import Mathlib.Logic.Relation
import Mathlib.Data.Nat.Notation

namespace VitaSX2.Notification

/-- The words of a target in the order of their stores. -/
inductive Field
  | address
  | value
  | startValue
  | jobBase
  | jobCount
  | sequence
deriving DecidableEq

abbrev Target := Field → ℕ

def Field.all : List Field := [address, value, startValue, jobBase, jobCount, sequence]

lemma Field.mem_all (field : Field) : field ∈ all := by cases field <;> decide

/-- A target that `ArmGpuVuNotificationWake` does not turn away. -/
def Target.Usable (target : Target) : Prop := target .address ≠ 0 ∧ target .value ≠ 0

/-- `s_gpu_vu_notification_pending_state`. -/
inductive SlotState
  | empty
  | publishing
  | ready
  | claiming
deriving DecidableEq

/-- Where the producer is in `QueueGpuVuNotificationTarget`. -/
inductive ProducerPc
  | outside
  | load (target : Target) (attempts : ℕ)
  | exchange (target : Target) (attempts : ℕ) (state : SlotState)
  | store (target : Target) (remaining : List Field) (replacement : Bool)
  | post

/-- Where the notification thread is. -/
inductive ThreadPc
  | head
  | tryWait
  | wait
  | loadShutdown
  | loadRequest
  | loadCompleted (request : BitVec 32)
  | claim (request : BitVec 32)
  | take (remaining : List Field) (resolved : Target) (number : ℕ)
  | publish (resolved : Target)
  | inspect (request : BitVec 32)
  | service (request : BitVec 32)
  | watchShutdown (request : BitVec 32)
  | watchPending (request : BitVec 32)
  | watchdogs (request : BitVec 32)
  | settle (request : BitVec 32)
  | poll (request : BitVec 32)
  | afterPoll (request : BitVec 32)
  | stopped

structure Mailbox where
  pendingState : SlotState
  pending : Target
  active : Target
  request : BitVec 32
  completed : BitVec 32
  requestSema : ℕ
  callHealth : Bool
  shutdown : Bool
  producer : ProducerPc
  thread : ThreadPc
  /-- The targets queued so far, the oldest first. -/
  published : List Target
  /-- The targets taken so far, each with the number of targets queued before its
  take; the newest first. -/
  takes : List (Target × ℕ)

/-- The number of attempts of `QueueGpuVuNotificationTarget`. -/
def maximumAttempts : ℕ := 64

/-- The request after this one: zero is left out. -/
def nextRequest (request : BitVec 32) : BitVec 32 :=
  if request + 1 = 0 then 1 else request + 1

/-- `QueueGpuVuNotificationTarget`. -/
inductive ProducerMove (s : Mailbox) : Mailbox → Prop
  | call (target : Target) (h : s.producer = .outside) (husable : target.Usable) :
      ProducerMove s { s with producer := .load target maximumAttempts }
  | giveUp {target : Target} (h : s.producer = .load target 0) :
      ProducerMove s { s with producer := .outside }
  | load {target : Target} {attempts : ℕ} (h : s.producer = .load target (attempts + 1)) :
      ProducerMove s
        { s with
          producer :=
            if s.pendingState = .empty ∨ s.pendingState = .ready then
              .exchange target attempts s.pendingState
            else .load target attempts }
  | failExchange {target : Target} {attempts : ℕ} {state : SlotState}
      (h : s.producer = .exchange target attempts state) :
      ProducerMove s { s with producer := .load target attempts }
  | exchange {target : Target} {attempts : ℕ} {state : SlotState}
      (h : s.producer = .exchange target attempts state) (hstate : s.pendingState = state) :
      ProducerMove s
        { s with
          pendingState := .publishing
          producer := .store target Field.all (state == .ready) }
  | store {target : Target} {field : Field} {remaining : List Field} {replacement : Bool}
      (h : s.producer = .store target (field :: remaining) replacement) :
      ProducerMove s
        { s with
          pending := Function.update s.pending field (target field)
          producer := .store target remaining replacement }
  | publish {target : Target} {replacement : Bool}
      (h : s.producer = .store target [] replacement) :
      ProducerMove s
        { s with
          pendingState := .ready
          published := s.published ++ [target]
          producer := if replacement then .outside else .post }
  | post (h : s.producer = .post) :
      ProducerMove s { s with requestSema := s.requestSema + 1, producer := .outside }

/-- The loop of `UniversalGpuVuNotificationThreadEntryPoint`. -/
inductive ThreadMove (s : Mailbox) : Mailbox → Prop
  | head (h : s.thread = .head) :
      ThreadMove s { s with thread := if s.callHealth then .tryWait else .wait }
  | tryWait (h : s.thread = .tryWait) :
      ThreadMove s { s with requestSema := s.requestSema - 1, thread := .loadShutdown }
  | wait (h : s.thread = .wait) (hcount : 0 < s.requestSema) :
      ThreadMove s { s with requestSema := s.requestSema - 1, thread := .loadShutdown }
  | loadShutdown (h : s.thread = .loadShutdown) :
      ThreadMove s { s with thread := if s.shutdown then .stopped else .loadRequest }
  | loadRequest (h : s.thread = .loadRequest) :
      ThreadMove s { s with thread := .loadCompleted s.request }
  | loadCompleted {request : BitVec 32} (h : s.thread = .loadCompleted request) :
      ThreadMove s
        { s with thread := if request = s.completed then .claim request else .inspect request }
  | claim {request : BitVec 32} (h : s.thread = .claim request) (hready : s.pendingState = .ready) :
      ThreadMove s
        { s with
          pendingState := .claiming
          thread := .take Field.all (fun _ => 0) s.published.length }
  | nothing {request : BitVec 32} (h : s.thread = .claim request)
      (hready : s.pendingState ≠ .ready) : ThreadMove s { s with thread := .inspect 0 }
  | take {field : Field} {remaining : List Field} {resolved : Target} {number : ℕ}
      (h : s.thread = .take (field :: remaining) resolved number) :
      ThreadMove s
        { s with
          thread := .take remaining (Function.update resolved field (s.pending field)) number }
  | taken {resolved : Target} {number : ℕ} (h : s.thread = .take [] resolved number)
      (husable : resolved.Usable) :
      ThreadMove s
        { s with
          pendingState := .empty
          thread := .publish resolved
          takes := (resolved, number) :: s.takes }
  | discarded {resolved : Target} {number : ℕ} (h : s.thread = .take [] resolved number)
      (husable : ¬resolved.Usable) :
      ThreadMove s { s with pendingState := .empty, thread := .inspect 0 }
  | publish {resolved : Target} (h : s.thread = .publish resolved) :
      ThreadMove s
        { s with
          active := resolved
          request := nextRequest s.request
          thread := .inspect (nextRequest s.request) }
  | inspect {request : BitVec 32} (h : s.thread = .inspect request) :
      ThreadMove s
        { s with
          thread :=
            if request = 0 ∨ s.active .address = 0 ∨ s.active .value = 0 then .service request
            else .poll request }
  | service {request : BitVec 32} (h : s.thread = .service request) :
      ThreadMove s { s with thread := .watchShutdown request }
  | watchShutdown {request : BitVec 32} (h : s.thread = .watchShutdown request) :
      ThreadMove s
        { s with thread := if s.shutdown then .settle request else .watchPending request }
  | watchPending {request : BitVec 32} (h : s.thread = .watchPending request) :
      ThreadMove s
        { s with
          thread := if s.pendingState = .ready then .settle request else .watchdogs request }
  | watchdogs {request : BitVec 32} (h : s.thread = .watchdogs request) (active : Bool) :
      ThreadMove s
        { s with thread := if active then .watchShutdown request else .settle request }
  | settle {request : BitVec 32} (h : s.thread = .settle request) :
      ThreadMove s
        { s with
          completed := if request ≠ 0 then request else s.completed
          thread := .head }
  | pollAgain {request : BitVec 32} (h : s.thread = .poll request) :
      ThreadMove s { s with thread := .poll request }
  | leavePoll {request : BitVec 32} (h : s.thread = .poll request) :
      ThreadMove s { s with thread := .afterPoll request }
  | afterPoll {request : BitVec 32} (h : s.thread = .afterPoll request) :
      ThreadMove s
        { s with
          completed := if s.shutdown then s.completed else request
          thread := if s.shutdown then .stopped else .head }
  /-- A watchdog or the timeout ends the title. -/
  | fatal {request : BitVec 32}
      (h : s.thread = .service request ∨ s.thread = .watchdogs request ∨
        s.thread = .poll request) :
      ThreadMove s { s with thread := .stopped }

/-- Everyone else: posts of the watchdogs and of the shutdown, and the switches. -/
inductive OtherMove (s : Mailbox) : Mailbox → Prop
  | post : OtherMove s { s with requestSema := s.requestSema + 1 }
  | setCallHealth (enabled : Bool) : OtherMove s { s with callHealth := enabled }
  | setShutdown (shutdown : Bool) : OtherMove s { s with shutdown := shutdown }

inductive Step (s s' : Mailbox) : Prop
  | producer (h : ProducerMove s s')
  | thread (h : ThreadMove s s')
  | other (h : OtherMove s s')

/-- After `StartUniversalGpuVuNotificationThread`. -/
def initial : Mailbox where
  pendingState := .empty
  pending _ := 0
  active _ := 0
  request := 0
  completed := 0
  requestSema := 0
  callHealth := false
  shutdown := false
  producer := .outside
  thread := .head
  published := []
  takes := []

def Reachable (s : Mailbox) : Prop := Relation.ReflTransGen Step initial s

end VitaSX2.Notification
