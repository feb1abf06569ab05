/-
The strong wait for the GS worker (`VitaGsMailbox.cpp`): the EE thread in
`WaitGS(false)`, the worker in `MainLoop` with `TryTakeMtvuPath1Completion`, and
the MTVU producer in `PublishMtvuPath1Completion`.

Every access to a shared atomic, every operation on the completion queue and on
a semaphore is one step.  The resources of the drain semaphore carry the pass of
`WaitGS` whose flag was claimed for them.  Of a completion only its number of
reservations is kept; whether the worker retains it for a universal epoch is
left open, and so are the posts of other threads to the work semaphore.
-/
import Mathlib.Algebra.Group.Nat.Defs
import Mathlib.Data.Nat.Notation
import Mathlib.Logic.Relation

namespace VitaSX2.DrainWait

/-- A command of the ring; a PATH1 command with its unclaimed reservations. -/
inductive Command
  | other
  | path1 (count : ℕ)

/-- Where the EE thread is in `WaitGS`. -/
inductive WaiterPc
  | outside
  | setEvent
  | waitForEmpty
  | positions
  | arm
  | load
  | wait
  | disarm
  | waitClaimed
deriving DecidableEq

/-- Where the MTVU producer is in `PublishMtvuPath1Completion`. -/
inductive ProducerPc
  | outside
  | push (reservationCount : ℕ)
  | exchangeWaiting
  | notify
  | exchangeDrain
  | post (pass : ℕ)

/-- Where the worker is in `MainLoop`. -/
inductive WorkerPc
  | asleep
  | look
  | peek
  | raise
  | peekAgain
  | lower
  | took
  | consume
  | advance
deriving DecidableEq

structure Mailbox where
  ring : List Command
  /-- `s_mtvu_path1_completions`, the oldest first. -/
  completions : List ℕ
  completionWaiting : Bool
  drainWaiter : Bool
  /-- The resources of `s_mtvu_path1_drain_sema`. -/
  drainSema : List ℕ
  /-- `s_work_sema` has been notified since the worker last took its work. -/
  work : Bool
  /-- `s_mtvu_reservations_remaining`. -/
  remaining : ℕ
  waiter : WaiterPc
  producer : ProducerPc
  worker : WorkerPc
  /-- How often `WaitGS` has raised its flag. -/
  pass : ℕ

/-- `MTGS::RingBufferMask`. -/
def ringBufferMask : ℕ := 2 ^ 14 - 1

/-- `MaximumMtvuReservationRun`. -/
def maximumMtvuReservationRun : ℕ := 256

/-- The EE thread: it queues commands, and it waits. -/
inductive WaiterMove (s : Mailbox) : Mailbox → Prop
  | command (h : s.waiter = .outside) : WaiterMove s { s with ring := s.ring ++ [.other] }
  | reserve (h : s.waiter = .outside) : WaiterMove s { s with ring := s.ring ++ [.path1 1] }
  | extend {commands : List Command} {count : ℕ} (h : s.waiter = .outside)
      (hring : s.ring = commands ++ [.path1 count]) (hpos : 0 < count)
      (hmax : count < maximumMtvuReservationRun) :
      WaiterMove s { s with ring := commands ++ [.path1 (count + 1)] }
  | notify (h : s.waiter = .outside) : WaiterMove s { s with work := true }
  | call (h : s.waiter = .outside) : WaiterMove s { s with waiter := .setEvent }
  | setEvent (h : s.waiter = .setEvent) :
      WaiterMove s { s with work := true, waiter := .waitForEmpty }
  | waitForEmpty (h : s.waiter = .waitForEmpty) (hasleep : s.worker = .asleep)
      (hwork : s.work = false) : WaiterMove s { s with waiter := .positions }
  | finished (h : s.waiter = .positions) (hring : s.ring = []) :
      WaiterMove s { s with waiter := .outside }
  | unfinished (h : s.waiter = .positions) (hring : s.ring ≠ []) :
      WaiterMove s { s with waiter := .arm }
  | arm (h : s.waiter = .arm) :
      WaiterMove s { s with drainWaiter := true, waiter := .load, pass := s.pass + 1 }
  | load (h : s.waiter = .load) :
      WaiterMove s { s with waiter := if s.completionWaiting then .wait else .disarm }
  | disarm (h : s.waiter = .disarm) :
      WaiterMove s
        { s with
          drainWaiter := false
          waiter := if s.drainWaiter then .setEvent else .waitClaimed }
  | wait {resource : ℕ} {resources : List ℕ} (h : s.waiter = .wait ∨ s.waiter = .waitClaimed)
      (hsema : s.drainSema = resource :: resources) :
      WaiterMove s { s with drainSema := resources, waiter := .setEvent }

/-- `PublishMtvuPath1Completion`. -/
inductive ProducerMove (s : Mailbox) : Mailbox → Prop
  | call (reservationCount : ℕ) (h : s.producer = .outside) (hcount : reservationCount ≠ 0) :
      ProducerMove s { s with producer := .push reservationCount }
  | full {reservationCount : ℕ} (h : s.producer = .push reservationCount)
      (hfull : s.completions.length = ringBufferMask) : ProducerMove s { s with work := true }
  | push {reservationCount : ℕ} (h : s.producer = .push reservationCount)
      (hroom : s.completions.length < ringBufferMask) :
      ProducerMove s
        { s with
          completions := s.completions ++ [reservationCount]
          producer := .exchangeWaiting }
  | exchangeWaiting (h : s.producer = .exchangeWaiting) :
      ProducerMove s
        { s with
          completionWaiting := false
          producer := if s.completionWaiting then .notify else .exchangeDrain }
  | notify (h : s.producer = .notify) :
      ProducerMove s { s with work := true, producer := .exchangeDrain }
  | exchangeDrain (h : s.producer = .exchangeDrain) :
      ProducerMove s
        { s with
          drainWaiter := false
          producer := if s.drainWaiter then .post s.pass else .outside }
  | post {pass : ℕ} (h : s.producer = .post pass) :
      ProducerMove s { s with drainSema := pass :: s.drainSema, producer := .outside }

/-- `MainLoop`. -/
inductive WorkerMove (s : Mailbox) : Mailbox → Prop
  | wake (h : s.worker = .asleep) (hwork : s.work = true) :
      WorkerMove s { s with work := false, worker := .look }
  | drained (h : s.worker = .look) (hring : s.ring = []) :
      WorkerMove s { s with worker := .asleep }
  | execute {commands : List Command} (h : s.worker = .look) (hring : s.ring = .other :: commands) :
      WorkerMove s { s with worker := .advance }
  | dispatch {count : ℕ} {commands : List Command} (h : s.worker = .look)
      (hring : s.ring = .path1 count :: commands) : WorkerMove s { s with worker := .peek }
  | peek (h : s.worker = .peek) :
      WorkerMove s { s with worker := if s.completions = [] then .raise else .took }
  | raise (h : s.worker = .raise) :
      WorkerMove s { s with completionWaiting := true, worker := .peekAgain }
  | peekAgain (h : s.worker = .peekAgain) :
      WorkerMove s { s with worker := if s.completions = [] then .asleep else .lower }
  | lower (h : s.worker = .lower) :
      WorkerMove s { s with completionWaiting := false, worker := .took }
  /-- The universal epoch at the head has not finished. -/
  | retain (h : s.worker = .took) : WorkerMove s { s with worker := .asleep }
  | claim {count : ℕ} {commands : List Command} (h : s.worker = .took) (hnone : s.remaining = 0)
      (hring : s.ring = .path1 count :: commands) :
      WorkerMove s
        { s with
          ring := .path1 0 :: commands
          remaining := if count = 0 then 1 else count
          worker := .consume }
  | claimed (h : s.worker = .took) (hsome : s.remaining ≠ 0) :
      WorkerMove s { s with worker := .consume }
  | consume {count : ℕ} {completions : List ℕ} (h : s.worker = .consume)
      (hcompletions : s.completions = count :: completions) :
      WorkerMove s
        { s with
          completions :=
            if count ≤ s.remaining then completions else (count - s.remaining) :: completions
          remaining := s.remaining - count
          worker := if s.remaining ≤ count then .advance else .look }
  | advance {command : Command} {commands : List Command} (h : s.worker = .advance)
      (hring : s.ring = command :: commands) :
      WorkerMove s { s with ring := commands, worker := .look }

/-- The notification thread and the watchdogs. -/
inductive OtherMove (s : Mailbox) : Mailbox → Prop
  | notify : OtherMove s { s with work := true }

inductive Step (s s' : Mailbox) : Prop
  | waiter (h : WaiterMove s s')
  | producer (h : ProducerMove s s')
  | worker (h : WorkerMove s s')
  | other (h : OtherMove s s')

/-- After `StartThread`. -/
def initial : Mailbox where
  ring := []
  completions := []
  completionWaiting := false
  drainWaiter := false
  drainSema := []
  work := false
  remaining := 0
  waiter := .outside
  producer := .outside
  worker := .asleep
  pass := 0

def Reachable (s : Mailbox) : Prop := Relation.ReflTransGen Step initial s

end VitaSX2.DrainWait
