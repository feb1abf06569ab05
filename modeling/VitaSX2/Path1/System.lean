/-
The three threads of PATH1 (`VitaGsMailbox.cpp`, `MTVU.cpp`): the EE thread queues
reservations and other commands, MTVU finishes dispatches and publishes
completions, and the GS worker reconciles the two.

MTVU finishes the dispatches in the order of their reservations.  It publishes a
completion with each step, and a CPU packet enters the GIF path with a step of its
own.  Input payloads are always published.
-/
import VitaSX2.Path1.Ring
import VitaSX2.Path1.Completion
import Mathlib.Logic.Relation

namespace VitaSX2.Path1

variable {κ : Type}

/-! ### States -/

/-- `UniversalGpuVuEpochStage`.  `Completing` is within a step; `acquired` is `Accepted` after
`MarkAcceptedStateAcquired`. -/
inductive EpochStage
  | prepared
  | submitted
  | gpuRejected
  | accepted
  | acquired
  | cpuFallback
  | retired
deriving DecidableEq

/-- Where the GS worker is in `MTVUGSPacket`. -/
inductive WorkerPc
  | idle
  /-- Before the exchange; `fallback` tells the stage `CpuFallback`. -/
  | claim (completion : Completion) (fallback : Bool)
  | consume (completion : Completion) (fallback : Bool)
  /-- So many CPU packets are to be replayed before the marker. -/
  | replay (packets : ℕ) (marker : Bool) (epoch : Option ℕ)
  | advance
  /-- An assertion has failed. -/
  | failed
deriving DecidableEq

structure State (κ : Type) where
  ring : Ring κ
  /-- `s_mtvu_path1_completions`. -/
  queue : List Completion
  /-- The packets in the GIF path, by the numbers of their dispatches. -/
  packets : List ℕ
  pending : Pending
  /-- What the running function of MTVU has still to push. -/
  outbox : List Completion
  /-- The packet that MTVU finishes after its private draw has been queued. -/
  packetDue : Option ℕ
  /-- The epoch that MTVU waits for. -/
  waiting : Option Epoch
  stage : ℕ → EpochStage
  worker : WorkerPc
  /-- An assertion of MTVU has failed. -/
  mtvuFailed : Bool
  /-- What the dispatches have come to, in their order. -/
  finished : List Outcome
  published : List Completion
  /-- The part of `finished` that the worker has consumed. -/
  consumed : List Outcome
  drawsTaken : List DrawInfo
  packetsTaken : List ℕ
  /-- For each marker, the number of dispatches that were consumed before it. -/
  markersTaken : List ℕ

namespace State

def empty : State κ where
  ring := .empty
  queue := []
  packets := []
  pending := .empty
  outbox := []
  packetDue := none
  waiting := none
  stage _ := .prepared
  worker := .idle
  mtvuFailed := false
  finished := []
  published := []
  consumed := []
  drawsTaken := []
  packetsTaken := []
  markersTaken := []

end State

/-! ### MTVU -/

/-- How MTVU finishes the next dispatch, or the next `executeCount` dispatches. -/
inductive Dispatch
  /-- `CompleteMtvuPath1NoOutput`. -/
  | noOutput
  /-- `QueueGpuVuDraw`. -/
  | draw (isPrivate generated : Bool)
  /-- `CompleteMtvuPath1Packet`. -/
  | packet
  /-- `QueueUniversalGpuVuEpoch`. -/
  | epoch (executeCount : ℕ)
deriving DecidableEq

def Dispatch.count : Dispatch → ℕ
  | epoch executeCount => executeCount
  | _ => 1

namespace State

/-- MTVU runs a function on its pending run. -/
def mtvu (s : State κ) (result : Option (Pending × List Completion)) (outcomes : List Outcome) :
    State κ :=
  match result with
  | none => { s with mtvuFailed := true }
  | some (pending, outbox) =>
    { s with pending := pending, outbox := outbox, finished := s.finished ++ outcomes }

/-- MTVU has no function under way. -/
structure Ready (s : State κ) : Prop where
  outbox : s.outbox = []
  packetDue : s.packetDue = none
  waiting : s.waiting = none
  notFailed : s.mtvuFailed = false

/-- The packet of a CPU dispatch enters the GIF path before its completion, the one of a private
draw after `QueueGpuVuDraw`. -/
def finish (s : State κ) : Dispatch → State κ
  | .noOutput => s.mtvu s.pending.appendNoOutput [.noOutput]
  | .draw isPrivate generated =>
    let info : DrawInfo := ⟨s.finished.length, isPrivate, generated⟩
    { s.mtvu (s.pending.appendDirectDraw info) [.draw info] with
      packetDue := if isPrivate then some s.finished.length else none }
  | .packet =>
    { s.mtvu s.pending.completePacket [.packet] with
      packets := s.packets ++ [s.finished.length] }
  | .epoch executeCount =>
    let epoch : Epoch := ⟨s.finished.length, executeCount⟩
    { s.mtvu (s.pending.queueEpoch epoch) (List.replicate executeCount (.epoch epoch.number)) with
      waiting := some epoch
      stage := Function.update s.stage epoch.number .prepared }

end State

/-- `MarkSubmitted`, `MarkAccepted`, `MarkGpuRejected` and `MarkAcceptedStateAcquired`. -/
inductive StageMove : EpochStage → EpochStage → Prop
  | submit : StageMove .prepared .submitted
  | accept : StageMove .submitted .accepted
  | reject : StageMove .prepared .gpuRejected
  | rejectSubmitted : StageMove .submitted .gpuRejected
  | acquire : StageMove .accepted .acquired

/-! ### The GS worker -/

namespace State

/-- What the worker does about a completion at the head of the queue. -/
def peek (s : State κ) (completion : Completion) : WorkerPc :=
  if completion.reservationCount = 0 then .failed
  else
    match completion.universalEpoch with
    | none => .claim completion false
    | some epoch =>
      if ¬(completion.draws = [] ∧ completion.reservationCount = epoch.executeCount) then .failed
      else
        match s.stage epoch.number with
        | .acquired => .claim completion false
        | .cpuFallback => .claim completion true
        | .retired => .failed
        | .prepared | .submitted | .gpuRejected | .accepted => .idle

/-- `reservation_prefix`. -/
def reservationPrefix (s : State κ) (completion : Completion) : ℕ :=
  min completion.reservationCount s.ring.remaining

/-- A prefix of the completion is consumed. -/
def consume (s : State κ) (completion : Completion) (fallback : Bool) : State κ :=
  match consumption s.queue completion (s.reservationPrefix completion) fallback with
  | none => { s with worker := .failed }
  | some result =>
    { s with
      ring := s.ring.consume (s.reservationPrefix completion)
      queue := result.queue
      consumed := s.consumed ++ completion.contents.take (s.reservationPrefix completion)
      drawsTaken := s.drawsTaken ++ result.draws
      worker := .replay result.packets result.marker result.epoch }

/-- `TryGetGSPacketMTVU` and `PopGSPacketMTVU`. -/
def replay (s : State κ) (packets : ℕ) (marker : Bool) (epoch : Option ℕ) : State κ :=
  match s.packets with
  | [] => { s with worker := .failed }
  | packet :: rest =>
    { s with
      packets := rest
      packetsTaken := s.packetsTaken ++ [packet]
      worker := .replay packets marker epoch }

/-- `SubmitGeneratedGpuVuTransactions`. -/
def mark (s : State κ) (marker : Bool) : State κ :=
  { s with
    markersTaken := if marker then s.markersTaken ++ [s.consumed.length] else s.markersTaken
    worker := .advance }

/-- `MarkRetired`. -/
def retire (s : State κ) (number : ℕ) : State κ :=
  if s.stage number = .acquired ∨ s.stage number = .cpuFallback then
    { s with stage := Function.update s.stage number .retired, worker := .advance }
  else { s with worker := .failed }

end State

inductive WorkerMove (s : State κ) : State κ → Prop
  | execute {command : κ} (h : s.worker = .idle) (hlt : s.ring.read < s.ring.write)
      (hcommand : s.ring.command s.ring.read = .other command) :
      WorkerMove s { s with ring := s.ring.execute command }
  | peek {completion : Completion} {queue : List Completion} (h : s.worker = .idle)
      (hlt : s.ring.read < s.ring.write) (hcommand : s.ring.command s.ring.read = .path1)
      (hqueue : s.queue = completion :: queue) :
      WorkerMove s { s with worker := s.peek completion }
  | claim {completion : Completion} {fallback : Bool}
      (h : s.worker = .claim completion fallback) :
      WorkerMove s { s with ring := s.ring.claim, worker := .consume completion fallback }
  | consume {completion : Completion} {fallback : Bool}
      (h : s.worker = .consume completion fallback) :
      WorkerMove s (s.consume completion fallback)
  | replay {packets : ℕ} {marker : Bool} {epoch : Option ℕ}
      (h : s.worker = .replay (packets + 1) marker epoch) :
      WorkerMove s (s.replay packets marker epoch)
  | mark {marker : Bool} (h : s.worker = .replay 0 marker none) : WorkerMove s (s.mark marker)
  | retire {marker : Bool} {number : ℕ} (h : s.worker = .replay 0 marker (some number)) :
      WorkerMove s (s.retire number)
  | advance (h : s.worker = .advance) :
      WorkerMove s { s with ring := s.ring.advance, worker := .idle }

/-! ### The system -/

/-- Of so many dispatches the last is joined with the one after them, in one epoch. -/
def Middle (joined : ℕ → Prop) (count : ℕ) : Prop := 0 < count ∧ joined (count - 1)

/-- A step of a thread.  `joined k` tells that the dispatches `k` and `k + 1` are in one epoch: the
EE thread queues their reservations with no other command between them.  MTVU finishes a dispatch
as `allowed` tells. -/
inductive Step (joined : ℕ → Prop) (allowed : State κ → Dispatch → Prop) (s : State κ) :
    State κ → Prop
  | ee {ring : Ring κ} (h : EeMove s.ring ring)
      (hjoined : s.ring.ee = .idle → ring.ee ≠ .reserve → ¬Middle joined s.ring.dispatched) :
      Step joined allowed s { s with ring := ring }
  | finish {dispatch : Dispatch} (hready : s.Ready) (hallowed : allowed s dispatch)
      (hbegun : s.finished.length + dispatch.count ≤ s.ring.dispatched)
      (hepoch : ∀ executeCount, dispatch = .epoch executeCount → 0 < executeCount ∧
        ∀ k, s.finished.length ≤ k → k + 1 < s.finished.length + executeCount → joined k) :
      Step joined allowed s (s.finish dispatch)
  /-- `PublishMtvuPath1Completions`. -/
  | publishPrefix (hready : s.Ready) : Step joined allowed s (s.mtvu s.pending.publishPrefix [])
  /-- `FlushMtvuPath1Completions`. -/
  | flush (hready : s.Ready) (requireVertexVisibility : Bool) :
      Step joined allowed s (s.mtvu (s.pending.flush requireVertexVisibility) [])
  /-- `MtvuPath1CompletionQueue::Push`. -/
  | push {completion : Completion} {outbox : List Completion}
      (houtbox : s.outbox = completion :: outbox) (hroom : s.queue.length + 1 < ringBufferSize) :
      Step joined allowed s
        { s with
          queue := s.queue ++ [completion]
          outbox := outbox
          published := s.published ++ [completion] }
  /-- `FinishGSPacketMTVU`, behind a private draw. -/
  | packet {number : ℕ} (houtbox : s.outbox = []) (hdue : s.packetDue = some number) :
      Step joined allowed s { s with packets := s.packets ++ [number], packetDue := none }
  | gpu {stage : EpochStage} (number : ℕ) (h : StageMove (s.stage number) stage) :
      Step joined allowed s { s with stage := Function.update s.stage number stage }
  /-- MTVU replays a rejected epoch and marks it. -/
  | fallback {epoch : Epoch} (houtbox : s.outbox = []) (hwaiting : s.waiting = some epoch)
      (hstage : s.stage epoch.number = .prepared ∨ s.stage epoch.number = .gpuRejected) :
      Step joined allowed s
        { s with
          packets := s.packets ++ List.range' epoch.number epoch.executeCount
          stage := Function.update s.stage epoch.number .cpuFallback }
  /-- The state of the epoch has been acquired, or the epoch is retired. -/
  | resume {epoch : Epoch} (houtbox : s.outbox = []) (hwaiting : s.waiting = some epoch)
      (hstage : s.stage epoch.number = .acquired ∨ s.stage epoch.number = .retired) :
      Step joined allowed s { s with waiting := none }
  | worker {s' : State κ} (h : WorkerMove s s') : Step joined allowed s s'

/-- What the threads can reach from the start. -/
def Reachable (joined : ℕ → Prop) (allowed : State κ → Dispatch → Prop) (s : State κ) : Prop :=
  Relation.ReflTransGen (Step joined allowed) .empty s

end VitaSX2.Path1
