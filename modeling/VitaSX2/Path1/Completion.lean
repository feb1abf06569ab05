/-
Completions of PATH1 dispatches and the pending run of MTVU (`VitaGsMailbox.cpp`).

MTVU links consecutive direct draws to one run and stores the empty dispatches
before a draw in its descriptor.  A failed assertion is `none`.  The linked list
from a descriptor on is a list of draws, so a null pointer is the empty list.
-/
import Mathlib.Data.Nat.Notation

namespace VitaSX2.Path1

/-! ### Draws and completions -/

/-- A direct draw: the number of its dispatch, `HasPrivateStoreComparison` and
`HasGeneratedLoopKernelTransaction`. -/
structure DrawInfo where
  number : ℕ
  isPrivate : Bool
  generated : Bool
deriving DecidableEq

/-- A draw in a run; `leading` is `path1_leading_no_output_count`. -/
structure Draw where
  info : DrawInfo
  leading : ℕ
deriving DecidableEq

/-- A universal epoch: the number of its first dispatch and `ExecuteCount`. -/
structure Epoch where
  number : ℕ
  executeCount : ℕ
deriving DecidableEq

/-- `MtvuPath1Completion`; the draws are those linked from `first_draw`. -/
structure Completion where
  draws : List Draw
  reservationCount : ℕ
  universalEpoch : Option Epoch
  cpuPath1AfterDraws : Bool
  submitGeneratedAfterDraws : Bool
  noOutputOnly : Bool
deriving DecidableEq

/-- What a dispatch has come to. -/
inductive Outcome
  | noOutput
  | draw (info : DrawInfo)
  /-- A CPU PATH1 packet. -/
  | packet
  | epoch (number : ℕ)
deriving DecidableEq

/-- The dispatches of a draw: the empty ones before it and its own. -/
def Draw.contents (draw : Draw) : List Outcome :=
  List.replicate draw.leading .noOutput ++ [.draw draw.info]

/-- The dispatches that a completion stands for. -/
def Completion.contents (completion : Completion) : List Outcome :=
  match completion.universalEpoch with
  | some epoch => List.replicate completion.reservationCount (.epoch epoch.number)
  | none =>
    if completion.draws ≠ [] then completion.draws.flatMap Draw.contents
    else if completion.noOutputOnly then List.replicate completion.reservationCount .noOutput
    else [.packet]

/-! ### The pending run -/

/-- `MaximumPendingMtvuDirectRun`. -/
def maximumPendingDirectRun : ℕ := 256

/-- The fields `s_pending_mtvu_*`. -/
structure Pending where
  /-- From `direct_head` to `direct_tail`. -/
  draws : List Draw
  directCount : ℕ
  directReservations : ℕ
  noOutputCount : ℕ
  generatedTransaction : Bool
deriving DecidableEq

namespace Pending

def empty : Pending := ⟨[], 0, 0, 0, false⟩

/-- `PublishPendingMtvuNoOutput`: the fields after it and what it publishes. -/
def publishNoOutput (pending : Pending) : Option (Pending × List Completion) :=
  if pending.draws ≠ [] then none
  else if pending.noOutputCount = 0 then some (pending, [])
  else
    some ({ pending with noOutputCount := 0 },
      [⟨[], pending.noOutputCount, none, false, false, true⟩])

/-- `FlushPendingMtvuDirectRun`. -/
def flush (pending : Pending) (requireVertexVisibility : Bool) :
    Option (Pending × List Completion) :=
  match pending.draws with
  | [] => pending.publishNoOutput
  | head :: _ =>
    if pending.directCount = 0 then none
    else do
      let run : Completion :=
        { draws := pending.draws
          reservationCount := pending.directReservations
          universalEpoch := none
          cpuPath1AfterDraws := head.info.isPrivate
          submitGeneratedAfterDraws := requireVertexVisibility && pending.generatedTransaction
          noOutputOnly := false }
      let (rest, published) ← publishNoOutput
        { pending with
          draws := []
          directCount := 0
          directReservations := 0
          generatedTransaction := false }
      return (rest, run :: published)

/-- The loop of `PublishPendingMtvuDirectPrefix`: the index of the last generated draw and the
reservations before it. -/
def scan : List Draw → (index scanned : ℕ) → Option (ℕ × ℕ) → Option (ℕ × ℕ)
  | [], _, _, found => found
  | draw :: draws, index, scanned, found =>
    scan draws (index + 1) (scanned + (draw.leading + 1))
      (if draw.info.generated then some (index, scanned) else found)

/-- `PublishPendingMtvuDirectPrefix`. -/
def publishPrefix (pending : Pending) : Option (Pending × List Completion) :=
  match pending.draws with
  | [] => pending.publishNoOutput
  | head :: _ =>
    if pending.generatedTransaction = false ∨ pending.directCount ≤ 1 then some (pending, [])
    else
      match scan pending.draws 0 0 none with
      | none => some (pending, [])
      | some (index, reservations) =>
        if index = 0 then some (pending, [])
        else
          some
            ({ pending with
                draws := pending.draws.drop index
                directCount := pending.directCount - index
                directReservations := pending.directReservations - reservations
                generatedTransaction := true },
              [{ draws := pending.draws.take index
                 reservationCount := reservations
                 universalEpoch := none
                 cpuPath1AfterDraws := head.info.isPrivate
                 submitGeneratedAfterDraws := false
                 noOutputOnly := false }])

/-- The pending run may not take this draw. -/
def mixes (pending : Pending) (info : DrawInfo) : Bool :=
  match pending.draws.getLast? with
  | some tail => tail.info.isPrivate != info.isPrivate
  | none => false

/-- The draw at the end of the run. -/
def link (pending : Pending) (info : DrawInfo) : Pending :=
  { draws := pending.draws ++ [⟨info, pending.noOutputCount⟩]
    directCount := pending.directCount + 1
    directReservations := pending.directReservations + (pending.noOutputCount + 1)
    noOutputCount := 0
    generatedTransaction := pending.generatedTransaction || info.generated }

/-- A run that has become too long is flushed. -/
def flushLong (pending : Pending) (reservations : ℕ) : Option (Pending × List Completion) :=
  if maximumPendingDirectRun ≤ reservations then pending.flush true else some (pending, [])

/-- A run that may not take this draw is flushed. -/
def flushMixed (pending : Pending) (info : DrawInfo) : Option (Pending × List Completion) :=
  if pending.mixes info then pending.flush true else some (pending, [])

/-- `AppendPendingMtvuDirectDraw`. -/
def appendDirectDraw (pending : Pending) (info : DrawInfo) :
    Option (Pending × List Completion) := do
  let (pending, before) ← pending.flushMixed info
  let linked := pending.link info
  let (pending, after) ← linked.flushLong linked.directReservations
  return (pending, before ++ after)

/-- `AppendPendingMtvuNoOutput`. -/
def appendNoOutput (pending : Pending) : Option (Pending × List Completion) :=
  let pending := { pending with noOutputCount := pending.noOutputCount + 1 }
  pending.flushLong (pending.directReservations + pending.noOutputCount)

/-- `CompleteMtvuPath1Packet`. -/
def completePacket (pending : Pending) : Option (Pending × List Completion) := do
  let (pending, before) ← pending.flush true
  return (pending, before ++ [⟨[], 1, none, false, false, false⟩])

/-- `QueueUniversalGpuVuEpoch`. -/
def queueEpoch (pending : Pending) (epoch : Epoch) : Option (Pending × List Completion) := do
  let (pending, before) ← pending.flush true
  return (pending, before ++ [⟨[], epoch.executeCount, some epoch, false, false, false⟩])

/-- The dispatches that are still pending. -/
def contents (pending : Pending) : List Outcome :=
  pending.draws.flatMap Draw.contents ++ List.replicate pending.noOutputCount .noOutput

end Pending

/-! ### Consumption -/

/-- `TakeMtvuDirectPrefix`: the draws that it takes, those that are left and the reservations
that it has found no draws for. -/
def takeDirectPrefix : List Draw → ℕ → List Draw × List Draw × ℕ
  | [], reservations => ([], [], reservations)
  | draw :: draws, reservations =>
    if reservations = 0 then ([], draw :: draws, 0)
    else
      let emptyPrefix := min reservations draw.leading
      let rest : Draw := { draw with leading := draw.leading - emptyPrefix }
      let left := reservations - emptyPrefix
      if left = 0 then ([], rest :: draws, 0)
      else
        let (taken, remaining, missing) := takeDirectPrefix draws (left - 1)
        (rest :: taken, remaining, missing)

/-- `MtvuPath1CompletionQueue::ConsumePrefix`. -/
def consumePrefix (queue : List Completion) (count : ℕ) (remainingDraws : List Draw) :
    Option (List Completion) :=
  match queue with
  | [] => none
  | completion :: queue =>
    if ¬(count ≠ 0 ∧ count ≤ completion.reservationCount) then none
    else if completion.universalEpoch.isSome = true ∧
        ¬(count = completion.reservationCount ∧ remainingDraws = []) then none
    else
      let completion :=
        { completion with
          draws := remainingDraws
          reservationCount := completion.reservationCount - count }
      if completion.reservationCount ≠ 0 then some (completion :: queue)
      else if remainingDraws ≠ [] then none
      else some queue

/-- What the worker does with a prefix of a completion: the queue after it, the draws for the
device, the CPU packets to replay, whether the marker follows, and the epoch to retire. -/
structure Consumption where
  queue : List Completion
  draws : List DrawInfo
  packets : ℕ
  marker : Bool
  epoch : Option ℕ

/-- The branches of `MainLoop` behind the claim; `fallback` tells the stage `CpuFallback`. -/
def consumption (queue : List Completion) (completion : Completion) (reservationPrefix : ℕ)
    (fallback : Bool) : Option Consumption :=
  let submit := completion.submitGeneratedAfterDraws &&
    reservationPrefix == completion.reservationCount
  if reservationPrefix = 0 then none
  else if completion.draws ≠ [] then
    let (taken, remaining, missing) := takeDirectPrefix completion.draws reservationPrefix
    if missing ≠ 0 then none
    else if ¬∀ draw ∈ taken, draw.info.isPrivate = completion.cpuPath1AfterDraws then none
    else do
      let queue ← consumePrefix queue reservationPrefix remaining
      if taken = [] ∧ submit = true then none
      else
        return ⟨queue, taken.map Draw.info,
          if completion.cpuPath1AfterDraws then taken.length else 0, submit, none⟩
  else if completion.noOutputOnly then
    if completion.universalEpoch.isSome ∨ completion.cpuPath1AfterDraws ∨
        completion.submitGeneratedAfterDraws then none
    else do
      let queue ← consumePrefix queue reservationPrefix []
      return ⟨queue, [], 0, false, none⟩
  else
    match completion.universalEpoch with
    | some epoch =>
      if reservationPrefix ≠ epoch.executeCount then none
      else do
        let queue ← consumePrefix queue reservationPrefix []
        return ⟨queue, [], if fallback then reservationPrefix else 0, false, some epoch.number⟩
    | none =>
      if ¬(completion.reservationCount = 1 ∧ reservationPrefix = 1) then none
      else do
        let queue ← consumePrefix queue 1 []
        return ⟨queue, [], 1, false, none⟩

end VitaSX2.Path1
