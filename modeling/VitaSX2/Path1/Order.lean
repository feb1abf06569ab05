/-
PATH1 keeps its order, whatever way reservation runs and completions overlap.

A CPU packet has to be in the GIF path when the worker replays it.  The packet of a
private draw enters the path after the draw has been queued, so the order needs
that the draw stays pending until then: it must not fill its run.
-/
import VitaSX2.Path1.Sound

namespace VitaSX2.Path1

variable {κ : Type}

/-! ### Packets and markers -/

/-- The dispatches with a packet in the GIF path, counted from `start`. -/
def packetNumbers : (start : ℕ) → List Outcome → List ℕ
  | _, [] => []
  | start, outcome :: outcomes =>
    (if outcome.hasPacket then [start] else []) ++ packetNumbers (start + 1) outcomes

/-- How many dispatches come before each marker of these completions. -/
def markerPlaces : (start : ℕ) → List Completion → List ℕ
  | _, [] => []
  | start, completion :: completions =>
    (if completion.submitGeneratedAfterDraws then [start + completion.contents.length] else []) ++
      markerPlaces (start + completion.contents.length) completions

lemma packetNumbers_append (start : ℕ) (outcomes others : List Outcome) :
    packetNumbers start (outcomes ++ others) =
      packetNumbers start outcomes ++ packetNumbers (start + outcomes.length) others := by
  induction outcomes generalizing start with
  | nil => rfl
  | cons outcome outcomes ih =>
    rw [List.cons_append, packetNumbers, packetNumbers, ih, List.append_assoc, List.length_cons,
      Nat.add_assoc, Nat.add_comm 1]

lemma length_packetNumbers (start : ℕ) (outcomes : List Outcome) :
    (packetNumbers start outcomes).length = (outcomes.filter Outcome.hasPacket).length := by
  induction outcomes generalizing start with
  | nil => rfl
  | cons outcome outcomes ih =>
    rw [packetNumbers, List.length_append, ih, List.filter_cons]
    split
    next => rw [List.length_cons, Nat.add_comm]; rfl
    next => exact Nat.zero_add _

lemma markerPlaces_append (start : ℕ) (completions others : List Completion) :
    markerPlaces start (completions ++ others) = markerPlaces start completions ++
      markerPlaces (start + (completions.flatMap Completion.contents).length) others := by
  induction completions generalizing start with
  | nil => rfl
  | cons completion completions ih =>
    rw [List.cons_append, markerPlaces, markerPlaces, ih, List.append_assoc, List.flatMap_cons,
      List.length_append, Nat.add_assoc]

/-- Later markers have later places. -/
lemma lt_of_mem_markerPlaces {start place : ℕ} {completions : List Completion}
    (hok : ∀ c ∈ completions, 0 < c.contents.length) (h : place ∈ markerPlaces start completions) :
    start < place := by
  induction completions generalizing start with
  | nil => cases h
  | cons completion completions ih =>
    have hpos := hok completion List.mem_cons_self
    rcases List.mem_append.mp h with h | h
    · split at h
      next =>
        rw [List.mem_singleton.mp h]
        exact Nat.lt_add_of_pos_right hpos
      next => cases h
    · exact Nat.lt_of_le_of_lt (Nat.le_add_right _ _)
        (ih (fun c hc => hok c (List.mem_cons_of_mem _ hc)) h)

/-! ### Conditions -/

/-- A dispatch that is not a universal epoch. -/
def Dispatch.Ordinary (dispatch : Dispatch) : Prop := ∀ executeCount, dispatch ≠ .epoch executeCount

namespace State

/-- A private draw does not fill the run that takes it. -/
def KeepsPrivate (s : State κ) (dispatch : Dispatch) : Prop :=
  ∀ generated, dispatch = .draw true generated →
    s.pending.fills ⟨s.finished.length, true, generated⟩ = false

/-- The order of PATH1 in a state. -/
structure InOrder (s : State κ) : Prop where
  noFailure : s.worker ≠ .failed ∧ s.mtvuFailed = false
  /-- Other commands are executed in their places among the reservations. -/
  commands : s.ring.executed <+: s.ring.issued
  /-- As many reservations as dispatches have been consumed. -/
  reservations : reservations s.ring.executed = s.consumed.length
  /-- Every dispatch is consumed in its turn, or waits. -/
  dispatches : s.finished = s.consumed ++ (s.queue.flatMap Completion.contents ++
    (s.outbox.flatMap Completion.contents ++ s.pending.contents))
  draws : s.drawsTaken = s.consumed.filterMap Outcome.drawInfo?
  packets : s.packetsTaken <+: packetNumbers 0 s.consumed ∧
    (s.worker = .idle → s.packetsTaken = packetNumbers 0 s.consumed)
  markers : s.markersTaken <+: markerPlaces 0 s.published ∧
    (s.worker = .idle →
      s.markersTaken = (markerPlaces 0 s.published).filter (· ≤ s.consumed.length))
  /-- A marker stands behind a generated draw. -/
  marked : ∀ c ∈ s.published, c.submitGeneratedAfterDraws = true →
    ∃ draw ∈ c.draws, draw.info.generated = true

/-- The marker that the worker has still to execute. -/
def markersDue (s : State κ) : List ℕ :=
  match s.worker with
  | .replay _ true _ => [s.consumed.length]
  | _ => []

/-- The packets that the worker has still to replay, unless it has failed. -/
def ReplayOk (s : State κ) : Prop :=
  match s.worker with
  | .replay packets _ epoch =>
    epoch = none ∧ (packetNumbers 0 s.consumed).length = s.packetsTaken.length + packets
  | .failed => False
  | _ => (packetNumbers 0 s.consumed).length = s.packetsTaken.length

/-- The invariant of the runs that keep private draws pending. -/
structure Ordered (s : State κ) : Prop where
  sound : s.Sound
  ordinary : ∀ number, Outcome.epoch number ∉ s.finished
  waiting : s.waiting = none
  packets : packetNumbers 0 s.finished = s.packetsTaken ++ (s.packets ++ s.packetDue.toList)
  due : s.packetDue.isSome = true →
    ∃ before info, s.pending.contents = before ++ [.draw info] ∧ info.isPrivate = true
  draws : s.drawsTaken = s.consumed.filterMap Outcome.drawInfo?
  markers : markerPlaces 0 s.published =
    s.markersTaken ++ (s.markersDue ++ markerPlaces s.consumed.length s.queue)
  taken : ∀ place ∈ s.markersTaken, place ≤ s.consumed.length
  replay : s.ReplayOk

lemma empty_ordered : (empty : State κ).Ordered where
  sound := empty_sound
  ordinary := nofun
  waiting := rfl
  packets := rfl
  due := nofun
  draws := rfl
  markers := rfl
  taken := nofun
  replay := rfl

end State

end VitaSX2.Path1
