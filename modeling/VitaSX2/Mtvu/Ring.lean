/-
The command ring between the EE thread and the VU thread (`MTVU.cpp`).

The EE thread writes records of words and publishes its write position; the VU
thread reads record after record and publishes its read position.  Every step of
either thread makes one access to memory that the other one sees: a word of the
buffer or one of the two published positions.

`published`, `batch`, `consumed` and `submitted` are a history that no step reads.
-/
import Mathlib.Algebra.Group.Nat.Defs
import VitaSX2.Lib.PacketChain

namespace VitaSX2.Mtvu

open PacketChain

/-- `VU_Thread::buffer_size`, in words. -/
def bufferSize : ℕ := 2 ^ 20 * 16 / 4

/-- `_4kb`, the safety net of `WaitOnSize`. -/
def fourKb : ℕ := 4096

/-- The words of records as the worker reads them: `MTVU_NULL_PACKET`, and whether
the words read so far, from the tag on, are a whole record. -/
structure RecordFormat (ω : Type*) where
  nullPacket : ω
  complete : List ω → Bool

/-- The worker takes the words for one record. -/
structure RecordFormat.IsRecord {ω : Type*} (format : RecordFormat ω) (words : List ω) :
    Prop where
  ne_nil : words ≠ []
  not_null : words.head? ≠ some format.nullPacket
  complete : format.complete words = true
  proper : ∀ before, before <+: words → before ≠ [] → before ≠ words →
    format.complete before = false

/-- Where the EE thread is; the words are those of the record it writes. -/
inductive Producer (ω : Type*)
  | idle
  /-- before the load of the read position in `WaitOnSize` -/
  | waitOnSize (words : List ω) (wraps : Bool)
  /-- before the store of `PublishPendingVifBatch` in `WaitOnSize` -/
  | publishPendingVifBatch (words : List ω) (wraps : Bool)
  /-- in `WaitForChange`, with the read position it has seen -/
  | waitForChange (words : List ω) (wraps : Bool) (observed : ℕ)
  /-- before the word `MTVU_NULL_PACKET` -/
  | writeNullPacket (words : List ω)
  /-- before the `CommitWritePos` behind it -/
  | commitWrap (words : List ω)
  /-- between the `Write`s of a record -/
  | write (written remaining : List ω)

/-- Where the VU thread is. -/
inductive Worker (ω : Type*)
  /-- before the load of the write position -/
  | check
  /-- before the `Read` behind the words of a record -/
  | read (words : List ω)
  /-- before `CommitReadPos`, with the words of the packet -/
  | commitReadPos (words : List ω)

structure Ring (ω : Type*) where
  buffer : ℕ → ω
  atoReadPos : ℕ := 0
  atoWritePos : ℕ := 0
  readPos : ℕ := 0
  writePos : ℕ := 0
  pendingVifBatch : Bool := false
  producer : Producer ω := .idle
  worker : Worker ω := .check
  /-- the packets up to the published write position -/
  published : List (Packet ω) := []
  /-- the records behind it -/
  batch : List (Packet ω) := []
  /-- the packets as the worker has read them, up to the published read position -/
  consumed : List (Packet ω) := []
  /-- the records that the EE thread was given -/
  submitted : List (List ω) := []

/-- What the EE thread is asked to do between and behind its records. -/
inductive Request (ω : Type*)
  /-- a record of the given words -/
  | record (words : List ω)
  /-- `CommitWritePos` behind a record, `PublishPendingVifBatch` between records -/
  | publish
  /-- leave the record behind in the pending batch -/
  | keep

namespace Ring

variable {ω : Type*}

/-! ### The EE thread -/

/-- `CommitWritePos`. -/
def commitWritePos (ring : Ring ω) : Ring ω :=
  { ring with
    atoWritePos := ring.writePos
    pendingVifBatch := false
    published := ring.published ++ ring.batch
    batch := [] }

/-- The first part of `ReserveSpace`: whether the record needs a wrap. -/
def reserveSpace (words : List ω) (ring : Ring ω) : Ring ω :=
  { ring with
    producer := .waitOnSize words (ring.writePos + words.length > bufferSize - 1)
    submitted := ring.submitted ++ [words] }

/-- The size for which `ReserveSpace` calls `WaitOnSize`. -/
def waitSize (words : List ω) (wraps : Bool) : ℕ := if wraps then 1 else words.length

/-- What follows `WaitOnSize`. -/
def afterWait (words : List ω) (wraps : Bool) : Producer ω :=
  if wraps then .writeNullPacket words else .write [] words

/-- A turn of the loop of `WaitOnSize`. -/
def waitOnSize (words : List ω) (wraps : Bool) (ring : Ring ω) : Ring ω :=
  if ring.atoReadPos ≤ ring.writePos then { ring with producer := afterWait words wraps }
  else if ring.atoReadPos > ring.writePos + waitSize words wraps + fourKb then
    { ring with producer := afterWait words wraps }
  else if ring.pendingVifBatch then
    { ring with producer := .publishPendingVifBatch words wraps }
  else { ring with producer := .waitForChange words wraps ring.atoReadPos }

/-- `Write`. -/
def writeWord (word : ω) (ring : Ring ω) : Ring ω :=
  { ring with
    buffer := Function.update ring.buffer ring.writePos word
    writePos := ring.writePos + 1 }

/-- A record that is written whole joins the batch. -/
def endRecord (words : List ω) (ring : Ring ω) : Ring ω :=
  { ring with
    producer := .idle
    batch := ring.batch ++ [⟨ring.writePos - words.length, words⟩] }

/-- A step of the EE thread. -/
def producerStep (format : RecordFormat ω) (request : Request ω) (ring : Ring ω) :
    Option (Ring ω) :=
  match ring.producer with
  | .idle =>
    match request with
    | .record words => if words.length < bufferSize then some (ring.reserveSpace words) else none
    | .publish => if ring.pendingVifBatch then some ring.commitWritePos else none
    | .keep => none
  | .waitOnSize words wraps => some (ring.waitOnSize words wraps)
  | .publishPendingVifBatch words wraps =>
    some { ring.commitWritePos with producer := .waitOnSize words wraps }
  | .waitForChange words wraps observed =>
    if ring.atoReadPos ≠ observed then some { ring with producer := .waitOnSize words wraps }
    else none
  | .writeNullPacket words =>
    some { ring.writeWord format.nullPacket with
      writePos := 0
      producer := .commitWrap words
      batch := ring.batch ++ [⟨ring.writePos, [format.nullPacket]⟩] }
  | .commitWrap words => some { ring.commitWritePos with producer := .waitOnSize words false }
  | .write written [] =>
    match request with
    | .publish => some (ring.endRecord written).commitWritePos
    | .keep => some { ring.endRecord written with pendingVifBatch := true }
    | .record _ => none
  | .write written (word :: remaining) =>
    some { ring.writeWord word with producer := .write (written ++ [word]) remaining }

/-! ### The VU thread -/

/-- `Read`, and what the worker does behind it: the tag may be the null packet,
which puts the read position back to zero. -/
def readWord (format : RecordFormat ω) (words : List ω) (word : ω) (ring : Ring ω)
    [DecidableEq ω] : Ring ω :=
  if words = [] ∧ word = format.nullPacket then
    { ring with readPos := 0, worker := .commitReadPos [word] }
  else if format.complete (words ++ [word]) then
    { ring with readPos := ring.readPos + 1, worker := .commitReadPos (words ++ [word]) }
  else { ring with readPos := ring.readPos + 1, worker := .read (words ++ [word]) }

/-- A step of the VU thread. -/
def workerStep (format : RecordFormat ω) (ring : Ring ω) [DecidableEq ω] : Ring ω :=
  match ring.worker with
  | .check =>
    if ring.atoReadPos ≠ ring.atoWritePos then { ring with worker := .read [] } else ring
  | .read words => ring.readWord format words (ring.buffer ring.readPos)
  | .commitReadPos words =>
    { ring with
      atoReadPos := ring.readPos
      worker := .check
      consumed := ring.consumed ++ [⟨ring.atoReadPos, words⟩] }

end Ring

/-! ### Runs -/

/-- Who takes a step. -/
inductive Thread (ω : Type*)
  | ee (request : Request ω)
  | vu

variable {ω : Type*} [DecidableEq ω]

def Ring.step (format : RecordFormat ω) (thread : Thread ω) (ring : Ring ω) : Option (Ring ω) :=
  match thread with
  | .ee request => ring.producerStep format request
  | .vu => some (ring.workerStep format)

/-- The records that the EE thread is given are records to the worker. -/
def Thread.Submits (format : RecordFormat ω) : Thread ω → Prop
  | .ee (.record words) => format.IsRecord words
  | _ => True

/-- A step of the ring. -/
def Step (format : RecordFormat ω) (ring ring' : Ring ω) : Prop :=
  ∃ thread : Thread ω, thread.Submits format ∧ ring.step format thread = some ring'

end VitaSX2.Mtvu
