/-
The invariant of the command ring.

One lemma for each program point of the two threads.  The only step that needs a
condition is the one that publishes position zero behind a null packet: the
worker must be in the same lap and must have left position zero, because a read
position of zero would then read as an empty ring.
-/
import VitaSX2.Mtvu.Lap

namespace VitaSX2.Mtvu

open PacketChain

variable {ω : Type*}

/-- The words of the records among packets. -/
def RecordFormat.recordsOf [DecidableEq ω] (format : RecordFormat ω)
    (packets : List (Packet ω)) : List (List ω) :=
  (packets.map Packet.words).filter fun words => words ≠ [format.nullPacket]

/-- The record that has been submitted but is not in the batch yet. -/
def Producer.inFlight : Producer ω → List (List ω)
  | .idle => []
  | .waitOnSize words _ => [words]
  | .publishPendingVifBatch words _ => [words]
  | .waitForChange words _ _ => [words]
  | .writeNullPacket words => [words]
  | .commitWrap words => [words]
  | .write written remaining => [written ++ remaining]

variable {format : RecordFormat ω} {ring ring' : Ring ω} {queue : List (Packet ω)} {last : ℕ}

/-! ### The invariant -/

structure Accepted (format : RecordFormat ω) (words : List ω) : Prop where
  is_record : format.IsRecord words
  fits : words.length < bufferSize

/-- The EE thread is at the end of the packets that it has written. -/
structure Between (format : RecordFormat ω) (ring : Ring ω) (last : ℕ) : Prop where
  last_eq : last = ring.writePos
  in_buffer : ring.writePos < bufferSize
  records : format.AllRecords ring.batch
  pending : ring.pendingVifBatch = false → ring.batch = []

/-- The EE thread waits for the room of a record, or of the null packet before it. -/
structure Waits (format : RecordFormat ω) (ring : Ring ω) (last : ℕ) (words : List ω)
    (wraps : Bool) : Prop extends Between format ring last where
  accepted : Accepted format words
  fits_lap : wraps = false → ring.writePos + words.length ≤ bufferSize - 1

/-- The EE thread writes a record, and keeps behind a worker of the lap before. -/
structure Writes (format : RecordFormat ω) (ring : Ring ω) (last : ℕ)
    (written remaining : List ω) : Prop where
  last_eq : last + written.length = ring.writePos
  holds : Holds ring.buffer last written
  is_record : format.IsRecord (written ++ remaining)
  records : format.AllRecords ring.batch
  pending : ring.pendingVifBatch = false → ring.batch = []
  fits_lap : ring.writePos + remaining.length ≤ bufferSize - 1
  behind : last < ring.atoReadPos → ring.writePos + remaining.length < ring.atoReadPos

/-- The batch ends in the null packet. -/
structure Wraps (format : RecordFormat ω) (ring : Ring ω) (words : List ω) : Prop where
  accepted : Accepted format words
  write_pos : ring.writePos = 0
  batch_eq : ∃ records marker, ring.batch = records ++ [marker] ∧ format.AllRecords records ∧
    marker.words = [format.nullPacket]

def ProducerInv (format : RecordFormat ω) (ring : Ring ω) (last : ℕ) : Prop :=
  match ring.producer with
  | .idle => Between format ring last
  | .waitOnSize words wraps => Waits format ring last words wraps
  | .publishPendingVifBatch words wraps => Waits format ring last words wraps
  | .waitForChange words wraps observed =>
    Waits format ring last words wraps ∧ ring.writePos < observed ∧ ring.pendingVifBatch = false
  | .writeNullPacket words =>
    Waits format ring last words true ∧ (last < ring.atoReadPos → last + 1 < ring.atoReadPos)
  | .commitWrap words => Wraps format ring words
  | .write written remaining => Writes format ring last written remaining

def WorkerInv (format : RecordFormat ω) (ring : Ring ω) (queue : List (Packet ω)) : Prop :=
  match ring.worker with
  | .check => ring.readPos = ring.atoReadPos
  | .read words => ∃ packet rest, queue = packet :: rest ∧ words <+: packet.words ∧
      words ≠ packet.words ∧ ring.readPos = ring.atoReadPos + words.length
  | .commitReadPos words => ∃ packet rest, queue = packet :: rest ∧ packet.words = words ∧
      (words = [format.nullPacket] → ring.readPos = 0) ∧
      (words ≠ [format.nullPacket] → ring.readPos = ring.atoReadPos + words.length)

/-- What the EE thread relies on survives when the worker advances. -/
lemma ProducerInv.advance (h : ProducerInv format ring last)
    (hbuffer : ring'.buffer = ring.buffer) (hwrite : ring'.writePos = ring.writePos)
    (hpending : ring'.pendingVifBatch = ring.pendingVifBatch) (hbatch : ring'.batch = ring.batch)
    (hproducer : ring'.producer = ring.producer)
    (hread : last < ring'.atoReadPos →
      last < ring.atoReadPos ∧ ring.atoReadPos ≤ ring'.atoReadPos) :
    ProducerInv format ring' last := by
  have hbetween : Between format ring last → Between format ring' last := by
    rintro ⟨hlast, hin, hrecords, hempty⟩
    exact ⟨by rw [hwrite, hlast], by rwa [hwrite], by rwa [hbatch], by rwa [hpending, hbatch]⟩
  have hwaits : ∀ words wraps, Waits format ring last words wraps →
      Waits format ring' last words wraps := by
    rintro words wraps ⟨hbase, haccepted, hfits⟩
    exact ⟨hbetween hbase, haccepted, by rwa [hwrite]⟩
  unfold ProducerInv at h ⊢
  rw [hproducer]
  cases hpoint : ring.producer with
  | idle => simp only [hpoint] at h; exact hbetween h
  | waitOnSize words wraps => simp only [hpoint] at h; exact hwaits _ _ h
  | publishPendingVifBatch words wraps => simp only [hpoint] at h; exact hwaits _ _ h
  | waitForChange words wraps observed =>
    simp only [hpoint] at h
    exact ⟨hwaits _ _ h.1, by rw [hwrite]; exact h.2.1, by rw [hpending]; exact h.2.2⟩
  | writeNullPacket words =>
    simp only [hpoint] at h
    refine ⟨hwaits _ _ h.1, fun hlast => ?_⟩
    obtain ⟨hbefore, hle⟩ := hread hlast
    have := h.2 hbefore
    omega
  | commitWrap words =>
    simp only [hpoint] at h
    exact ⟨h.accepted, by rw [hwrite, h.write_pos], by rw [hbatch]; exact h.batch_eq⟩
  | write written remaining =>
    simp only [hpoint] at h
    refine ⟨by rw [hwrite, h.last_eq], by rw [hbuffer]; exact h.holds, h.is_record,
      by rw [hbatch]; exact h.records, by rw [hpending, hbatch]; exact h.pending,
      by rw [hwrite]; exact h.fits_lap, fun hlast => ?_⟩
    obtain ⟨hbefore, hle⟩ := hread hlast
    have := h.behind hbefore
    rw [hwrite]
    omega

lemma WorkerInv.append (h : WorkerInv format ring queue) (packets : List (Packet ω))
    (hread : ring'.readPos = ring.readPos) (hatoRead : ring'.atoReadPos = ring.atoReadPos)
    (hworker : ring'.worker = ring.worker) : WorkerInv format ring' (queue ++ packets) := by
  unfold WorkerInv at h ⊢
  rw [hworker]
  cases hpoint : ring.worker with
  | check => simp only [hpoint] at h; rw [hread, hatoRead, h]
  | read words =>
    simp only [hpoint] at h
    obtain ⟨packet, rest, rfl, hpart⟩ := h
    exact ⟨packet, rest ++ packets, rfl, by rw [hread, hatoRead]; exact hpart⟩
  | commitReadPos words =>
    simp only [hpoint] at h
    obtain ⟨packet, rest, rfl, hpart⟩ := h
    exact ⟨packet, rest ++ packets, rfl, by rw [hread, hatoRead]; exact hpart⟩

lemma WorkerInv.frame (h : WorkerInv format ring queue) (hread : ring'.readPos = ring.readPos)
    (hatoRead : ring'.atoReadPos = ring.atoReadPos) (hworker : ring'.worker = ring.worker) :
    WorkerInv format ring' queue := by
  have := h.append [] hread hatoRead hworker
  rwa [List.append_nil] at this

/-- Publishing the batch leaves the EE thread at the end of its packets. -/
lemma Between.commit (h : Between format ring last) {point : Producer ω} :
    Between format { ring.commitWritePos with producer := point } last :=
  ⟨h.last_eq, h.in_buffer, by simp [RecordFormat.AllRecords, Ring.commitWritePos], fun _ => rfl⟩

lemma Waits.commit {words : List ω} {wraps : Bool} (h : Waits format ring last words wraps)
    {point : Producer ω} :
    Waits format { ring.commitWritePos with producer := point } last words wraps :=
  ⟨h.toBetween.commit, h.accepted, h.fits_lap⟩

variable [DecidableEq ω]

/-- The packets of `queue` are published and not passed by the worker. -/
structure Inv (format : RecordFormat ω) (ring : Ring ω) (queue : List (Packet ω))
    (last : ℕ) : Prop where
  published_eq : ring.published = ring.consumed ++ queue
  submitted_eq : ring.submitted =
    format.recordsOf (ring.published ++ ring.batch) ++ ring.producer.inFlight
  lap : Lap format ring.buffer ring.atoReadPos ring.atoWritePos last queue ring.batch
  producer_inv : ProducerInv format ring last
  worker_inv : WorkerInv format ring queue

lemma inv_initial (buffer : ℕ → ω) : Inv format { buffer := buffer } [] 0 where
  published_eq := rfl
  submitted_eq := rfl
  lap := .same (by simp [RecordFormat.AllRecords]) rfl rfl
  producer_inv := ⟨rfl, show 0 < bufferSize by decide, by simp [RecordFormat.AllRecords], fun _ => rfl⟩
  worker_inv := rfl

/-! ### The VU thread -/

/-- The worker finds packets. -/
lemma inv_check (h : Inv format ring queue last) (hworker : ring.worker = .check)
    (hne : ring.atoReadPos ≠ ring.atoWritePos) :
    Inv format { ring with worker := .read [] } queue last := by
  obtain ⟨hpublished, hsubmitted, hlap, hproducer, hinv⟩ := h
  refine ⟨hpublished, hsubmitted, hlap, hproducer.advance rfl rfl rfl rfl rfl fun h => ⟨h, le_rfl⟩, ?_⟩
  simp only [WorkerInv, hworker] at hinv
  rcases hqueue : queue with _ | ⟨packet, rest⟩
  · exact absurd hqueue (hlap.queue_ne_nil hne)
  · rw [hqueue] at hlap
    refine ⟨packet, rest, rfl, List.nil_prefix, ?_, hinv⟩
    rcases hlap.head.2.2 with hrecord | hnull
    · exact hrecord.ne_nil.symm
    · simp [hnull]

/-- The worker reads a word of the packet that it is in. -/
lemma inv_read {words : List ω} (h : Inv format ring queue last)
    (hworker : ring.worker = .read words) :
    Inv format (ring.readWord format words (ring.buffer ring.readPos)) queue last := by
  obtain ⟨hpublished, hsubmitted, hlap, hproducer, hinv⟩ := h
  simp only [WorkerInv, hworker] at hinv
  obtain ⟨packet, rest, rfl, ⟨after, hafter⟩, hne, hpos⟩ := hinv
  obtain ⟨-, hholds, hkind⟩ := hlap.head
  rcases after with _ | ⟨word, after⟩
  · simp only [List.append_nil] at hafter
    exact absurd hafter hne
  have hword : ring.buffer ring.readPos = word := by
    rw [← hafter] at hholds
    rw [hpos]
    exact hholds.read
  rw [hword, Ring.readWord]
  split
  · -- the null packet
    rename_i hnull
    obtain ⟨rfl, rfl⟩ := hnull
    refine ⟨hpublished, hsubmitted, hlap, hproducer.advance rfl rfl rfl rfl rfl fun h => ⟨h, le_rfl⟩,
      packet, rest, rfl, ?_, ?_⟩
    · rcases hkind with hrecord | hnull
      · exact absurd (by rw [← hafter]; rfl) hrecord.not_null
      · exact hnull
    · exact ⟨fun _ => rfl, fun hne => absurd rfl hne⟩
  · rename_i hnotNull
    have hrecord : format.IsRecord packet.words := by
      rcases hkind with hrecord | hnull
      · exact hrecord
      · rw [hnull] at hafter
        rcases words with _ | ⟨first, words⟩
        · simp only [List.nil_append, List.cons.injEq] at hafter
          exact absurd ⟨rfl, hafter.1⟩ hnotNull
        · simp at hafter
    have hnext : words ++ [word] <+: packet.words := ⟨after, by rw [← hafter]; simp⟩
    split
    · -- the last word of the record
      rename_i hcomplete
      have hall : packet.words = words ++ [word] := by
        by_contra hpart
        rw [hrecord.proper _ hnext (by simp) (Ne.symm hpart)] at hcomplete
        cases hcomplete
      refine ⟨hpublished, hsubmitted, hlap, hproducer.advance rfl rfl rfl rfl rfl fun h => ⟨h, le_rfl⟩,
        packet, rest, rfl, hall, ?_⟩
      have hrecordNe := hrecord.ne_null
      rw [hall] at hrecordNe
      refine ⟨fun hnull => absurd hnull hrecordNe, fun _ => ?_⟩
      rw [List.length_append, List.length_singleton]
      show ring.readPos + 1 = ring.atoReadPos + (words.length + 1)
      omega
    · rename_i hpartial
      refine ⟨hpublished, hsubmitted, hlap, hproducer.advance rfl rfl rfl rfl rfl fun h => ⟨h, le_rfl⟩,
        packet, rest, rfl, hnext, ?_, ?_⟩
      · rintro hall
        rw [hall] at hpartial
        exact hpartial hrecord.complete
      · rw [List.length_append, List.length_singleton]
        show ring.readPos + 1 = ring.atoReadPos + (words.length + 1)
        omega

/-- The worker passes a packet. -/
lemma inv_commitReadPos {words : List ω} (h : Inv format ring queue last)
    (hworker : ring.worker = .commitReadPos words) :
    Inv format
      { ring with
        atoReadPos := ring.readPos
        worker := .check
        consumed := ring.consumed ++ [⟨ring.atoReadPos, words⟩] } queue.tail last := by
  obtain ⟨hpublished, hsubmitted, hlap, hproducer, hinv⟩ := h
  simp only [WorkerInv, hworker] at hinv
  obtain ⟨packet, rest, rfl, rfl, hposNull, hposRecord⟩ := hinv
  have hstart := hlap.head.1
  have hpassed : Lap format ring.buffer ring.readPos ring.atoWritePos last rest ring.batch ∧
      (last < ring.readPos → last < ring.atoReadPos ∧ ring.atoReadPos ≤ ring.readPos) := by
    by_cases hnull : packet.words = [format.nullPacket]
    · rw [hposNull hnull]
      exact ⟨hlap.pass_null hnull, by omega⟩
    · rw [hposRecord hnull]
      exact ⟨hlap.pass_record hnull, fun hlast => ⟨hlap.behind_of_pass hlast, by omega⟩⟩
  refine ⟨?_, hsubmitted, hpassed.1, hproducer.advance rfl rfl rfl rfl rfl hpassed.2, rfl⟩
  show ring.published = _
  rw [hpublished, ← hstart]
  simp

lemma inv_workerStep (h : Inv format ring queue last) :
    ∃ queue', Inv format (ring.workerStep format) queue' last := by
  unfold Ring.workerStep
  cases hworker : ring.worker with
  | check =>
    dsimp only
    split
    · rename_i hne
      exact ⟨queue, inv_check h hworker hne⟩
    · exact ⟨queue, h⟩
  | read words => exact ⟨queue, inv_read h hworker⟩
  | commitReadPos words => exact ⟨queue.tail, inv_commitReadPos h hworker⟩

/-! ### The EE thread -/

lemma recordsOf_append (packets packets' : List (Packet ω)) :
    format.recordsOf (packets ++ packets') =
      format.recordsOf packets ++ format.recordsOf packets' := by
  simp [RecordFormat.recordsOf]

lemma recordsOf_record {start : ℕ} {words : List ω} (h : format.IsRecord words) :
    format.recordsOf [⟨start, words⟩] = [words] := by
  simp [RecordFormat.recordsOf, h.ne_null]

lemma recordsOf_null {start : ℕ} : format.recordsOf [⟨start, [format.nullPacket]⟩] = [] := by
  simp [RecordFormat.recordsOf]

/-- Publishing a batch of records, with a new program point of the EE thread. -/
lemma inv_publish (point : Producer ω) (h : Inv format ring queue last)
    (hlast : last = ring.writePos) (hrecords : format.AllRecords ring.batch)
    (hflight : point.inFlight = ring.producer.inFlight)
    (hproducer : ProducerInv format { ring.commitWritePos with producer := point } last) :
    Inv format { ring.commitWritePos with producer := point } (queue ++ ring.batch) last := by
  obtain ⟨hpublished, hsubmitted, hlap, -, hworker⟩ := h
  refine ⟨?_, ?_, ?_, hproducer, hworker.append _ rfl rfl rfl⟩
  · show ring.published ++ ring.batch = ring.consumed ++ (queue ++ ring.batch)
    rw [hpublished, List.append_assoc]
  · show ring.submitted = format.recordsOf (ring.published ++ ring.batch ++ []) ++ point.inFlight
    rw [hsubmitted, List.append_nil, hflight]
  · show Lap format ring.buffer ring.atoReadPos ring.writePos last (queue ++ ring.batch) []
    rw [← hlast]
    exact hlap.publish hrecords

lemma inv_reserveSpace {words : List ω} (h : Inv format ring queue last)
    (hpoint : ring.producer = .idle) (haccepted : Accepted format words) :
    Inv format (ring.reserveSpace words) queue last := by
  obtain ⟨hpublished, hsubmitted, hlap, hproducer, hworker⟩ := h
  simp only [ProducerInv, hpoint] at hproducer
  refine ⟨hpublished, ?_, hlap, ⟨⟨hproducer.last_eq, hproducer.in_buffer, hproducer.records,
    hproducer.pending⟩, haccepted, fun hfits => ?_⟩, hworker.frame rfl rfl rfl⟩
  · show ring.submitted ++ [words] = _
    rw [hsubmitted, hpoint]
    simp [Producer.inFlight, Ring.reserveSpace]
  · simp only [decide_eq_false_iff_not, Nat.not_lt] at hfits
    exact hfits

/-- The EE thread has room: behind it, or in front of it up to the read position. -/
lemma inv_afterWait {words : List ω} {wraps : Bool} (h : Inv format ring queue last)
    (hwaits : Waits format ring last words wraps) (hflight : ring.producer.inFlight = [words])
    (hroom : ring.atoReadPos ≤ ring.writePos ∨
      ring.atoReadPos > ring.writePos + Ring.waitSize words wraps + fourKb) :
    Inv format { ring with producer := Ring.afterWait words wraps } queue last := by
  obtain ⟨hpublished, hsubmitted, hlap, -, hworker⟩ := h
  have hlast := hwaits.last_eq
  refine ⟨hpublished, ?_, hlap, ?_, hworker.frame rfl rfl rfl⟩
  · show ring.submitted = _ ++ (Ring.afterWait words wraps).inFlight
    rw [hsubmitted, hflight]
    cases wraps <;> rfl
  cases wraps with
  | true =>
    refine ⟨⟨⟨hlast, hwaits.in_buffer, hwaits.records, hwaits.pending⟩, hwaits.accepted,
      hwaits.fits_lap⟩, fun hbehind => ?_⟩
    simp only [Ring.waitSize, if_true] at hroom
    show last + 1 < ring.atoReadPos
    have : last < ring.atoReadPos := hbehind
    omega
  | false =>
    refine ⟨by simpa using hlast, trivial, hwaits.accepted.is_record, hwaits.records,
      hwaits.pending, hwaits.fits_lap rfl, fun hbehind => ?_⟩
    simp only [Ring.waitSize, Bool.false_eq_true, if_false] at hroom
    show ring.writePos + words.length < ring.atoReadPos
    have : last < ring.atoReadPos := hbehind
    omega

lemma inv_waitOnSize {words : List ω} {wraps : Bool} (h : Inv format ring queue last)
    (hpoint : ring.producer = .waitOnSize words wraps) :
    Inv format (ring.waitOnSize words wraps) queue last := by
  have hwaits := h.producer_inv
  simp only [ProducerInv, hpoint] at hwaits
  have hflight : ring.producer.inFlight = [words] := by rw [hpoint]; rfl
  unfold Ring.waitOnSize
  split
  · rename_i hbehind
    exact inv_afterWait h hwaits hflight (.inl hbehind)
  rename_i hfront
  split
  · rename_i hroom
    exact inv_afterWait h hwaits hflight (.inr hroom)
  obtain ⟨hpublished, hsubmitted, hlap, -, hworker⟩ := h
  rw [hflight] at hsubmitted
  have hwaits' : ∀ point, Waits format { ring with producer := point } last words wraps :=
    fun _ => ⟨⟨hwaits.last_eq, hwaits.in_buffer, hwaits.records, hwaits.pending⟩,
      hwaits.accepted, hwaits.fits_lap⟩
  split
  · exact ⟨hpublished, hsubmitted, hlap, hwaits' _, hworker.frame rfl rfl rfl⟩
  · rename_i hpending
    exact ⟨hpublished, hsubmitted, hlap,
      ⟨hwaits' _, by show ring.writePos < ring.atoReadPos; omega, by simpa using hpending⟩,
      hworker.frame rfl rfl rfl⟩

lemma inv_waitForChange {words : List ω} {wraps : Bool} {observed : ℕ}
    (h : Inv format ring queue last)
    (hpoint : ring.producer = .waitForChange words wraps observed) :
    Inv format { ring with producer := .waitOnSize words wraps } queue last := by
  obtain ⟨hpublished, hsubmitted, hlap, hproducer, hworker⟩ := h
  simp only [ProducerInv, hpoint] at hproducer
  obtain ⟨hwaits, -, -⟩ := hproducer
  rw [hpoint] at hsubmitted
  exact ⟨hpublished, hsubmitted, hlap, ⟨⟨hwaits.last_eq, hwaits.in_buffer, hwaits.records,
    hwaits.pending⟩, hwaits.accepted, hwaits.fits_lap⟩, hworker.frame rfl rfl rfl⟩

lemma inv_writeNullPacket {words : List ω} (h : Inv format ring queue last)
    (hpoint : ring.producer = .writeNullPacket words) :
    Inv format
      { ring.writeWord format.nullPacket with
        writePos := 0
        producer := .commitWrap words
        batch := ring.batch ++ [⟨ring.writePos, [format.nullPacket]⟩] } queue (last + 1) := by
  obtain ⟨hpublished, hsubmitted, hlap, hproducer, hworker⟩ := h
  simp only [ProducerInv, hpoint] at hproducer
  obtain ⟨hwaits, hbehind⟩ := hproducer
  obtain rfl := hwaits.last_eq
  refine ⟨hpublished, ?_, ?_, ⟨hwaits.accepted, rfl, _, _, rfl, hwaits.records, rfl⟩,
    hworker.frame rfl rfl rfl⟩
  · show ring.submitted = format.recordsOf (ring.published ++ (ring.batch ++ _)) ++ [words]
    rw [hsubmitted, hpoint, ← List.append_assoc, recordsOf_append (ring.published ++ ring.batch),
      recordsOf_null, List.append_nil]
    rfl
  · have hnull : Holds (Function.update ring.buffer ring.writePos format.nullPacket)
        ring.writePos [format.nullPacket] := ⟨Function.update_self .., trivial⟩
    exact (hlap.update le_rfl fun hlast => hlast).snoc hnull hbehind

/-- The wrap is published in time. -/
lemma inv_commitWrap {words : List ω} (h : Inv format ring queue last)
    (hpoint : ring.producer = .commitWrap words) (hpos : 0 < ring.atoReadPos)
    (hsame : ring.atoReadPos ≤ ring.atoWritePos) :
    Inv format { ring.commitWritePos with producer := .waitOnSize words false }
      (queue ++ ring.batch) 0 := by
  obtain ⟨hpublished, hsubmitted, hlap, hproducer, hworker⟩ := h
  simp only [ProducerInv, hpoint] at hproducer
  obtain ⟨haccepted, hwrite, records, marker, hbatch, hrecords, hmarker⟩ := hproducer
  refine ⟨?_, ?_, ?_, ⟨⟨hwrite.symm, ?_, by simp [RecordFormat.AllRecords, Ring.commitWritePos],
    fun _ => rfl⟩, haccepted, fun _ => ?_⟩, hworker.append _ rfl rfl rfl⟩
  · show ring.published ++ ring.batch = ring.consumed ++ (queue ++ ring.batch)
    rw [hpublished, List.append_assoc]
  · show ring.submitted = format.recordsOf (ring.published ++ ring.batch ++ []) ++ [words]
    rw [hsubmitted, hpoint, List.append_nil]
    rfl
  · show Lap format ring.buffer ring.atoReadPos ring.writePos 0 (queue ++ ring.batch) []
    rw [hbatch] at hlap ⊢
    rw [hwrite]
    exact hlap.wrap hrecords hmarker hpos hsame
  · show ring.writePos < bufferSize
    rw [hwrite]
    decide
  · show ring.writePos + words.length ≤ bufferSize - 1
    have := haccepted.fits
    omega

lemma inv_writeWord {written remaining : List ω} {word : ω} (h : Inv format ring queue last)
    (hpoint : ring.producer = .write written (word :: remaining)) :
    Inv format { ring.writeWord word with producer := .write (written ++ [word]) remaining }
      queue last := by
  obtain ⟨hpublished, hsubmitted, hlap, hproducer, hworker⟩ := h
  simp only [ProducerInv, hpoint] at hproducer
  have hlast := hproducer.last_eq
  have hbehind := hproducer.behind
  have hfits := hproducer.fits_lap
  rw [List.length_cons] at hbehind hfits
  refine ⟨hpublished, ?_, ?_, ⟨?_, ?_, ?_, hproducer.records, hproducer.pending, ?_, ?_⟩,
    hworker.frame rfl rfl rfl⟩
  · show ring.submitted = _ ++ [written ++ [word] ++ remaining]
    rw [hsubmitted, hpoint]
    simp [Producer.inFlight, Ring.writeWord]
  · exact hlap.update (by omega) fun hlt => by have := hbehind hlt; omega
  · show last + (written ++ [word]).length = ring.writePos + 1
    rw [List.length_append, List.length_singleton]
    omega
  · show Holds (Function.update ring.buffer ring.writePos word) last (written ++ [word])
    rw [← hlast]
    exact hproducer.holds.snoc
  · rw [List.append_assoc]
    exact hproducer.is_record
  · show ring.writePos + 1 + remaining.length ≤ bufferSize - 1
    omega
  · intro hlt
    show ring.writePos + 1 + remaining.length < ring.atoReadPos
    have := hbehind hlt
    omega

/-- A whole record joins the batch. -/
lemma inv_endRecord {written : List ω} (h : Inv format ring queue last)
    (hpoint : ring.producer = .write written []) :
    Inv format { ring.endRecord written with pendingVifBatch := true } queue ring.writePos := by
  obtain ⟨hpublished, hsubmitted, hlap, hproducer, hworker⟩ := h
  simp only [ProducerInv, hpoint] at hproducer
  have hlast := hproducer.last_eq
  have hstart : ring.writePos - written.length = last := by omega
  have hrecord := hproducer.is_record
  rw [List.append_nil] at hrecord
  have hfits := hproducer.fits_lap
  have hbuffer : 0 < bufferSize := by decide
  refine ⟨hpublished, ?_, ?_, ⟨rfl, ?_, ?_, fun hpending => by cases hpending⟩,
    hworker.frame rfl rfl rfl⟩
  · show ring.submitted = format.recordsOf (ring.published ++ (ring.batch ++ _)) ++ []
    rw [hsubmitted, hpoint, ← List.append_assoc, recordsOf_append (ring.published ++ ring.batch),
      recordsOf_record hrecord, List.append_nil, Producer.inFlight, List.append_nil]
  · show Lap format ring.buffer ring.atoReadPos ring.atoWritePos ring.writePos queue
      (ring.batch ++ [⟨ring.writePos - written.length, written⟩])
    rw [hstart, ← hlast]
    refine hlap.snoc hproducer.holds fun hlt => ?_
    have := hproducer.behind hlt
    rw [List.length_nil] at this
    omega
  · show ring.writePos < bufferSize
    rw [List.length_nil] at hfits
    omega
  · refine hproducer.records.append ?_
    simpa [RecordFormat.AllRecords] using hrecord

end VitaSX2.Mtvu
