/-
The command ring as a queue.

`Faithful` says what the ring promises in a state: the worker has consumed a
prefix of the published packets with the words that were written, the EE thread
writes into no packet that the worker has not passed, a ring with packets does
not look empty, and the EE thread waits only while there are packets.  It holds
throughout every run that publishes position zero only while the worker is in
the same lap and has left position zero; a run that fills the ring before the
worker has passed its first record breaks it.
-/
import VitaSX2.Mtvu.Invariant
import Mathlib.Logic.Relation

namespace VitaSX2.Mtvu

open PacketChain Relation

variable {ω : Type*} [DecidableEq ω]

/-- The position that the next step of the EE thread writes to. -/
def Ring.nextWrite (ring : Ring ω) : Option ℕ :=
  match ring.producer with
  | .writeNullPacket _ => some ring.writePos
  | .write _ (_ :: _) => some ring.writePos
  | _ => none

/-- The part of `IsDone` that reads the ring. -/
def Ring.isDone (ring : Ring ω) : Bool :=
  ring.atoReadPos == ring.atoWritePos && !ring.pendingVifBatch

structure Faithful (format : RecordFormat ω) (ring : Ring ω) : Prop where
  /-- the worker consumes the published packets in order, with the words that were written -/
  fifo : ring.consumed <+: ring.published
  /-- the published packets are the submitted records in order, and null packets -/
  publishes_submitted : format.recordsOf ring.published <+: ring.submitted
  /-- no word of a packet that the worker has not passed is written -/
  no_overwrite : ∀ x, ring.nextWrite = some x → x < bufferSize ∧
    ∀ packet ∈ ring.published.drop ring.consumed.length ++ ring.batch, packet.Avoids x
  /-- a ring with packets does not look empty -/
  not_empty : ring.consumed ≠ ring.published → ring.atoReadPos ≠ ring.atoWritePos
  /-- `IsDone` is not early -/
  done : ring.producer = .idle → ring.isDone = true →
    format.recordsOf ring.consumed = ring.submitted
  /-- the EE thread sleeps only while there are packets -/
  waits : ∀ words wraps, ring.producer = .waitForChange words wraps ring.atoReadPos →
    ring.consumed ≠ ring.published

/-- When a step of the EE thread publishes position zero behind a null packet,
the worker is in the same lap and has left position zero. -/
def Ring.WrapsInTime (ring : Ring ω) (thread : Thread ω) : Prop :=
  match thread, ring.producer with
  | .ee _, .commitWrap _ => 0 < ring.atoReadPos ∧ ring.atoReadPos ≤ ring.atoWritePos
  | _, _ => True

/-- A step that does not publish position zero too early. -/
def TimelyStep (format : RecordFormat ω) (ring ring' : Ring ω) : Prop :=
  ∃ thread : Thread ω, thread.Submits format ∧ ring.WrapsInTime thread ∧
    ring.step format thread = some ring'

variable {format : RecordFormat ω} {ring ring' : Ring ω} {queue : List (Packet ω)} {last : ℕ}

/-! ### Every run -/

lemma faithful_of_inv (h : Inv format ring queue last) : Faithful format ring := by
  obtain ⟨hpublished, hsubmitted, hlap, hproducer, -⟩ := h
  have hqueue : ring.consumed = ring.published → queue = [] := by
    intro heq
    rw [hpublished] at heq
    simpa using heq
  constructor
  · exact ⟨queue, hpublished.symm⟩
  · rw [hsubmitted, recordsOf_append, List.append_assoc]
    exact List.prefix_append _ _
  · intro x hx
    have hdrop : ring.published.drop ring.consumed.length = queue := by
      rw [hpublished, List.drop_left]
    rw [hdrop]
    unfold Ring.nextWrite at hx
    unfold ProducerInv at hproducer
    split at hx
    · -- the null packet
      rename_i words hpoint
      simp only [hpoint] at hproducer
      cases hx
      obtain ⟨hwaits, -⟩ := hproducer
      have hlast := hwaits.last_eq
      exact ⟨hwaits.in_buffer, hlap.avoids (by omega) fun hlt => by omega⟩
    · -- a word of a record
      rename_i written word remaining hpoint
      simp only [hpoint] at hproducer
      cases hx
      have hlast := hproducer.last_eq
      have hfits := hproducer.fits_lap
      have hbehind := hproducer.behind
      rw [List.length_cons] at hfits hbehind
      exact ⟨by omega, hlap.avoids (by omega) fun hlt => by have := hbehind hlt; omega⟩
    · cases hx
  · intro hne heq
    apply hne
    rw [hpublished, hlap.queue_eq_nil heq, List.append_nil]
  · intro hidle hdone
    simp only [Ring.isDone, Bool.and_eq_true, beq_iff_eq, Bool.not_eq_true'] at hdone
    simp only [ProducerInv, hidle] at hproducer
    rw [hsubmitted, hidle, hproducer.pending hdone.2, hpublished, hlap.queue_eq_nil hdone.1]
    simp [Producer.inFlight]
  · intro words wraps hpoint heq
    simp only [ProducerInv, hpoint] at hproducer
    obtain ⟨hwaits, hlt, hpending⟩ := hproducer
    have hbatch := hlap.le_last
    have hlast := hwaits.last_eq
    exact hlap.queue_ne_nil (by omega) (hqueue heq)

lemma inv_producerStep {request : Request ω} (h : Inv format ring queue last)
    (hsubmits : (Thread.ee request).Submits format) (htime : ring.WrapsInTime (.ee request))
    (hstep : ring.producerStep format request = some ring') :
    ∃ queue' last', Inv format ring' queue' last' := by
  have hproducer := h.producer_inv
  unfold ProducerInv at hproducer
  unfold Ring.producerStep at hstep
  cases hpoint : ring.producer with
  | idle =>
    simp only [hpoint] at hstep hproducer
    cases request with
    | record words =>
      dsimp only at hstep
      split at hstep
      · rename_i hfits
        cases hstep
        exact ⟨_, _, inv_reserveSpace h hpoint ⟨hsubmits, hfits⟩⟩
      · cases hstep
    | publish =>
      dsimp only at hstep
      split at hstep
      · cases hstep
        have hnext := inv_publish .idle h hproducer.last_eq hproducer.records
          (by rw [hpoint]) hproducer.commit
        rw [← hpoint] at hnext
        exact ⟨_, _, hnext⟩
      · cases hstep
    | keep => cases hstep
  | waitOnSize words wraps =>
    simp only [hpoint] at hstep
    cases hstep
    exact ⟨_, _, inv_waitOnSize h hpoint⟩
  | publishPendingVifBatch words wraps =>
    simp only [hpoint] at hstep hproducer
    cases hstep
    exact ⟨_, _, inv_publish _ h hproducer.last_eq hproducer.records (by rw [hpoint]; rfl)
      hproducer.commit⟩
  | waitForChange words wraps observed =>
    simp only [hpoint] at hstep
    split at hstep
    · cases hstep
      exact ⟨_, _, inv_waitForChange h hpoint⟩
    · cases hstep
  | writeNullPacket words =>
    simp only [hpoint] at hstep
    cases hstep
    exact ⟨_, _, inv_writeNullPacket h hpoint⟩
  | commitWrap words =>
    simp only [hpoint] at hstep
    cases hstep
    simp only [Ring.WrapsInTime, hpoint] at htime
    exact ⟨_, _, inv_commitWrap h hpoint htime.1 htime.2⟩
  | write written remaining =>
    cases remaining with
    | nil =>
      simp only [hpoint] at hstep
      have hend := inv_endRecord h hpoint
      cases request with
      | record words => cases hstep
      | publish =>
        cases hstep
        have hbetween : Between format _ _ := hend.producer_inv
        exact ⟨_, _, inv_publish .idle hend hbetween.last_eq hbetween.records rfl
          hbetween.commit⟩
      | keep =>
        cases hstep
        exact ⟨_, _, hend⟩
    | cons word remaining =>
      simp only [hpoint] at hstep
      cases hstep
      exact ⟨_, _, inv_writeWord h hpoint⟩

lemma inv_timelyStep (h : Inv format ring queue last) (hstep : TimelyStep format ring ring') :
    ∃ queue' last', Inv format ring' queue' last' := by
  obtain ⟨thread, hsubmits, htime, hstep⟩ := hstep
  cases thread with
  | ee request => exact inv_producerStep h hsubmits htime hstep
  | vu =>
    cases hstep
    obtain ⟨queue', hnext⟩ := inv_workerStep h
    exact ⟨queue', last, hnext⟩

lemma inv_of_run {buffer : ℕ → ω}
    (h : ReflTransGen (TimelyStep format) { buffer := buffer } ring) :
    ∃ queue last, Inv format ring queue last := by
  induction h with
  | refl => exact ⟨[], 0, inv_initial buffer⟩
  | tail _ hstep ih =>
    obtain ⟨queue, last, hinv⟩ := ih
    exact inv_timelyStep hinv hstep

/-- Records that begin with their length. -/
def lengthFormat : RecordFormat ℕ where
  nullPacket := 0
  complete words := words.head? == some words.length

def lengthRecord (size : ℕ) : List ℕ := size :: List.replicate (size - 1) 0

lemma length_lengthRecord {size : ℕ} (h : 0 < size) : (lengthRecord size).length = size := by
  simp only [lengthRecord, List.length_cons, List.length_replicate]
  omega

lemma isRecord_lengthRecord {size : ℕ} (h : 0 < size) :
    lengthFormat.IsRecord (lengthRecord size) where
  ne_nil := by simp [lengthRecord]
  not_null := by
    simp only [lengthRecord, lengthFormat, List.head?_cons, ne_eq, Option.some.injEq]
    omega
  complete := by
    show ((lengthRecord size).head? == some (lengthRecord size).length) = true
    rw [length_lengthRecord h]
    simp [lengthRecord]
  proper := by
    intro before hleading hne hpart
    have hlt : before.length < size := by
      have hle := hleading.length_le
      rw [length_lengthRecord h] at hle
      refine Nat.lt_of_le_of_ne hle fun heq => hpart ?_
      exact hleading.eq_of_length (by rw [heq, length_lengthRecord h])
    obtain ⟨after, hafter⟩ := hleading
    rcases before with _ | ⟨first, before⟩
    · exact absurd rfl hne
    · have hfirst : first = size := (List.cons.inj hafter).1
      show (some first == some (first :: before).length) = false
      rw [beq_eq_false_iff_ne, ne_eq, Option.some.injEq]
      omega

lemma step_ee (request : Request ω) (hsubmits : (Thread.ee request).Submits format)
    (htime : ring.WrapsInTime (.ee request))
    (hstep : ring.producerStep format request = some ring') : TimelyStep format ring ring' :=
  ⟨.ee request, hsubmits, htime, hstep⟩

/-- The EE thread writes the words of a record. -/
lemma run_writes (remaining : List ω) :
    ∀ (ring : Ring ω) (written : List ω), ring.producer = .write written remaining →
      ∃ buffer, ReflTransGen (TimelyStep format) ring
        { ring with
          buffer := buffer
          writePos := ring.writePos + remaining.length
          producer := .write (written ++ remaining) [] } := by
  induction remaining with
  | nil =>
    intro ring written hpoint
    refine ⟨ring.buffer, ?_⟩
    rw [List.append_nil, ← hpoint]
    exact .refl
  | cons word remaining ih =>
    intro ring written hpoint
    have hstep : TimelyStep format ring
        { ring.writeWord word with producer := .write (written ++ [word]) remaining } :=
      step_ee .keep trivial (by simp only [Ring.WrapsInTime, hpoint])
        (by rw [Ring.producerStep, hpoint])
    obtain ⟨buffer, hrun⟩ := ih
      { ring.writeWord word with producer := .write (written ++ [word]) remaining }
      (written ++ [word]) rfl
    have hpos : ring.writePos + (word :: remaining).length =
        ring.writePos + 1 + remaining.length := by
      rw [List.length_cons]
      omega
    rw [hpos, List.append_cons]
    exact ⟨buffer, .head hstep hrun⟩

/-- The worker has not moved, and the EE thread has published all it has written. -/
structure Filled (ring : Ring ω) (submitted : List (List ω)) (writePos : ℕ) : Prop where
  producer : ring.producer = .idle
  consumed : ring.consumed = []
  published : ring.published.length = submitted.length
  batch : ring.batch = []
  submitted : ring.submitted = submitted
  read_pos : ring.atoReadPos = 0
  write_pos : ring.writePos = writePos

variable {submitted : List (List ω)} {words : List ω} {writePos : ℕ}

/-- With a read position of zero the EE thread never waits. -/
lemma run_reserveSpace (h : Filled ring submitted writePos) (hwords : format.IsRecord words)
    (hsize : words.length < bufferSize) :
    ReflTransGen (TimelyStep format) ring
      { ring with
        producer := Ring.afterWait words (ring.writePos + words.length > bufferSize - 1)
        submitted := ring.submitted ++ [words] } := by
  have hreserve : TimelyStep format ring (ring.reserveSpace words) := by
    refine step_ee (.record words) hwords (by simp only [Ring.WrapsInTime, h.producer]) ?_
    rw [Ring.producerStep, h.producer]
    exact if_pos hsize
  refine .tail (.single hreserve) (step_ee .keep trivial trivial ?_)
  have hread : (ring.reserveSpace words).atoReadPos ≤ (ring.reserveSpace words).writePos := by
    show ring.atoReadPos ≤ ring.writePos
    rw [h.read_pos]
    exact Nat.zero_le _
  show some ((ring.reserveSpace words).waitOnSize words _) = _
  rw [Ring.waitOnSize, if_pos hread]
  rfl

/-- A record that fits into the lap is published. -/
lemma run_record (h : Filled ring submitted writePos) (hwords : format.IsRecord words)
    (hfits : writePos + words.length ≤ bufferSize - 1) :
    ∃ ring', ReflTransGen (TimelyStep format) ring ring' ∧
      Filled ring' (submitted ++ [words]) (writePos + words.length) := by
  have hpositive : 0 < bufferSize := by decide
  have hreserve := run_reserveSpace h hwords (by omega)
  rw [show decide (ring.writePos + words.length > bufferSize - 1) = false by
    rw [decide_eq_false_iff_not, h.write_pos]; omega] at hreserve
  obtain ⟨buffer, hwrite⟩ := @run_writes ω _ format words
    { ring with
      producer := Ring.afterWait words false
      submitted := ring.submitted ++ [words] } [] rfl
  refine ⟨_, (hreserve.trans hwrite).tail (step_ee .publish trivial trivial rfl), rfl,
    h.consumed, ?_, rfl, ?_, h.read_pos, ?_⟩
  · show (ring.published ++ (ring.batch ++ [_])).length = _
    simp [h.batch, h.published]
  · show ring.submitted ++ [words] = _
    rw [h.submitted]
  · show ring.writePos + words.length = _
    rw [h.write_pos]

lemma run_records (buffer : ℕ → ω) (hwords : format.IsRecord words) (count : ℕ)
    (hfits : count * words.length ≤ bufferSize - 1) :
    ∃ ring, ReflTransGen (TimelyStep format) { buffer := buffer } ring ∧
      Filled ring (List.replicate count words) (count * words.length) := by
  induction count with
  | zero => exact ⟨_, .refl, rfl, rfl, rfl, rfl, rfl, rfl, (Nat.zero_mul _).symm⟩
  | succ count ih =>
    rw [Nat.succ_mul] at hfits
    obtain ⟨ring, hrun, hfilled⟩ := ih (by omega)
    obtain ⟨ring', hrun', hfilled'⟩ := run_record hfilled hwords hfits
    rw [← List.replicate_succ', ← Nat.succ_mul] at hfilled'
    exact ⟨ring', hrun.trans hrun', hfilled'⟩

lemma run_of_timelyRun (h : ReflTransGen (TimelyStep format) ring ring') :
    ReflTransGen (Step format) ring ring' := by
  refine ReflTransGen.mono ?_ _ _ h
  rintro before after ⟨thread, hsubmits, -, hstep⟩
  exact ⟨thread, hsubmits, hstep⟩

/-- A record that does not fit any more makes the ring look empty. -/
lemma run_overflow (h : Filled ring submitted writePos) (hwords : format.IsRecord words)
    (hsize : words.length < bufferSize) (hfull : bufferSize - 1 < writePos + words.length) :
    ∃ ring', ReflTransGen (Step format) ring ring' ∧ ring'.submitted = submitted ++ [words] ∧
      ring'.consumed ≠ ring'.published ∧ ring'.atoReadPos = ring'.atoWritePos := by
  have hreserve := run_reserveSpace h hwords hsize
  rw [show decide (ring.writePos + words.length > bufferSize - 1) = true by
    rw [decide_eq_true_eq, h.write_pos]; exact hfull] at hreserve
  have hmarker : Step format
      { ring with
        producer := Ring.afterWait words true
        submitted := ring.submitted ++ [words] } _ := ⟨.ee .keep, trivial, rfl⟩
  refine ⟨_, ((run_of_timelyRun hreserve).tail hmarker).tail
    ⟨.ee .keep, trivial, rfl⟩, ?_, ?_, h.read_pos⟩
  · show ring.submitted ++ [words] = _
    rw [h.submitted]
  · show ring.consumed ≠ ring.published ++ (ring.batch ++ [_])
    rw [h.consumed]
    simp

end VitaSX2.Mtvu
