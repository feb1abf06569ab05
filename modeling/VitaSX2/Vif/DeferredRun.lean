/-
Deferred UNPACKs against eager ones.

The invariant of a run is that the worker, once it has replayed its journal, and
then executed the records that it has not handled yet, stands where an eager
worker stands.  A captured span, a merge, a drop and a replay keep it.  A write to
the rows or the columns keeps it when no span of the journal uses them; the
worker does not replay the journal first.
-/
import VitaSX2.Vif.DeferredSpan

namespace VitaSX2.Vif

/-! ### The calls of the EE side -/

inductive VifCall
  | vifUnpack (command : UnpackCommand) (data : ℕ → Byte) (size : ℕ)
  | writeRow (maskRow : Lanes 4 32)
  | writeCol (maskCol : Lanes 4 32)
  | writeDataMem (address : ℕ) (data : ℕ → Byte) (size : ℕ)
  | publishPendingVifBatch
  | waitVu

/-- What a call finds: whether the input is retained, the answer of the capture,
and whether the write position wraps. -/
structure CallOutcome where
  retainImmutableInput : Bool := false
  captured : Option RawVifPayloadRef := none
  wraps : Bool := false

def VifProducer.call (producer : VifProducer) (outcome : CallOutcome) : VifCall → VifProducer
  | .vifUnpack command data size =>
    producer.vifUnpack outcome.retainImmutableInput outcome.captured outcome.wraps command data size
  | .writeRow maskRow => producer.publish outcome.wraps (.vifWriteRow maskRow)
  | .writeCol maskCol => producer.publish outcome.wraps (.vifWriteCol maskCol)
  | .writeDataMem address data size =>
    producer.publish outcome.wraps (.vuWriteData address size data)
  | .publishPendingVifBatch => producer.publishPendingVifBatch
  | .waitVu => producer.publish outcome.wraps .flushVifUnpacks

/-- A captured payload holds the data of the UNPACK. -/
structure Captures (arena : PayloadArena) (data : ℕ → Byte) (payloadSize : ℕ)
    (payload : RawVifPayloadRef) : Prop where
  valid : payload.isValid = true
  range : isInputRingLogicalRange payload.offset payload.size = true
  size : payload.size = payloadSize
  bytes : ∀ k < payloadSize,
    arena payload.owner payload.slot payload.generation (payload.offset + k) = data k

/-- An UNPACK is complete, and a capture keeps its data. -/
def CallAllowed (arena : PayloadArena) (producer : VifProducer) (outcome : CallOutcome) :
    VifCall → Prop
  | .vifUnpack command data size =>
    command.Completed ∧ ∀ payloadSize payload,
      producer.captureSize command size = some payloadSize → outcome.captured = some payload →
        Captures arena data payloadSize payload
  | _ => True

/-! ### The eager worker -/

/-- A worker without a journal. -/
@[ext]
structure EagerVif where
  vector : VectorState
  maskCol : Lanes 4 32

/-- The UNPACK of a call is executed in its place. -/
def EagerVif.call (newVifDynaRec : Bool) (eager : EagerVif) : VifCall → EagerVif
  | .vifUnpack command data _ =>
    { eager with vector := mtvuUnpack newVifDynaRec command eager.maskCol data eager.vector }
  | .writeRow maskRow => { eager with vector := eager.vector.withRow maskRow }
  | .writeCol maskCol => { eager with maskCol := maskCol }
  | .writeDataMem address data size =>
    { eager with
      vector := { eager.vector with memory := memcpy eager.vector.memory address data size } }
  | .publishPendingVifBatch => eager
  | .waitVu => eager

/-- A record executed at once. -/
def EagerVif.executeRecord (newVifDynaRec : Bool)
    (resolve : RawVifPayloadRef → Option (ℕ → Byte)) (eager : EagerVif) : MtvuRecord → EagerVif
  | .nullPacket => eager
  | .vuWriteData address size data => eager.call newVifDynaRec (.writeDataMem address data size)
  | .vifWriteCol maskCol => eager.call newVifDynaRec (.writeCol maskCol)
  | .vifWriteRow maskRow => eager.call newVifDynaRec (.writeRow maskRow)
  | .vifUnpack command data size => eager.call newVifDynaRec (.vifUnpack command data size)
  | .vifUnpackCaptured span =>
    { eager with
      vector := replayVifUnpackSpan newVifDynaRec resolve eager.maskCol eager.vector span }
  | .flushVifUnpacks => eager

/-! ### The worker -/

/-- The spans of the journal are replayed with the registers that they were meant
for: a write to the rows or the columns meets none that uses them. -/
def Undisturbed (worker : VifWorker) : MtvuRecord → Prop
  | .vifWriteRow _ => ∀ span ∈ worker.deferredVifUnpacks, ¬span.unpackCommand.UsesRow
  | .vifWriteCol _ => ∀ span ∈ worker.deferredVifUnpacks, ¬span.unpackCommand.UsesColumn
  | _ => True

def RecordReady : MtvuRecord → Prop
  | .vifUnpackCaptured span => span.Ready
  | _ => True

section Worker

variable (newVifDynaRec : Bool) {arena : PayloadArena}
  (resolve : RawVifPayloadRef → Option (ℕ → Byte)) {worker : VifWorker}

/-- The worker behind the replay of its journal. -/
def VifWorker.settled (worker : VifWorker) : EagerVif where
  vector := (worker.replayDeferredVifUnpacks newVifDynaRec resolve).vector
  maskCol := worker.maskCol

variable {newVifDynaRec resolve}

/-- Appending a span executes it behind the journal. -/
lemma settled_append (hresolves : Resolves arena resolve)
    (hjournal : ∀ span ∈ worker.deferredVifUnpacks, span.Ready) {span : VifUnpackSpan}
    (hspan : span.Ready) :
    (worker.appendDeferredVifUnpack newVifDynaRec resolve span).settled newVifDynaRec resolve =
        (worker.settled newVifDynaRec resolve).executeRecord newVifDynaRec resolve
          (.vifUnpackCaptured span) ∧
      ∀ kept ∈ (worker.appendDeferredVifUnpack newVifDynaRec resolve span).deferredVifUnpacks,
        kept.Ready := by
  have hdrop : replayVifUnpackSpans newVifDynaRec resolve worker.maskCol
      (worker.deferredVifUnpacks.filter (fun older => !directAffineSpanFullyOverwrites span older) ++
        [span]) worker.vector =
      replayVifUnpackSpan newVifDynaRec resolve worker.maskCol
        (replayVifUnpackSpans newVifDynaRec resolve worker.maskCol worker.deferredVifUnpacks
          worker.vector) span :=
    (replay_drop hresolves hjournal hspan worker.maskCol worker.vector).trans
      (Deferral.replay_append _ _ _ _)
  have hkept : ∀ older ∈ worker.deferredVifUnpacks.filter
      (fun older => !directAffineSpanFullyOverwrites span older), older.Ready := fun older holder =>
    hjournal older (List.mem_of_mem_filter holder)
  unfold VifWorker.appendDeferredVifUnpack
  dsimp only
  split
  next hfull =>
    -- the journal is full: it is replayed, and the span starts a new one
    constructor
    · refine EagerVif.ext ?_ rfl
      refine Eq.trans ?_ hdrop
      exact (Deferral.replay_append (replayVifUnpackSpan newVifDynaRec resolve worker.maskCol) _ _
        _).symm
    · intro kept hmem
      have hmem : kept ∈ [] ++ [span] := hmem
      rw [List.nil_append, List.mem_singleton] at hmem
      exact hmem ▸ hspan
  next =>
    constructor
    · exact EagerVif.ext hdrop rfl
    · intro kept hmem
      rcases List.mem_append.mp hmem with hold | hnew
      · exact hkept kept hold
      · rw [List.mem_singleton] at hnew
        exact hnew ▸ hspan

/-- Handling a record executes it behind the journal. -/
theorem settled_executeRecord (hresolves : Resolves arena resolve)
    (hjournal : ∀ span ∈ worker.deferredVifUnpacks, span.Ready) {record : MtvuRecord}
    (hrecord : RecordReady record) (hundisturbed : Undisturbed worker record) :
    (worker.executeRecord newVifDynaRec resolve record).settled newVifDynaRec resolve =
        (worker.settled newVifDynaRec resolve).executeRecord newVifDynaRec resolve record ∧
      ∀ span ∈ (worker.executeRecord newVifDynaRec resolve record).deferredVifUnpacks,
        span.Ready := by
  cases record with
  | nullPacket => exact ⟨rfl, hjournal⟩
  | vuWriteData address size data => exact ⟨rfl, fun span hspan => nomatch hspan⟩
  | vifWriteCol maskCol =>
    refine ⟨EagerVif.ext ?_ rfl, hjournal⟩
    refine Deferral.replay_congr (fun span hspan vector => ?_) worker.vector
    exact replaySpan_maskCol hresolves (hjournal span hspan) (hundisturbed span hspan) _ _ vector
  | vifWriteRow maskRow =>
    refine ⟨EagerVif.ext ?_ rfl, hjournal⟩
    let withRow : VectorState → VectorState := fun vector => vector.withRow maskRow
    change replayVifUnpackSpans newVifDynaRec resolve worker.maskCol worker.deferredVifUnpacks
      (withRow worker.vector) = withRow _
    refine (Deferral.replay_comm (fun span hspan vector => ?_) worker.vector).symm
    exact replaySpan_withRow hresolves (hjournal span hspan) (hundisturbed span hspan) _ _ vector
  | vifUnpack command data size => exact ⟨rfl, fun span hspan => nomatch hspan⟩
  | vifUnpackCaptured span =>
    have hspan : span.Ready := hrecord
    have hexecute : worker.executeRecord newVifDynaRec resolve (.vifUnpackCaptured span) =
        worker.appendDeferredVifUnpack newVifDynaRec resolve span := by
      simp only [VifWorker.executeRecord, hresolves _ hspan.valid hspan.range]
    rw [hexecute]
    exact settled_append hresolves hjournal hspan
  | flushVifUnpacks => exact ⟨rfl, fun span hspan => nomatch hspan⟩

end Worker

/-! ### The records of the EE side -/

/-- The records that the worker has not handled. -/
def VifProducer.records (producer : VifProducer) : List MtvuRecord :=
  producer.committed ++ producer.written

section Producer

variable {newVifDynaRec : Bool} {arena : PayloadArena}
  {resolve : RawVifPayloadRef → Option (ℕ → Byte)} {producer : VifProducer}

/-- The records that are left, executed in their order. -/
def executeRecords (newVifDynaRec : Bool) (resolve : RawVifPayloadRef → Option (ℕ → Byte))
    (records : List MtvuRecord) (eager : EagerVif) : EagerVif :=
  Deferral.replay (EagerVif.executeRecord newVifDynaRec resolve) records eager

lemma executeRecords_append (records : List MtvuRecord) (record : MtvuRecord) (eager : EagerVif) :
    executeRecords newVifDynaRec resolve (records ++ [record]) eager =
      (executeRecords newVifDynaRec resolve records eager).executeRecord newVifDynaRec resolve
        record :=
  Deferral.replay_append _ _ _ _

/-- The write side is well formed: its spans can be replayed, and a span that may
still grow is the last record. -/
structure VifProducer.WellFormed (producer : VifProducer) : Prop where
  ready : ∀ record ∈ producer.records, RecordReady record
  pending : ∀ pos, producer.pendingCapturedVifSpanPos = some pos →
    pos + 1 = producer.written.length

/-- A call adds records that do, executed at once, what the call does eagerly. -/
structure AddsCall (newVifDynaRec : Bool) (resolve : RawVifPayloadRef → Option (ℕ → Byte))
    (producer after : VifProducer) (call : VifCall) : Prop where
  wellFormed : after.WellFormed
  execute : ∀ eager, executeRecords newVifDynaRec resolve after.records eager =
    (executeRecords newVifDynaRec resolve producer.records eager).call newVifDynaRec call

lemma records_commitWritePos : producer.commitWritePos.records = producer.records :=
  List.append_nil _

lemma wellFormed_commitWritePos (h : ∀ record ∈ producer.records, RecordReady record) :
    producer.commitWritePos.WellFormed where
  ready := by
    rw [records_commitWritePos]
    exact h
  pending := fun pos hpos => nomatch hpos

lemma records_write (record : MtvuRecord) :
    (producer.write record).records = producer.records ++ [record] :=
  (List.append_assoc _ _ _).symm

/-- `ReserveSpace` adds a null packet at most. -/
lemma reserveSpace_spec (h : producer.WellFormed) (wraps : Bool) :
    (producer.reserveSpace wraps).WellFormed ∧ ∀ eager,
      executeRecords newVifDynaRec resolve (producer.reserveSpace wraps).records eager =
        executeRecords newVifDynaRec resolve producer.records eager := by
  cases wraps with
  | false => exact ⟨h, fun _ => rfl⟩
  | true =>
    have hrecords : (producer.reserveSpace true).records = producer.records ++ [.nullPacket] :=
      records_commitWritePos.trans (records_write _)
    constructor
    · refine wellFormed_commitWritePos fun record hmem => ?_
      rw [records_write, List.mem_append, List.mem_singleton] at hmem
      rcases hmem with hmem | rfl
      · exact h.ready record hmem
      · trivial
    · intro eager
      rw [hrecords, executeRecords_append]
      rfl

/-- A record that is published at once. -/
lemma publish_spec (h : producer.WellFormed) (wraps : Bool) (record : MtvuRecord)
    (hrecord : RecordReady record) {call : VifCall}
    (hcall : ∀ eager : EagerVif, eager.executeRecord newVifDynaRec resolve record =
      eager.call newVifDynaRec call) :
    AddsCall newVifDynaRec resolve producer (producer.publish wraps record) call ∧
      ∃ before, (producer.publish wraps record).records = before ++ [record] := by
  obtain ⟨hreserved, hexecute⟩ := @reserveSpace_spec newVifDynaRec resolve _ h wraps
  have hrecords : (producer.publish wraps record).records =
      (producer.reserveSpace wraps).records ++ [record] :=
    records_commitWritePos.trans (records_write _)
  refine ⟨⟨wellFormed_commitWritePos fun other hmem => ?_, fun eager => ?_⟩, _, hrecords⟩
  · rw [records_write, List.mem_append, List.mem_singleton] at hmem
    rcases hmem with hmem | rfl
    · exact hreserved.ready other hmem
    · exact hrecord
  · rw [hrecords, executeRecords_append]
    exact (hcall _).trans (congrArg (EagerVif.call newVifDynaRec · call) (hexecute eager))

/-- The record of a captured span. -/
lemma writeCaptured_spec (h : producer.WellFormed) (wraps : Bool) {span : VifUnpackSpan}
    (hspan : span.Ready) {call : VifCall}
    (hcall : ∀ eager : EagerVif,
      eager.executeRecord newVifDynaRec resolve (.vifUnpackCaptured span) =
        eager.call newVifDynaRec call) :
    AddsCall newVifDynaRec resolve producer (producer.writeCaptured wraps span) call := by
  obtain ⟨hreserved, hexecute⟩ := @reserveSpace_spec newVifDynaRec resolve _ h wraps
  have hrecords : (producer.writeCaptured wraps span).records =
      (producer.reserveSpace wraps).records ++ [.vifUnpackCaptured span] :=
    (List.append_assoc _ _ _).symm
  refine ⟨⟨fun record hmem => ?_, fun pos hpos => ?_⟩, fun eager => ?_⟩
  · rw [hrecords, List.mem_append, List.mem_singleton] at hmem
    rcases hmem with hmem | rfl
    · exact hreserved.ready record hmem
    · exact hspan
  · obtain rfl := Option.some.inj hpos
    change _ + 1 = ((producer.reserveSpace wraps).written ++ [_]).length
    rw [List.length_append]
    rfl
  · rw [hrecords, executeRecords_append]
    exact (hcall _).trans (congrArg (EagerVif.call newVifDynaRec · call) (hexecute eager))

/-- The private span is the last record. -/
lemma written_of_pendingSpan (h : producer.WellFormed) {pos : ℕ} {previous : VifUnpackSpan}
    (hpending : producer.pendingSpan = some (pos, previous)) :
    ∃ before, producer.written = before ++ [.vifUnpackCaptured previous] ∧
      ∀ record, producer.written.set pos record = before ++ [record] := by
  unfold VifProducer.pendingSpan at hpending
  split at hpending
  next => cases hpending
  next other hpos =>
    split at hpending
    next span hrecord =>
      obtain ⟨rfl, rfl⟩ := Prod.mk.inj (Option.some.inj hpending)
      have hlast := h.pending other hpos
      obtain ⟨before, last, hwritten⟩ : ∃ before last, producer.written = before ++ [last] :=
        ⟨_, _, (List.dropLast_append_getLast (List.ne_nil_of_length_pos (by omega))).symm⟩
      have hlength : other = before.length := by
        rw [hwritten, List.length_append, List.length_singleton] at hlast
        omega
      subst hlength
      rw [hwritten, List.getElem?_append_right le_rfl, Nat.sub_self] at hrecord
      obtain rfl := Option.some.inj hrecord
      refine ⟨before, hwritten, fun record => ?_⟩
      rw [hwritten, List.set_append_right _ _ le_rfl, Nat.sub_self]
      rfl
    next => cases hpending

/-- A captured span, in a record of its own or merged into the one in front of it. -/
lemma vifUnpackCaptured_spec (hresolves : Resolves arena resolve) (h : producer.WellFormed)
    (wraps : Bool) {span : VifUnpackSpan} (hspan : span.Ready) {call : VifCall}
    (hcall : ∀ eager : EagerVif,
      eager.executeRecord newVifDynaRec resolve (.vifUnpackCaptured span) =
        eager.call newVifDynaRec call) :
    AddsCall newVifDynaRec resolve producer (producer.vifUnpackCaptured wraps span) call := by
  have hwrite := writeCaptured_spec h wraps hspan hcall
  unfold VifProducer.vifUnpackCaptured
  split
  next =>
    split
    next pos previous hpending =>
      split
      next merged hmerged =>
        obtain ⟨before, hwritten, hset⟩ := written_of_pendingSpan h hpending
        have hrecords : producer.records =
            producer.committed ++ before ++ [.vifUnpackCaptured previous] := by
          rw [VifProducer.records, hwritten, List.append_assoc]
        have hprevious : previous.Ready := by
          refine h.ready (.vifUnpackCaptured previous) ?_
          rw [hrecords]
          exact List.mem_append_right _ List.mem_cons_self
        obtain ⟨hready, hreplay⟩ :=
          @replay_merged newVifDynaRec _ _ hresolves _ _ _ hprevious hspan hmerged
        have hrecords' : ({ producer with
              written := producer.written.set pos (.vifUnpackCaptured merged) } :
                VifProducer).records =
            producer.committed ++ before ++ [.vifUnpackCaptured merged] := by
          rw [VifProducer.records, hset, List.append_assoc]
        refine ⟨⟨fun record hmem => ?_, fun other hother => ?_⟩, fun eager => ?_⟩
        · rw [hrecords', List.mem_append, List.mem_singleton] at hmem
          rcases hmem with hmem | rfl
          · refine h.ready record ?_
            rw [hrecords]
            exact List.mem_append_left _ hmem
          · exact hready
        · exact (h.pending other hother).trans (List.length_set).symm
        · -- the merged span executes the previous one and then the new one
          rw [hrecords', hrecords, executeRecords_append, executeRecords_append, ← hcall]
          exact EagerVif.ext (hreplay _ _) rfl
      next => exact hwrite
    next => exact hwrite
  next => exact hwrite

/-- Every call adds what it does eagerly. -/
theorem call_spec (hresolves : Resolves arena resolve) (h : producer.WellFormed)
    {outcome : CallOutcome} {call : VifCall} (hallowed : CallAllowed arena producer outcome call) :
    AddsCall newVifDynaRec resolve producer (producer.call outcome call) call := by
  cases call with
  | vifUnpack command data size =>
    obtain ⟨hcompleted, hcaptures⟩ := hallowed
    have hordinary : ∀ other : VifProducer, other.WellFormed → other.records = producer.records →
        AddsCall newVifDynaRec resolve producer
          (other.publish outcome.wraps (.vifUnpack command data size))
          (.vifUnpack command data size) := by
      intro other hother hrecords
      have hadds := (@publish_spec newVifDynaRec resolve other hother outcome.wraps
        (.vifUnpack command data size) trivial (.vifUnpack command data size) fun _ => rfl).1
      exact ⟨hadds.wellFormed, fun eager => by rw [hadds.execute, hrecords]⟩
    have hcounted : ({ producer with
        vifSpanSequence := producer.vifSpanSequence + 1 } : VifProducer).WellFormed :=
      ⟨h.ready, h.pending⟩
    change AddsCall newVifDynaRec resolve producer
      (producer.vifUnpack outcome.retainImmutableInput outcome.captured outcome.wraps command data
        size) _
    unfold VifProducer.vifUnpack
    dsimp only
    split
    next =>
      split
      next payloadSize payload hsize hcaptured =>
        obtain ⟨hvalid, hrange, hpayload, hbytes⟩ := hcaptures payloadSize payload hsize hcaptured
        obtain ⟨hsize, -⟩ := Option.filter_eq_some_iff.mp hsize
        have hsource := hresolves payload hvalid hrange
        have hready : (command.capturedSpan (producer.vifSpanSequence + 1) size payloadSize
            payload).Ready := by
          refine ⟨hvalid, hrange, fun _ => ?_, fun _ => ?_⟩
          · have hready := hcompleted.ready hsize
            rw [unpackCommand_capturedSpan hcompleted]
            exact ⟨hready.cycleCl, hready.cycleWl, hready.mode, hready.data, hready.cl, hready.num,
              hready.num_le⟩
          · have hcount : (command.capturedSpan (producer.vifSpanSequence + 1) size payloadSize
                payload).vectorCount = command.num.toNat :=
              hcompleted.vectorCount (producer.vifSpanSequence + 1) size
            have := hcompleted.num_le
            omega
        have hadds := @vifUnpackCaptured_spec newVifDynaRec arena resolve _ hresolves hcounted
          outcome.wraps _ hready (.vifUnpack command data size) fun eager =>
            EagerVif.ext (replay_capturedSpan hcompleted hsize hsource hbytes _ _) rfl
        exact ⟨hadds.wellFormed, hadds.execute⟩
      next => exact hordinary _ hcounted rfl
    next => exact hordinary _ h rfl
  | writeRow maskRow =>
    exact (publish_spec h outcome.wraps (.vifWriteRow maskRow) trivial fun _ => rfl).1
  | writeCol maskCol =>
    exact (publish_spec h outcome.wraps (.vifWriteCol maskCol) trivial fun _ => rfl).1
  | writeDataMem address data size =>
    exact (publish_spec h outcome.wraps (.vuWriteData address size data) trivial fun _ => rfl).1
  | publishPendingVifBatch =>
    change AddsCall newVifDynaRec resolve producer producer.publishPendingVifBatch _
    unfold VifProducer.publishPendingVifBatch
    split
    next =>
      refine ⟨wellFormed_commitWritePos h.ready, fun eager => ?_⟩
      rw [records_commitWritePos]
      rfl
    next => exact ⟨h, fun _ => rfl⟩
  | waitVu => exact (publish_spec h outcome.wraps .flushVifUnpacks trivial fun _ => rfl).1

end Producer

/-! ### Runs -/

structure VifSystem where
  producer : VifProducer
  worker : VifWorker

section Runs

variable (newVifDynaRec : Bool) (arena : PayloadArena)
  (resolve : RawVifPayloadRef → Option (ℕ → Byte)) (condition : VifWorker → MtvuRecord → Prop)
  (start : VifWorker)

/-- The runs of the calls: the worker handles a published record between any two
calls, and meets the condition at each. -/
inductive VifRun : List VifCall → VifSystem → Prop
  | start : VifRun [] ⟨{}, start⟩
  | call {calls : List VifCall} {system : VifSystem} {outcome : CallOutcome} {call : VifCall}
      (run : VifRun calls system) (allowed : CallAllowed arena system.producer outcome call) :
      VifRun (calls ++ [call]) { system with producer := system.producer.call outcome call }
  | handle {calls : List VifCall} {system : VifSystem} {record : MtvuRecord}
      {rest : List MtvuRecord} (run : VifRun calls system)
      (next : system.producer.committed = record :: rest)
      (meets : condition system.worker record) :
      VifRun calls
        { producer := { system.producer with committed := rest }
          worker := system.worker.executeRecord newVifDynaRec resolve record }

/-- The calls executed in their places. -/
def eagerly (calls : List VifCall) : EagerVif :=
  calls.foldl (EagerVif.call newVifDynaRec) ⟨start.vector, start.maskCol⟩

/-- The state of a run beside the eager execution of its calls. -/
structure BesideEager (calls : List VifCall) (system : VifSystem) : Prop where
  wellFormed : system.producer.WellFormed
  journal : ∀ span ∈ system.worker.deferredVifUnpacks, span.Ready
  eager : executeRecords newVifDynaRec resolve system.producer.records
    (system.worker.settled newVifDynaRec resolve) = eagerly newVifDynaRec start calls
  flushed : ∀ before, calls = before ++ [.waitVu] →
    (∃ records, system.producer.records = records ++ [.flushVifUnpacks]) ∨
      system.producer.records = [] ∧ system.worker.deferredVifUnpacks = []

variable {newVifDynaRec arena resolve start} {calls : List VifCall} {system : VifSystem}

lemma BesideEager.call (hresolves : Resolves arena resolve)
    (h : BesideEager newVifDynaRec resolve start calls system) {outcome : CallOutcome}
    {call : VifCall} (hallowed : CallAllowed arena system.producer outcome call) :
    BesideEager newVifDynaRec resolve start (calls ++ [call])
      { system with producer := system.producer.call outcome call } := by
  have hadds : AddsCall newVifDynaRec resolve system.producer (system.producer.call outcome call)
      call := call_spec hresolves h.wellFormed hallowed
  refine ⟨hadds.wellFormed, h.journal, ?_, fun before hcalls => Or.inl ?_⟩
  · rw [hadds.execute, h.eager, eagerly, eagerly, List.foldl_append]
    rfl
  · obtain ⟨-, hcall⟩ := List.append_inj' hcalls rfl
    obtain rfl := List.singleton_inj.mp hcall
    exact (@publish_spec newVifDynaRec resolve _ h.wellFormed outcome.wraps .flushVifUnpacks trivial
      .waitVu fun _ => rfl).2

lemma BesideEager.handle (hresolves : Resolves arena resolve)
    (h : BesideEager newVifDynaRec resolve start calls system) {record : MtvuRecord}
    {rest : List MtvuRecord} (hnext : system.producer.committed = record :: rest)
    (hmeets : Undisturbed system.worker record) :
    BesideEager newVifDynaRec resolve start calls
      { producer := { system.producer with committed := rest }
        worker := system.worker.executeRecord newVifDynaRec resolve record } := by
  have hrecords : system.producer.records = record :: (rest ++ system.producer.written) := by
    rw [VifProducer.records, hnext]
    rfl
  have hready := h.wellFormed.ready
  rw [hrecords] at hready
  obtain ⟨hsettled, hjournal⟩ := settled_executeRecord hresolves h.journal
    (hready record List.mem_cons_self) hmeets
  refine ⟨⟨fun other hmem => hready other (List.mem_cons_of_mem _ hmem), h.wellFormed.pending⟩,
    hjournal, ?_, fun before hcalls => ?_⟩
  · have heager := h.eager
    rw [hrecords] at heager
    rw [hsettled]
    exact heager
  · rcases h.flushed before hcalls with ⟨records, hlast⟩ | ⟨hempty, -⟩
    · rw [hrecords] at hlast
      cases records with
      | nil =>
        -- the flush is the record that is handled
        obtain ⟨rfl, hnone⟩ := List.cons.inj hlast
        exact Or.inr ⟨hnone, rfl⟩
      | cons first records => exact Or.inl ⟨records, (List.cons.inj hlast).2⟩
    · rw [hrecords] at hempty
      cases hempty

/-- The invariant of the runs that meet the condition. -/
theorem besideEager_of_run (hresolves : Resolves arena resolve)
    (hstart : start.deferredVifUnpacks = [])
    (hrun : VifRun newVifDynaRec arena resolve Undisturbed start calls system) :
    BesideEager newVifDynaRec resolve start calls system := by
  induction hrun with
  | start =>
    refine ⟨⟨fun record hmem => (nomatch hmem), fun pos hpos => (nomatch hpos)⟩,
      fun span hspan => ?_, ?_, fun before hcalls => ?_⟩
    · rw [hstart] at hspan
      cases hspan
    · refine EagerVif.ext ?_ rfl
      change replayVifUnpackSpans _ _ _ start.deferredVifUnpacks _ = _
      rw [hstart]
      rfl
    · cases before <;> cases hcalls
  | call _ hallowed ih => exact ih.call hresolves hallowed
  | handle _ hnext hmeets ih => exact ih.handle hresolves hnext hmeets

/-- The worker stands where the eager worker stands. -/
def DeferredAgrees (newVifDynaRec : Bool) (start : VifWorker) (calls : List VifCall)
    (system : VifSystem) : Prop :=
  system.worker.vector = (eagerly newVifDynaRec start calls).vector

/-- Deferred UNPACKs end like eager ones behind a flush, when no write to the rows
or the columns overtakes a span that uses them. -/
theorem deferredAgrees_of_undisturbed (newVifDynaRec : Bool) (arena : PayloadArena)
    (resolve : RawVifPayloadRef → Option (ℕ → Byte)) (hresolves : Resolves arena resolve)
    (start : VifWorker) (hstart : start.deferredVifUnpacks = []) (calls : List VifCall)
    (system : VifSystem)
    (hrun : VifRun newVifDynaRec arena resolve Undisturbed start (calls ++ [.waitVu]) system)
    (hdone : system.producer.records = []) :
    DeferredAgrees newVifDynaRec start (calls ++ [.waitVu]) system := by
  have hbeside := besideEager_of_run hresolves hstart hrun
  have hjournal : system.worker.deferredVifUnpacks = [] := by
    rcases hbeside.flushed calls rfl with ⟨records, hlast⟩ | ⟨-, hempty⟩
    · rw [hdone] at hlast
      cases records <;> cases hlast
    · exact hempty
  have heager := hbeside.eager
  rw [hdone] at heager
  have hsettled : (system.worker.settled newVifDynaRec resolve).vector = system.worker.vector := by
    change replayVifUnpackSpans _ _ _ system.worker.deferredVifUnpacks _ = _
    rw [hjournal]
    rfl
  exact hsettled.symm.trans (congrArg EagerVif.vector heager)

/-! ### A write to the rows behind an UNPACK -/

/-- One vector of V4-32 to the start of the memory. -/
def oneVector (mode : ℕ) : UnpackCommand where
  tagCmd := 0x6c
  cmd := 0x6c
  cycleCl := 1
  cycleWl := 1
  mode := mode
  num := 1

def zeroArena : PayloadArena := fun _ _ _ _ => 0

def zeroResolve (_ : RawVifPayloadRef) : Option (ℕ → Byte) := some fun _ => 0

def zeroPayload : RawVifPayloadRef where
  owner := 1
  generation := 1
  size := 16

def zeroWorker : VifWorker where
  vector := ⟨fun _ => 0, fun _ => 0⟩
  maskCol := fun _ => 0

def zeroSpan (mode : ℕ) : VifUnpackSpan := (oneVector mode).capturedSpan 1 16 16 zeroPayload

/-- An UNPACK whose data is captured, and a write to the rows. -/
def rowCalls (mode : ℕ) : List VifCall :=
  [.vifUnpack (oneVector mode) (fun _ => 0) 16, .writeRow fun _ => 1]

/-- The worker in front of the write to the rows, and behind the flush. -/
def rowWorker (mode : ℕ) : VifWorker :=
  zeroWorker.executeRecord true zeroResolve (.vifUnpackCaptured (zeroSpan mode))

def flushedWorker (mode : ℕ) : VifWorker :=
  ((rowWorker mode).executeRecord true zeroResolve (.vifWriteRow fun _ => 1)).executeRecord true
    zeroResolve .flushVifUnpacks

lemma zeroArena_resolves : Resolves zeroArena zeroResolve := fun _ _ _ => rfl

lemma oneVector_completed {mode : ℕ} (hmode : mode < 4) : (oneVector mode).Completed where
  cmd := rfl
  tagCmd := show 0x6c < 256 by decide
  tagAddr := show 0 &&& vuMemMask .vif1 = 0 by decide
  cl := rfl
  cycleCl := show 1 < 256 by decide
  cycleWl := show 1 < 256 by decide
  mode := hmode
  num := show (1 : BitVec 32) ≠ 0 by decide
  num_le := show (1 : BitVec 32).toNat ≤ 256 by decide

/-- The three calls, and then the three records. -/
lemma rowCalls_run {mode : ℕ} (hmode : mode < 4) {condition : VifWorker → MtvuRecord → Prop}
    (hcaptured : condition zeroWorker (.vifUnpackCaptured (zeroSpan mode)))
    (hrow : condition (rowWorker mode) (.vifWriteRow fun _ => 1))
    (hflush : ∀ worker, condition worker .flushVifUnpacks) :
    ∃ system, VifRun true zeroArena zeroResolve condition zeroWorker (rowCalls mode ++ [.waitVu])
      system ∧ system.producer.records = [] ∧ system.worker = flushedWorker mode := by
  have hsize : ∀ mode < 4, ({} : VifProducer).captureSize (oneVector mode) 16 = some 16 := by decide
  have hallowed : CallAllowed zeroArena {} ⟨true, some zeroPayload, false⟩
      (.vifUnpack (oneVector mode) (fun _ => 0) 16) := by
    refine ⟨oneVector_completed hmode, fun payloadSize payload hpayloadSize hpayload => ?_⟩
    rw [hsize mode hmode] at hpayloadSize
    obtain rfl := Option.some.inj hpayloadSize
    obtain rfl := Option.some.inj hpayload
    exact ⟨by decide, by decide, rfl, fun _ _ => rfl⟩
  have hproducer : ({} : VifProducer).call ⟨true, some zeroPayload, false⟩
      (.vifUnpack (oneVector mode) (fun _ => 0) 16) =
        { written := [.vifUnpackCaptured (zeroSpan mode)]
          pendingVifBatch := true
          pendingCapturedVifSpanPos := some 0
          vifSpanSequence := 1 } := by
    simp only [VifProducer.call, VifProducer.vifUnpack, hsize mode hmode, if_true,
      VifProducer.vifUnpackCaptured, Bool.and_false, Bool.false_eq_true, if_false]
    rfl
  have hunpack := @VifRun.call true zeroArena zeroResolve condition zeroWorker [] ⟨{}, zeroWorker⟩
    ⟨true, some zeroPayload, false⟩ (.vifUnpack (oneVector mode) (fun _ => 0) 16) .start hallowed
  rw [hproducer] at hunpack
  have hwritten := @VifRun.call true zeroArena zeroResolve condition zeroWorker _ _ {}
    (.writeRow fun _ => 1) hunpack trivial
  have hwaited := @VifRun.call true zeroArena zeroResolve condition zeroWorker _ _ {} .waitVu
    hwritten trivial
  exact ⟨_, ((hwaited.handle rfl hcaptured).handle rfl hrow).handle rfl (hflush _), rfl, rfl⟩

/-- Without MODE the span does not use the rows. -/
theorem deferredAgrees_oneVector :
    ∃ system, VifRun true zeroArena zeroResolve Undisturbed zeroWorker (rowCalls 0 ++ [.waitVu])
        system ∧
      DeferredAgrees true zeroWorker (rowCalls 0 ++ [.waitVu]) system := by
  have hrow : Undisturbed (rowWorker 0) (.vifWriteRow fun _ => 1) := by
    intro span hspan
    have hspan : span ∈ [zeroSpan 0] := hspan
    obtain rfl := List.mem_singleton.mp hspan
    rintro ⟨i, hi, lane, hone | ⟨-, hmode⟩⟩
    · have hzero : (zeroSpan 0).unpackCommand.selector i lane = 0 := rfl
      rw [hzero] at hone
      exact absurd hone (by decide)
    · exact hmode rfl
  obtain ⟨system, hrun, hdone, -⟩ := rowCalls_run (by decide) trivial hrow fun _ => trivial
  exact ⟨system, hrun, deferredAgrees_of_undisturbed true zeroArena zeroResolve zeroArena_resolves
    zeroWorker rfl (rowCalls 0) system hrun hdone⟩

/-- Under MODE 1 the row that is added is the one written behind the UNPACK. -/
theorem not_deferredAgrees_rowSum :
    Resolves zeroArena zeroResolve ∧
      ∃ system, VifRun true zeroArena zeroResolve (fun _ _ => True) zeroWorker
          (rowCalls 1 ++ [.waitVu]) system ∧
        system.producer.records = [] ∧
        ¬DeferredAgrees true zeroWorker (rowCalls 1 ++ [.waitVu]) system := by
  refine ⟨zeroArena_resolves, ?_⟩
  obtain ⟨system, hrun, hdone, hworker⟩ :=
    @rowCalls_run 1 (by decide) (fun _ _ => True) trivial trivial fun _ => trivial
  refine ⟨system, hrun, hdone, fun hagrees => ?_⟩
  have hdeferred : (flushedWorker 1).vector.memory 0 = 1 := by decide
  have heager : (eagerly true zeroWorker (rowCalls 1 ++ [.waitVu])).vector.memory 0 = 0 := by decide
  rw [DeferredAgrees, hworker] at hagrees
  rw [hagrees, heager] at hdeferred
  exact absurd hdeferred (by decide)

end Runs

end VitaSX2.Vif
