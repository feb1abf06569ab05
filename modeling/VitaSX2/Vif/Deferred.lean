/-
Deferred UNPACKs of the VU thread (`MTVU.cpp`, `VitaGpuVuVifInput.cpp`).

The EE side turns a completed UNPACK into a span of captured bytes, which stays
private until the next commit and may grow by an adjacent one.  The worker keeps
the spans in a journal: a span that a later one overwrites is dropped, and the
rest is replayed at the records that observe the memory, or when the journal is
full.
-/
import VitaSX2.Lib.Deferral
import VitaSX2.Vif.Span
import VitaSX2.Vif.UnpackAgreement

namespace VitaSX2.Vif

/-- What `VU_Thread::VifUnpack` finds in `vifStruct` and `VIFregisters`. -/
structure UnpackCommand where
  tagAddr : BitVec 32 := 0
  tagSize : ℕ := 0
  tagCmd : ℕ := 0
  cmd : ℕ := 0
  pass : ℕ := 0
  cl : ℕ := 0
  usn : ℕ := 0
  startAligned : ℕ := 0
  cycleCl : ℕ := 0
  cycleWl : ℕ := 0
  mode : ℕ := 0
  num : BitVec 32 := 0
  mask : BitVec 32 := 0
  itop : ℕ := 0
  top : ℕ := 0

def UnpackCommand.regs (command : UnpackCommand) (maskCol : Lanes 4 32) : UnpackRegs where
  cmd := command.cmd
  usn := command.usn ≠ 0
  startAligned := command.startAligned
  cycleCl := command.cycleCl
  cycleWl := command.cycleWl
  mode := command.mode
  mask := command.mask
  maskCol := maskCol

def UnpackCommand.state (command : UnpackCommand) (vector : VectorState) : UnpackState where
  vector := vector
  tagAddr := command.tagAddr
  cl := command.cl
  num := command.num

/-- `MTVU_Unpack`. -/
def mtvuUnpack (newVifDynaRec : Bool) (command : UnpackCommand) (maskCol : Lanes 4 32)
    (data : ℕ → Byte) (vector : VectorState) : VectorState :=
  let regs := command.regs maskCol
  if newVifDynaRec then
    (vitaVifUnpack .vif1 regs data regs.isFill (command.state vector)).vector
  else (nVifUnpack .vif1 regs data regs.isFill (command.state vector)).vector

/-! ### Spans -/

/-- The span that `VU_Thread::VifUnpack` fills in before the capture. -/
def UnpackCommand.span (command : UnpackCommand) (sequence size : ℕ) : VifUnpackSpan where
  sequence := sequence
  sourceSize := size
  tagSizeWords := command.tagSize
  mask := command.mask
  destinationQword := (command.tagAddr >>> 4).toNat % 2 ^ 16
  vectorCount := command.num.toNat % 2 ^ 16
  vifTop := command.top % 2 ^ 16
  vifItop := command.itop % 2 ^ 16
  command := BitVec.ofNat 8 command.tagCmd
  cycleCl := command.cycleCl
  cycleWl := command.cycleWl
  mode := command.mode % 2 ^ 8
  unsignedData := command.usn
  startAlignment := command.startAligned

/-- The command that `ReplayVifUnpackSpans` sets up for a span. -/
def VifUnpackSpan.unpackCommand (span : VifUnpackSpan) : UnpackCommand where
  tagAddr := BitVec.ofNat 32 (span.destinationQword * 16)
  tagSize := span.tagSizeWords
  tagCmd := span.command.toNat
  cmd := span.command.toNat
  pass := 1
  cl := 0
  usn := span.unsignedData
  startAligned := span.startAlignment
  cycleCl := span.cycleCl
  cycleWl := span.cycleWl
  mode := span.mode
  num := BitVec.ofNat 32 span.vectorCount
  mask := span.mask
  itop := span.vifItop
  top := span.vifTop

def VifUnpackSpan.decoded (span : VifUnpackSpan) : Vu.DecodedVifCommand where
  command := span.command.toNat
  cycleCl := span.cycleCl
  cycleWl := span.cycleWl
  mode := span.mode
  unsignedData := span.unsignedData ≠ 0
  startAlignment := span.startAlignment
  payloadOffset := 0
  sourceSize := span.sourceSize
  mask := 0
  destinationQword := span.destinationQword
  vectorCount := span.vectorCount
  vifTop := 0
  vifItop := 0

def startAlignmentMask : ℕ := 7

def getUniversalVifUnpackPayloadSize (span : VifUnpackSpan) : Option ℕ :=
  if 3 < span.mode ∨ 1 < span.unsignedData ∨ startAlignmentMask < span.startAlignment ∨
      span.command &&& 0x80#8 ≠ 0 ∨ span.command &&& 0x60#8 ≠ 0x60#8 then none
  else span.decoded.requiredPayloadBytes

def directAffineSpanFullyOverwrites (newer older : VifUnpackSpan) : Bool :=
  if !isDirectAffineV4_32Span newer || !isDirectAffineV4_32Span older then false
  else
    let newerStart := newer.destinationQword % vu1MemoryQwords
    let olderStart := older.destinationQword % vu1MemoryQwords
    let olderOffset := (olderStart + vu1MemoryQwords - newerStart) % vu1MemoryQwords
    olderOffset < newer.vectorCount && older.vectorCount ≤ newer.vectorCount - olderOffset

/-- `MergeAdjacentDirectAffineV4_32Spans`: the span that `earlier` becomes. -/
def mergeAdjacentDirectAffineV4_32Spans (earlier later : VifUnpackSpan) : Option VifUnpackSpan :=
  if !isDirectAffineV4_32Span earlier || !isDirectAffineV4_32Span later then none
  else
    let combinedVectors := earlier.vectorCount + later.vectorCount
    let earlierBytes := earlier.vectorCount * 16
    let laterBytes := later.vectorCount * 16
    let combinedBytes := earlierBytes + laterBytes
    if vu1MemoryQwords < combinedVectors ∨ earlier.sourceSize ≠ earlierBytes ∨
        later.sourceSize ≠ laterBytes ∨ earlier.payload.size ≠ earlierBytes ∨
        later.payload.size ≠ laterBytes ∨ earlier.payload.owner ≠ later.payload.owner ∨
        earlier.payload.slot ≠ later.payload.slot ∨
        earlier.payload.generation ≠ later.payload.generation ∨
        earlier.payload.offset + earlierBytes ≠ later.payload.offset ∨
        inputRingSlotSize < earlier.payload.offset + combinedBytes ∨
        (earlier.destinationQword + earlier.vectorCount) % vu1MemoryQwords ≠
          later.destinationQword then none
    else
      some
        { earlier with
          payload := { earlier.payload with size := combinedBytes }
          sourceSize := combinedBytes
          tagSizeWords := combinedBytes / 4
          vectorCount := combinedVectors }

/-! ### The records -/

inductive MtvuRecord
  | nullPacket
  | vuWriteData (address size : ℕ) (data : ℕ → Byte)
  | vifWriteCol (maskCol : Lanes 4 32)
  | vifWriteRow (maskRow : Lanes 4 32)
  | vifUnpack (command : UnpackCommand) (data : ℕ → Byte) (size : ℕ)
  | vifUnpackCaptured (span : VifUnpackSpan)
  | flushVifUnpacks

/-- The write side of `VU_Thread`: the records that are published and not yet
handled, and those behind the published write position. -/
structure VifProducer where
  committed : List MtvuRecord := []
  written : List MtvuRecord := []
  pendingVifBatch : Bool := false
  pendingCapturedVifSpanPos : Option ℕ := none
  vifSpanSequence : ℕ := 0

namespace VifProducer

variable (producer : VifProducer)

def write (record : MtvuRecord) : VifProducer :=
  { producer with written := producer.written ++ [record] }

def commitWritePos : VifProducer :=
  { producer with
    committed := producer.committed ++ producer.written
    written := []
    pendingVifBatch := false
    pendingCapturedVifSpanPos := none }

/-- `ReserveSpace`; a write position that would pass the end of the buffer wraps. -/
def reserveSpace (wraps : Bool) : VifProducer :=
  if wraps then (producer.write .nullPacket).commitWritePos else producer

/-- A record that is published at once. -/
def publish (wraps : Bool) (record : MtvuRecord) : VifProducer :=
  ((producer.reserveSpace wraps).write record).commitWritePos

def publishPendingVifBatch : VifProducer :=
  if producer.pendingVifBatch then producer.commitWritePos else producer

/-- The span whose record is private, with its position. -/
def pendingSpan : Option (ℕ × VifUnpackSpan) :=
  match producer.pendingCapturedVifSpanPos with
  | none => none
  | some pos =>
    match producer.written[pos]? with
    | some (.vifUnpackCaptured span) => some (pos, span)
    | _ => none

/-- The record of a captured span. -/
def writeCaptured (wraps : Bool) (span : VifUnpackSpan) : VifProducer :=
  let reserved := producer.reserveSpace wraps
  { reserved.write (.vifUnpackCaptured span) with
    pendingCapturedVifSpanPos := some reserved.written.length
    pendingVifBatch := true }

/-- A captured span joins the private one in front of it or gets a record. -/
def vifUnpackCaptured (wraps : Bool) (span : VifUnpackSpan) : VifProducer :=
  if isDirectAffineV4_32Span span && producer.pendingVifBatch then
    match producer.pendingSpan with
    | some (pos, previous) =>
      match mergeAdjacentDirectAffineV4_32Spans previous span with
      | some merged =>
        { producer with written := producer.written.set pos (.vifUnpackCaptured merged) }
      | none => producer.writeCaptured wraps span
    | none => producer.writeCaptured wraps span
  else producer.writeCaptured wraps span

/-- The size of the bytes that `VifUnpack` tries to capture. -/
def captureSize (command : UnpackCommand) (size : ℕ) : Option ℕ :=
  (getUniversalVifUnpackPayloadSize (command.span (producer.vifSpanSequence + 1) size)).filter
    (· ≤ size)

/-- `VU_Thread::VifUnpack`; `captured` is the answer of `CaptureRawVifPayload`. -/
def vifUnpack (retainImmutableInput : Bool) (captured : Option RawVifPayloadRef) (wraps : Bool)
    (command : UnpackCommand) (data : ℕ → Byte) (size : ℕ) : VifProducer :=
  if retainImmutableInput then
    let counted := { producer with vifSpanSequence := producer.vifSpanSequence + 1 }
    match producer.captureSize command size, captured with
    | some payloadSize, some payload =>
      counted.vifUnpackCaptured wraps
        { command.span counted.vifSpanSequence size with
          sourceSize := payloadSize
          payload := payload }
    | _, _ => counted.publish wraps (.vifUnpack command data size)
  else producer.publish wraps (.vifUnpack command data size)

end VifProducer

/-! ### The worker -/

/-- The VU1 memory and the rows, the columns, and the journal. -/
structure VifWorker where
  vector : VectorState
  maskCol : Lanes 4 32
  deferredVifUnpacks : List VifUnpackSpan := []

def maximumDeferredAffineSpans : ℕ := 64

section Worker

variable (newVifDynaRec : Bool) (resolve : RawVifPayloadRef → Option (ℕ → Byte))

/-- One turn of `ReplayVifUnpackSpans`. -/
def replayVifUnpackSpan (maskCol : Lanes 4 32) (vector : VectorState) (span : VifUnpackSpan) :
    VectorState :=
  match resolve span.payload with
  | none => vector
  | some source =>
    match materializeDirectAffineV4_32Span span source vector.memory (1024 * 16) with
    | (true, memory) => { vector with memory := memory }
    | (false, _) => mtvuUnpack newVifDynaRec span.unpackCommand maskCol source vector

def replayVifUnpackSpans (maskCol : Lanes 4 32) (spans : List VifUnpackSpan)
    (vector : VectorState) : VectorState :=
  Deferral.replay (replayVifUnpackSpan newVifDynaRec resolve maskCol) spans vector

variable (worker : VifWorker)

/-- `ReplayDeferredVifUnpacks`, without GPU work outstanding. -/
def VifWorker.replayDeferredVifUnpacks : VifWorker :=
  { worker with
    vector := replayVifUnpackSpans newVifDynaRec resolve worker.maskCol worker.deferredVifUnpacks
      worker.vector
    deferredVifUnpacks := [] }

def VifWorker.appendDeferredVifUnpack (span : VifUnpackSpan) : VifWorker :=
  let kept : VifWorker :=
    { worker with
      deferredVifUnpacks :=
        worker.deferredVifUnpacks.filter fun older => !directAffineSpanFullyOverwrites span older }
  let kept :=
    if maximumDeferredAffineSpans ≤ kept.deferredVifUnpacks.length then
      kept.replayDeferredVifUnpacks newVifDynaRec resolve
    else kept
  { kept with deferredVifUnpacks := kept.deferredVifUnpacks ++ [span] }

/-- `ExecuteRingBuffer` for one record. -/
def VifWorker.executeRecord : MtvuRecord → VifWorker
  | .nullPacket => worker
  | .vuWriteData address size data =>
    let replayed := worker.replayDeferredVifUnpacks newVifDynaRec resolve
    { replayed with
      vector := { replayed.vector with
        memory := memcpy replayed.vector.memory address data size } }
  | .vifWriteCol maskCol => { worker with maskCol := maskCol }
  | .vifWriteRow maskRow => { worker with vector := { worker.vector with maskRow := maskRow } }
  | .vifUnpack command data _ =>
    let replayed := worker.replayDeferredVifUnpacks newVifDynaRec resolve
    { replayed with
      vector := mtvuUnpack newVifDynaRec command replayed.maskCol data replayed.vector }
  | .vifUnpackCaptured span =>
    match resolve span.payload with
    | none => worker
    | some _ => worker.appendDeferredVifUnpack newVifDynaRec resolve span
  | .flushVifUnpacks => worker.replayDeferredVifUnpacks newVifDynaRec resolve

end Worker

end VitaSX2.Vif
