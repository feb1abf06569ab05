/-
Replaying one span (`MTVU.cpp`, `VitaGpuVuVifInput.cpp`).

A direct span overlays the memory with its payload, qword by qword; every other
span runs its UNPACK.  A captured span does what the UNPACK would have done, two
merged spans do what they do one after another, and a span that a later one
covers leaves nothing behind.
-/
import VitaSX2.Vif.UnpackPayload

namespace VitaSX2.Vif

open VitaSX2.Vu (loadU32)

/-! ### Direct spans -/

/-- An address of the memory lies in one of its qwords. -/
lemma qwordIndex_lt {address : ℕ} (h : address < 1024 * 16) : address / 16 < 1024 := by omega

/-- The memory under the vectors of a direct span. -/
def VifUnpackSpan.overlay (span : VifUnpackSpan) (source : ℕ → Byte) (memory : Memory) : Memory :=
  fun address =>
    if haddress : address < 1024 * 16 then
      let vector := span.vectorOf ⟨address / 16, qwordIndex_lt haddress⟩
      if vector < span.vectorCount then source (vector * 16 + address % 16) else memory address
    else memory address

/-- The addresses that a span covers. -/
def VifUnpackSpan.Covers (span : VifUnpackSpan) (address : ℕ) : Prop :=
  ∃ haddress : address < 1024 * 16,
    span.vectorOf ⟨address / 16, qwordIndex_lt haddress⟩ < span.vectorCount

/-- The vector of an address of the memory. -/
lemma vectorOf_address {span : VifUnpackSpan} (h : span.destinationQword < 1024) {address : ℕ}
    (haddress : address < 1024 * 16) :
    span.vectorOf ⟨address / 16, qwordIndex_lt haddress⟩ =
      (address / 16 + 1024 - span.destinationQword) % 1024 := by
  simp only [VifUnpackSpan.vectorOf, Fin.ofNat, Fin.sub_def]
  omega

section Overlay

variable {span : VifUnpackSpan} {source : ℕ → Byte} {memory : Memory} {address : ℕ}

lemma overlay_of_not_covers (h : ¬span.Covers address) :
    span.overlay source memory address = memory address := by
  unfold VifUnpackSpan.overlay
  split
  next haddress => exact if_neg fun hvector => h ⟨haddress, hvector⟩
  next => rfl

lemma overlay_of_covers (h : span.Covers address) :
    span.overlay source memory address =
      source (span.vectorOf ⟨address / 16, by have := h.1; omega⟩ * 16 + address % 16) := by
  obtain ⟨haddress, hvector⟩ := h
  unfold VifUnpackSpan.overlay
  rw [dif_pos haddress]
  exact if_pos hvector

end Overlay

section Replay

variable {newVifDynaRec : Bool} {resolve : RawVifPayloadRef → Option (ℕ → Byte)}
  {span : VifUnpackSpan} {source : ℕ → Byte}

lemma replay_of_direct (hsource : resolve span.payload = some source)
    (hdirect : isDirectAffineV4_32Span span = true) (hcount : span.vectorCount ≤ 1024)
    (maskCol : Lanes 4 32) (vector : VectorState) :
    replayVifUnpackSpan newVifDynaRec resolve maskCol vector span =
      { vector with memory := span.overlay source vector.memory } := by
  simp only [replayVifUnpackSpan, hsource,
    materialize_of_isDirectAffine hdirect hcount source vector.memory]
  rfl

lemma replay_of_not_direct (hsource : resolve span.payload = some source)
    (hdirect : isDirectAffineV4_32Span span = false) (maskCol : Lanes 4 32)
    (vector : VectorState) :
    replayVifUnpackSpan newVifDynaRec resolve maskCol vector span =
      mtvuUnpack newVifDynaRec span.unpackCommand maskCol source vector := by
  simp only [replayVifUnpackSpan, hsource, materializeDirectAffineV4_32Span, hdirect]
  rfl

end Replay

/-! ### The UNPACK of a direct span -/

section Direct

variable {command : UnpackCommand}

/-- V4-32 without a mask, MODE 0, into adjacent qwords. -/
structure UnpackCommand.Direct (command : UnpackCommand) : Prop where
  cmd : command.cmd = 0x6c
  mode : command.mode = 0
  cycle : command.cycleCl = command.cycleWl

lemma format_direct (hdirect : command.Direct) : command.format = 0x0c := by
  have hcmd : command.format = command.cmd % 32 % 16 := rfl
  rw [hcmd, hdirect.cmd]

lemma store_direct (hdirect : command.Direct) (newVifDynaRec : Bool) (maskCol : Lanes 4 32)
    (data : ℕ → Byte) (i : ℕ) (vector : VectorState) :
    command.store maskCol i (command.words newVifDynaRec data i) vector =
      { vector with
        memory := memcpy vector.memory (command.destination i)
          (fun index => data ((command.place i).data + index)) 16 } := by
  have hformat := format_direct hdirect
  have hformat' : (command.regs noColumn).format = 0x0c := hformat
  have hmask : command.doMask = false := by
    have hcmd : command.doMask = (command.cmd % 32).testBit 4 := rfl
    rw [hcmd, hdirect.cmd]
    rfl
  have hmode : command.laneMode = 0 := by
    rw [UnpackCommand.laneMode, formatMode, if_neg (by rw [hformat']; decide)]
    exact congrArg (· % 4) hdirect.mode
  have hwords : command.words newVifDynaRec data i =
      fun lane : Fin 4 => loadU32 data ((command.place i).data + 4 * lane) := by
    unfold UnpackCommand.words UnpackCommand.loadWords formatWords
    simp only [hformat, hformat', Nat.reduceEqDiff, if_false]
    have hdrops : ∀ iteration alignment, dropsW 0x0c iteration alignment = false :=
      fun _ _ => rfl
    rw [vectorWords_of_dropsW data (hdrops _ _)]
    cases newVifDynaRec <;> rfl
  unfold UnpackCommand.store
  rw [hmask, hmode, storeLanes_unmasked, hwords]
  refine VectorState.ext (funext fun address => ?_) rfl
  rw [if_neg (by decide)]
  simp only [vst1qU32, memcpy]
  split
  next h =>
    rw [extract_loadU32 _ _ (Nat.mod_lt _ (by decide))]
    congr 1
    omega
  next h => rfl

/-- The place of a vector of a cycle that skips nothing. -/
lemma place_direct (hdirect : command.Direct)
    (htag : command.tagAddr &&& vuMemMask .vif1 = command.tagAddr) {count : ℕ}
    (hcount : command.cycleWl = 0 → count ≤ 1) {i : ℕ} (hi : i < count) :
    (command.place i).data = i * 16 ∧
      command.destination i = (command.tagAddr.toNat / 16 + i) % 1024 * 16 := by
  have hplace : (command.place i).data = i * 16 ∧
      (command.place i).state.tagAddr = command.tagAddr + BitVec.ofNat 32 (i * 16) := by
    by_cases hzero : command.cycleWl = 0
    · obtain rfl : i = 0 := by
        have := hcount hzero
        omega
      exact ⟨rfl, (BitVec.add_zero _).symm⟩
    · have hfill : (command.regs noColumn).isFill = false := by
        refine decide_eq_false ?_
        change ¬command.cycleCl < if command.cycleWl ≠ 0 then command.cycleWl else 256
        rw [if_pos hzero, hdirect.cycle]
        exact lt_irrefl _
      have hskip : (command.regs noColumn).skipSize = 0#32 := by
        change (BitVec.ofNat 32 command.cycleCl - BitVec.ofNat 32 command.cycleWl) * 16 = 0#32
        rw [hdirect.cycle, BitVec.sub_self]
        exact BitVec.zero_mul
      have hsize : nVifT (command.regs noColumn).format = 16 :=
        congrArg nVifT (format_direct hdirect)
      let P (i : ℕ) (loop : UnpackLoop) : Prop :=
        loop.data = i * 16 ∧ loop.state.tagAddr = command.tagAddr + BitVec.ofNat 32 (i * 16)
      have hstep : ∀ j < i, ∀ loop, P j loop → P (j + 1)
          (unpackTurn .vif1 (command.regs noColumn) (command.regs noColumn).isFill skipVector
            loop) := by
        rintro j - loop ⟨hdata, htag⟩
        have hdata' : loop.data + 16 = (j + 1) * 16 := by omega
        have htag' : loop.state.tagAddr + 16 =
            command.tagAddr + BitVec.ofNat 32 ((j + 1) * 16) := by
          rw [htag, Nat.add_mul, BitVec.ofNat_add, BitVec.add_assoc]
          rfl
        unfold unpackTurn UnpackLoop.advance
        simp only [hfill, Bool.false_eq_true, if_false, hskip, BitVec.add_zero, hsize]
        split
        · exact ⟨hdata', htag'⟩
        · exact ⟨hdata', htag'⟩
      exact CountedLoop.invariant P hstep ⟨(Nat.zero_mul 16).symm, (BitVec.add_zero _).symm⟩
  refine ⟨hplace.1, ?_⟩
  have hlt : command.tagAddr.toNat = command.tagAddr.toNat / 16 % 1024 * 16 := by
    have hptr := vitaVifVuMemPtr_eq .vif1 command.tagAddr
    rw [vitaVifVuMemPtr, htag] at hptr
    exact hptr
  rw [UnpackCommand.destination, vitaVifVuMemPtr_eq, hplace.2, BitVec.toNat_add,
    BitVec.toNat_ofNat]
  simp only [vuMemSize]
  omega

/-- The UNPACK of a direct span overlays the memory. -/
theorem mtvuUnpack_direct (hready : command.Ready) (hdirect : command.Direct)
    (htag : command.tagAddr &&& vuMemMask .vif1 = command.tagAddr)
    (hcount : command.cycleWl = 0 → command.num.toNat ≤ 1) {span : VifUnpackSpan}
    (hdestination : span.destinationQword = command.tagAddr.toNat / 16)
    (hvectors : span.vectorCount = command.num.toNat) (newVifDynaRec : Bool)
    (maskCol : Lanes 4 32) (data : ℕ → Byte) (vector : VectorState) :
    mtvuUnpack newVifDynaRec command maskCol data vector =
      { vector with memory := span.overlay data vector.memory } := by
  have hlt : span.destinationQword < 1024 := by
    have hptr := vitaVifVuMemPtr_eq .vif1 command.tagAddr
    rw [vitaVifVuMemPtr, htag] at hptr
    simp only [vuMemSize] at hptr
    omega
  have hcounted : ∀ count ≤ command.num.toNat,
      Deferral.replay
        (fun vector i => command.store maskCol i (command.words newVifDynaRec data i) vector)
        (List.range count) vector =
      { vector with memory := { span with vectorCount := count }.overlay data vector.memory } := by
    intro count
    induction count with
    | zero =>
      intro _
      refine VectorState.ext (funext fun address => ?_) rfl
      refine (overlay_of_not_covers ?_).symm
      rintro ⟨_, hvector⟩
      exact absurd hvector (Nat.not_lt_zero _)
    | succ count ih =>
      intro hle
      have hle256 := hready.num_le
      obtain ⟨hdata, hdest⟩ := place_direct hdirect htag hcount
        (show count < command.num.toNat by omega)
      rw [List.range_succ, Deferral.replay_append, ih (by omega), Deferral.replay_singleton,
        store_direct hdirect, hdata, hdest, ← hdestination]
      refine VectorState.ext (funext fun address => ?_) rfl
      have hvectorOf : ∀ (haddress : address < 1024 * 16) (n : ℕ),
          ({ span with vectorCount := n } : VifUnpackSpan).vectorOf ⟨address / 16, by omega⟩ =
            (address / 16 + 1024 - span.destinationQword) % 1024 := fun haddress _ =>
        vectorOf_address hlt haddress
      simp only [VifUnpackSpan.overlay, memcpy]
      by_cases haddress : address < 1024 * 16
      · simp only [haddress, dif_pos, hvectorOf haddress]
        split
        next hin =>
          rw [if_pos (by omega)]
          congr 1
          omega
        next hout =>
          split
          next => rw [if_pos (by omega)]
          next => rw [if_neg (by omega)]
      · simp only [haddress, dif_neg, not_false_eq_true]
        rw [if_neg (by omega)]
  rw [mtvuUnpack_eq hready, hcounted _ le_rfl, ← hvectors]

end Direct

/-! ### Captured spans -/

section Captured

variable {command : UnpackCommand} {sequence size payloadSize : ℕ}

/-- The span of a captured UNPACK. -/
def UnpackCommand.capturedSpan (command : UnpackCommand) (sequence size payloadSize : ℕ)
    (payload : RawVifPayloadRef) : VifUnpackSpan :=
  { command.span sequence size with
    sourceSize := payloadSize
    payload := payload }

/-- The tag address of a completed UNPACK is the address of a qword. -/
lemma UnpackCommand.Completed.tagAddr_toNat (hcompleted : command.Completed) :
    command.tagAddr.toNat = command.tagAddr.toNat / 16 * 16 ∧ command.tagAddr.toNat < 2 ^ 14 := by
  have hptr := vitaVifVuMemPtr_eq .vif1 command.tagAddr
  rw [vitaVifVuMemPtr, hcompleted.tagAddr] at hptr
  simp only [vuMemSize] at hptr
  omega

lemma UnpackCommand.Completed.destinationQword (hcompleted : command.Completed)
    (sequence size : ℕ) :
    (command.span sequence size).destinationQword = command.tagAddr.toNat / 16 := by
  have hlt := hcompleted.tagAddr_toNat.2
  have hshift : (command.tagAddr >>> 4).toNat = command.tagAddr.toNat / 16 := by
    rw [BitVec.toNat_ushiftRight, Nat.shiftRight_eq_div_pow]
  change (command.tagAddr >>> 4).toNat % 2 ^ 16 = _
  rw [hshift]
  omega

/-- The replay sets up the UNPACK that was captured. -/
lemma unpackCommand_capturedSpan (hcompleted : command.Completed) (payload : RawVifPayloadRef) :
    (command.capturedSpan sequence size payloadSize payload).unpackCommand =
      { command with
        pass := 1
        itop := command.itop % 2 ^ 16
        top := command.top % 2 ^ 16 } := by
  have hcmd := hcompleted.command_toNat sequence size
  have hmode : command.mode % 2 ^ 8 = command.mode := by
    have := hcompleted.mode
    omega
  have htag : BitVec.ofNat 32 ((command.span sequence size).destinationQword * 16) =
      command.tagAddr := by
    rw [hcompleted.destinationQword, ← hcompleted.tagAddr_toNat.1, BitVec.ofNat_toNat,
      BitVec.setWidth_eq]
  have hnum : BitVec.ofNat 32 (command.span sequence size).vectorCount = command.num := by
    rw [hcompleted.vectorCount, BitVec.ofNat_toNat, BitVec.setWidth_eq]
  have hcl := hcompleted.cl
  have htagCmd := hcompleted.cmd
  obtain ⟨tagAddr, tagSize, tagCmd, cmd, pass, cl, usn, startAligned, cycleCl, cycleWl, mode, num,
    mask, itop, top⟩ := command
  dsimp only at hcl htagCmd hcmd
  subst hcl
  simp only [UnpackCommand.capturedSpan, VifUnpackSpan.unpackCommand, htag, hnum, hcmd]
  simp only [UnpackCommand.span, htagCmd, hmode]

/-- A direct captured span is the span of a direct UNPACK with all its data. -/
lemma direct_of_capturedSpan (hcompleted : command.Completed)
    (hsize : getUniversalVifUnpackPayloadSize (command.span sequence size) = some payloadSize)
    {payload : RawVifPayloadRef}
    (hdirect : isDirectAffineV4_32Span
      (command.capturedSpan sequence size payloadSize payload) = true) :
    command.Direct ∧ (command.cycleWl = 0 → command.num.toNat ≤ 1) := by
  obtain ⟨hbit, -, -, -, hend⟩ := of_getUniversalVifUnpackPayloadSize hsize
  have hcl := hcompleted.cycleCl
  have hwl := hcompleted.cycleWl
  have hdescribes := hcompleted.describes sequence size
  have hcapacity := (of_isDirectAffine hdirect).2.2
  unfold isDirectAffineV4_32Span at hdirect
  dsimp only at hdirect
  split at hdirect
  next => cases hdirect
  next hshape =>
    simp only [not_or, not_not] at hshape
    obtain ⟨hcommand, hmode, -, -, -, hcycle⟩ := hshape
    have hcmd : command.cmd = 0x6c := by
      have hall : ∀ value : BitVec 8, value.getLsbD 7 = false → value &&& 0x7f#8 = 0x6c#8 →
          value.toNat = 0x6c := by decide
      rw [← hcompleted.command_toNat sequence size]
      exact hall _ hbit hcommand
    have hmode : command.mode = 0 := by
      have hmode : command.mode % 2 ^ 8 = 0 := hmode
      have := hcompleted.mode
      omega
    have hcycle : command.cycleCl = command.cycleWl := by
      have hcycle : normalizedCycle command.cycleCl = normalizedCycle command.cycleWl := hcycle
      unfold normalizedCycle at hcycle
      split at hcycle <;> split at hcycle <;> omega
    refine ⟨⟨hcmd, hmode, hcycle⟩, fun hzero => ?_⟩
    -- a cycle of zero reads one vector, whatever NUM says
    let decoded := (command.span sequence size).decoded
    have hformat : decoded.format = 0x0c :=
      hdescribes.format.trans (format_direct ⟨hcmd, hmode, hcycle⟩)
    have hstay : ∀ i, (decoded.advance^[i] {}).sourceOffset = 0 := by
      intro i
      refine CountedLoop.invariant (fun _ (cursor : Vu.UnpackCursor) => cursor.sourceOffset = 0) ?_ rfl
      intro _ _ cursor hcursor
      have hwrite : decoded.writeCycle = 256 := if_neg (not_not.mpr (hdescribes.cycleWl.trans hzero))
      have hzero' : decoded.cycleCl = 0 := hdescribes.cycleCl.trans (hcycle.trans hzero)
      have hfill : decoded.isFill = true := by
        refine decide_eq_true ?_
        rw [hwrite, hzero']
        decide
      unfold Vu.DecodedVifCommand.advance
      simp only [hfill, if_true, hzero', Nat.le_zero, Nat.succ_ne_zero, if_false]
      split <;> exact hcursor
    have hle := ((maximumEnd_spec hend).2 16 (Nat.zero_le _) fun i _ => by
      rw [hstay i, hformat]
      exact le_rfl).2
    have hcount : command.num.toNat * 16 ≤ payloadSize := by
      have hcapacity : (command.span sequence size).vectorCount * 16 ≤ payloadSize := hcapacity
      rw [hcompleted.vectorCount] at hcapacity
      exact hcapacity
    omega

variable {newVifDynaRec : Bool} {resolve : RawVifPayloadRef → Option (ℕ → Byte)}

/-- A captured span does what its UNPACK does in its place. -/
theorem replay_capturedSpan (hcompleted : command.Completed)
    (hsize : getUniversalVifUnpackPayloadSize (command.span sequence size) = some payloadSize)
    {payload : RawVifPayloadRef} {data source : ℕ → Byte} (hsource : resolve payload = some source)
    (hdata : ∀ k < payloadSize, source k = data k) (maskCol : Lanes 4 32) (vector : VectorState) :
    replayVifUnpackSpan newVifDynaRec resolve maskCol vector
        (command.capturedSpan sequence size payloadSize payload) =
      mtvuUnpack newVifDynaRec command maskCol data vector := by
  have hready := hcompleted.ready hsize
  have hpayload : mtvuUnpack newVifDynaRec command maskCol source vector =
      mtvuUnpack newVifDynaRec command maskCol data vector :=
    mtvuUnpack_congr hready (fun i hi => words_congr hcompleted hsize hdata newVifDynaRec hi) vector
  have hcount : (command.capturedSpan sequence size payloadSize payload).vectorCount =
      command.num.toNat := hcompleted.vectorCount sequence size
  cases hdirect : isDirectAffineV4_32Span
      (command.capturedSpan sequence size payloadSize payload) with
  | true =>
    obtain ⟨hcommand, hnum⟩ := direct_of_capturedSpan hcompleted hsize hdirect
    have hle : (command.capturedSpan sequence size payloadSize payload).vectorCount ≤ 1024 := by
      have := hcompleted.num_le
      omega
    rw [replay_of_direct hsource hdirect hle, ← hpayload]
    exact (mtvuUnpack_direct hready hcommand hcompleted.tagAddr hnum
      (hcompleted.destinationQword sequence size) hcount newVifDynaRec maskCol source vector).symm
  | false =>
    rw [replay_of_not_direct hsource hdirect, unpackCommand_capturedSpan hcompleted]
    exact hpayload

end Captured

/-! ### Spans of a journal -/

/-- The bytes of every generation of every slot of an owner. -/
abbrev PayloadArena := ℕ → ℕ → ℕ → ℕ → Byte

/-- Payloads are resolvable: a range of a generation has the bytes of the arena. -/
def Resolves (arena : PayloadArena) (resolve : RawVifPayloadRef → Option (ℕ → Byte)) : Prop :=
  ∀ payload : RawVifPayloadRef, payload.isValid = true →
    isInputRingLogicalRange payload.offset payload.size = true →
    resolve payload = some fun index =>
      arena payload.owner payload.slot payload.generation (payload.offset + index)

/-- A span that `VifUnpack` has written. -/
structure VifUnpackSpan.Ready (span : VifUnpackSpan) : Prop where
  valid : span.payload.isValid = true
  range : isInputRingLogicalRange span.payload.offset span.payload.size = true
  command : isDirectAffineV4_32Span span = false → span.unpackCommand.Ready
  count : isDirectAffineV4_32Span span = true → span.vectorCount ≤ 1024

section Journal

variable {newVifDynaRec : Bool} {arena : PayloadArena}
  {resolve : RawVifPayloadRef → Option (ℕ → Byte)} {span : VifUnpackSpan}

/-- A span sees of the memory what it does not overwrite. -/
lemma AgreeOff.replaySpan (hresolves : Resolves arena resolve) (hready : span.Ready)
    {hidden : ℕ → Prop} {left right : VectorState} (h : AgreeOff hidden left right)
    (maskCol : Lanes 4 32) :
    AgreeOff hidden (replayVifUnpackSpan newVifDynaRec resolve maskCol left span)
      (replayVifUnpackSpan newVifDynaRec resolve maskCol right span) := by
  have hsource := hresolves _ hready.valid hready.range
  cases hdirect : isDirectAffineV4_32Span span with
  | true =>
    rw [replay_of_direct hsource hdirect (hready.count hdirect),
      replay_of_direct hsource hdirect (hready.count hdirect)]
    refine ⟨h.maskRow, fun address ha => ?_⟩
    dsimp only
    by_cases hcovers : span.Covers address
    · rw [overlay_of_covers hcovers, overlay_of_covers hcovers]
    · rw [overlay_of_not_covers hcovers, overlay_of_not_covers hcovers, h.memory address ha]
  | false =>
    rw [replay_of_not_direct hsource hdirect, replay_of_not_direct hsource hdirect]
    exact h.mtvuUnpack (hready.command hdirect)

/-- A span that does not use the rows may change places with a write to them. -/
lemma replaySpan_withRow (hresolves : Resolves arena resolve) (hready : span.Ready)
    (h : ¬span.unpackCommand.UsesRow) (maskCol maskRow : Lanes 4 32) (vector : VectorState) :
    (replayVifUnpackSpan newVifDynaRec resolve maskCol vector span).withRow maskRow =
      replayVifUnpackSpan newVifDynaRec resolve maskCol (vector.withRow maskRow) span := by
  have hsource := hresolves _ hready.valid hready.range
  cases hdirect : isDirectAffineV4_32Span span with
  | true =>
    rw [replay_of_direct hsource hdirect (hready.count hdirect),
      replay_of_direct hsource hdirect (hready.count hdirect)]
    rfl
  | false =>
    rw [replay_of_not_direct hsource hdirect, replay_of_not_direct hsource hdirect,
      mtvuUnpack_withRow (hready.command hdirect) h]

/-- A span that does not use the columns is the same under others. -/
lemma replaySpan_maskCol (hresolves : Resolves arena resolve) (hready : span.Ready)
    (h : ¬span.unpackCommand.UsesColumn) (maskCol maskCol' : Lanes 4 32) (vector : VectorState) :
    replayVifUnpackSpan newVifDynaRec resolve maskCol vector span =
      replayVifUnpackSpan newVifDynaRec resolve maskCol' vector span := by
  have hsource := hresolves _ hready.valid hready.range
  cases hdirect : isDirectAffineV4_32Span span with
  | true =>
    rw [replay_of_direct hsource hdirect (hready.count hdirect),
      replay_of_direct hsource hdirect (hready.count hdirect)]
  | false =>
    rw [replay_of_not_direct hsource hdirect, replay_of_not_direct hsource hdirect,
      mtvuUnpack_maskCol (hready.command hdirect) h]

/-! ### Dropping a span -/

lemma direct_of_fullyOverwrites {newer older : VifUnpackSpan}
    (h : directAffineSpanFullyOverwrites newer older = true) :
    isDirectAffineV4_32Span newer = true ∧ isDirectAffineV4_32Span older = true := by
  unfold directAffineSpanFullyOverwrites at h
  cases hnewer : isDirectAffineV4_32Span newer <;>
    cases holder : isDirectAffineV4_32Span older <;> simp_all

/-- The later span covers what the earlier one wrote. -/
lemma covers_of_fullyOverwrites {newer older : VifUnpackSpan}
    (h : directAffineSpanFullyOverwrites newer older = true) {address : ℕ}
    (hcovers : older.Covers address) : newer.Covers address := by
  obtain ⟨hnewer, holder⟩ := direct_of_fullyOverwrites h
  obtain ⟨-, hnewer', -⟩ := of_isDirectAffine hnewer
  obtain ⟨-, holder', -⟩ := of_isDirectAffine holder
  obtain ⟨haddress, hvector⟩ := hcovers
  unfold directAffineSpanFullyOverwrites at h
  rw [hnewer, holder, Bool.not_true, Bool.or_self, if_neg Bool.false_ne_true] at h
  simp only [Bool.and_eq_true] at h
  have hoffset := of_decide_eq_true h.1
  have hcount := of_decide_eq_true h.2
  simp only [vu1MemoryQwords] at hoffset hcount
  rw [vectorOf_address holder' haddress] at hvector
  refine ⟨haddress, ?_⟩
  rw [vectorOf_address hnewer' haddress]
  omega

/-- A journal without the spans that a later one covers has the same effect with it. -/
theorem replay_drop (hresolves : Resolves arena resolve) {journal : List VifUnpackSpan}
    (hready : ∀ older ∈ journal, older.Ready) (hspan : span.Ready) (maskCol : Lanes 4 32)
    (vector : VectorState) :
    replayVifUnpackSpans newVifDynaRec resolve maskCol
        (journal.filter (fun older => !directAffineSpanFullyOverwrites span older) ++ [span])
        vector =
      replayVifUnpackSpans newVifDynaRec resolve maskCol (journal ++ [span]) vector := by
  have hagree : AgreeOff span.Covers
      (replayVifUnpackSpans newVifDynaRec resolve maskCol
        (journal.filter fun older => !directAffineSpanFullyOverwrites span older) vector)
      (replayVifUnpackSpans newVifDynaRec resolve maskCol journal vector) := by
    refine Deferral.replay_filter (AgreeOff span.Covers) _ (fun _ _ _ h h' => h.trans h') ?_ ?_
      (AgreeOff.refl _ vector)
    · exact fun older holder left right h => h.replaySpan hresolves (hready older holder) maskCol
    · intro older holder hdrop vector
      have hover : directAffineSpanFullyOverwrites span older = true := by simpa using hdrop
      have hdirect := (direct_of_fullyOverwrites hover).2
      have holder := hready older holder
      rw [replay_of_direct (hresolves _ holder.valid holder.range) hdirect (holder.count hdirect)]
      refine ⟨rfl, fun address ha => ?_⟩
      dsimp only
      exact (overlay_of_not_covers fun hcovers =>
        ha (covers_of_fullyOverwrites hover hcovers)).symm
  unfold replayVifUnpackSpans at hagree ⊢
  rw [Deferral.replay_append, Deferral.replay_append, Deferral.replay_singleton,
    Deferral.replay_singleton]
  cases hdirect : isDirectAffineV4_32Span span with
  | true =>
    have hsource := hresolves _ hspan.valid hspan.range
    rw [replay_of_direct hsource hdirect (hspan.count hdirect),
      replay_of_direct hsource hdirect (hspan.count hdirect)]
    refine VectorState.ext (funext fun address => ?_) hagree.maskRow
    dsimp only
    by_cases hcovers : span.Covers address
    · rw [overlay_of_covers hcovers, overlay_of_covers hcovers]
    · rw [overlay_of_not_covers hcovers, overlay_of_not_covers hcovers,
        hagree.memory address hcovers]
  | false =>
    -- a span that is not direct overwrites none
    have hkeep : journal.filter (fun older => !directAffineSpanFullyOverwrites span older) =
        journal := by
      refine List.filter_eq_self.mpr fun older _ => ?_
      simp [directAffineSpanFullyOverwrites, hdirect]
    rw [hkeep]

/-! ### Merging two spans -/

/-- A merged span does what the two do one after another. -/
theorem replay_merged (hresolves : Resolves arena resolve) {earlier later merged : VifUnpackSpan}
    (hearlier : earlier.Ready) (hlater : later.Ready)
    (h : mergeAdjacentDirectAffineV4_32Spans earlier later = some merged) :
    merged.Ready ∧ ∀ maskCol vector,
      replayVifUnpackSpan newVifDynaRec resolve maskCol vector merged =
        replayVifUnpackSpan newVifDynaRec resolve maskCol
          (replayVifUnpackSpan newVifDynaRec resolve maskCol vector earlier) later := by
  unfold mergeAdjacentDirectAffineV4_32Spans at h
  cases hdirect : isDirectAffineV4_32Span earlier <;> cases hdirect' : isDirectAffineV4_32Span later
  any_goals
    rw [hdirect, hdirect'] at h
    cases h
  rw [hdirect, hdirect', Bool.not_true, Bool.or_self, if_neg Bool.false_ne_true] at h
  dsimp only at h
  split at h
  next => cases h
  next hadjacent =>
    obtain rfl := Option.some.inj h
    simp only [not_or, not_not, Nat.not_lt, vu1MemoryQwords] at hadjacent
    obtain ⟨hcombined, hsize, hsize', -, -, howner, hslot, hgeneration, hoffset, hring, hnext⟩ :=
      hadjacent
    obtain ⟨hpos, hdestination, -⟩ := of_isDirectAffine hdirect
    obtain ⟨hpos', hdestination', -⟩ := of_isDirectAffine hdirect'
    generalize hmerged : ({ earlier with
      payload := { earlier.payload with
        size := earlier.vectorCount * 16 + later.vectorCount * 16 }
      sourceSize := earlier.vectorCount * 16 + later.vectorCount * 16
      tagSizeWords := (earlier.vectorCount * 16 + later.vectorCount * 16) / 4
      vectorCount := earlier.vectorCount + later.vectorCount } : VifUnpackSpan) = merged
    have hdirectMerged : isDirectAffineV4_32Span merged = true := by
      subst hmerged
      unfold isDirectAffineV4_32Span at hdirect ⊢
      dsimp only at hdirect ⊢
      split at hdirect
      next => cases hdirect
      next hshape =>
        simp only [not_or, not_not] at hshape
        rw [if_neg]
        · exact decide_eq_true (by omega)
        · simp only [not_or, not_not]
          exact ⟨hshape.1, hshape.2.1, hshape.2.2.1, by omega, hshape.2.2.2.2⟩
    have hready : merged.Ready := by
      refine ⟨?_, ?_, fun hno => absurd hdirectMerged (by simp [hno]), fun _ => ?_⟩
      · have hvalid := hearlier.valid
        subst hmerged
        simp only [RawVifPayloadRef.isValid, decide_eq_true_eq] at hvalid ⊢
        exact ⟨hvalid.1, hvalid.2.1, by omega⟩
      · subst hmerged
        simp only [isInputRingLogicalRange, decide_eq_true_eq]
        omega
      · subst hmerged
        exact hcombined
    refine ⟨hready, fun maskCol vector => ?_⟩
    rw [replay_of_direct (hresolves _ hready.valid hready.range) hdirectMerged
        (hready.count hdirectMerged),
      replay_of_direct (hresolves _ hearlier.valid hearlier.range) hdirect (hearlier.count hdirect),
      replay_of_direct (hresolves _ hlater.valid hlater.range) hdirect' (hlater.count hdirect')]
    refine VectorState.ext (funext fun address => ?_) rfl
    have hdestination'' : merged.destinationQword = earlier.destinationQword := by
      subst hmerged
      rfl
    have hcount : merged.vectorCount = earlier.vectorCount + later.vectorCount := by
      subst hmerged
      rfl
    have hpayload : merged.payload.owner = earlier.payload.owner ∧
        merged.payload.slot = earlier.payload.slot ∧
        merged.payload.generation = earlier.payload.generation ∧
        merged.payload.offset = earlier.payload.offset := by
      subst hmerged
      exact ⟨rfl, rfl, rfl, rfl⟩
    obtain ⟨howner', hslot', hgeneration', hoffset'⟩ := hpayload
    simp only [VifUnpackSpan.overlay, howner', hslot', hgeneration', hoffset', ← howner, ← hslot,
      ← hgeneration, ← hoffset]
    by_cases haddress : address < 1024 * 16
    · rw [dif_pos haddress, dif_pos haddress, dif_pos haddress,
        vectorOf_address (hdestination''.trans_lt hdestination) haddress,
        vectorOf_address hdestination haddress, vectorOf_address hdestination' haddress,
        hdestination'', hcount]
      by_cases hin : (address / 16 + 1024 - later.destinationQword) % 1024 < later.vectorCount
      · rw [if_pos hin]
        refine (if_pos (by omega)).trans ?_
        congr 1
        omega
      · rw [if_neg hin]
        by_cases hin' : (address / 16 + 1024 - earlier.destinationQword) % 1024 <
            earlier.vectorCount
        · rw [if_pos hin']
          exact if_pos (by omega)
        · rw [if_neg hin']
          exact if_neg (by omega)
    · rw [dif_neg haddress, dif_neg haddress, dif_neg haddress]

end Journal

end VitaSX2.Vif
