/-
The bytes that an UNPACK reads (`VitaGpuVuCommandEpoch.cpp`, `MTVU.cpp`).

The descriptor of a span walks through source and destination like the loop of
the UNPACK, so the size that it computes covers every vector that is loaded.  An
UNPACK is then the same on any payload with these bytes.
-/
import VitaSX2.Vif.UnpackFold

namespace VitaSX2.Vif

open VitaSX2.Vu (loadU32 loadU16 extendU8 extendU16 UnpackCursor DecodedVifCommand)

/-! ### The furthest byte of a descriptor -/

section Descriptor

variable {decoded : DecodedVifCommand}

/-- The size is reached by some vector, and by no vector exceeded. -/
lemma maximumEnd_spec {count furthest size : ℕ} {cursor : UnpackCursor}
    (h : decoded.maximumEnd count cursor furthest = some size) :
    (∀ i < count, (decoded.advance^[i] cursor).sourceOffset +
      Vu.vectorReadBytes decoded.format ≤ size) ∧
      ∀ bound, furthest ≤ bound → (∀ i < count, (decoded.advance^[i] cursor).sourceOffset +
        Vu.vectorReadBytes decoded.format ≤ bound) → furthest ≤ size ∧ size ≤ bound := by
  induction count generalizing cursor furthest with
  | zero =>
    obtain rfl := Option.some.inj h
    exact ⟨fun i hi => absurd hi (Nat.not_lt_zero i), fun bound hbound _ => ⟨le_rfl, hbound⟩⟩
  | succ count ih =>
    unfold DecodedVifCommand.maximumEnd at h
    split at h
    next => cases h
    next =>
      obtain ⟨hcover, hbound⟩ := ih h
      have hfurthest : max furthest (cursor.sourceOffset + Vu.vectorReadBytes decoded.format) ≤
          size := by
        refine (hbound (max size (max furthest (cursor.sourceOffset +
          Vu.vectorReadBytes decoded.format))) (Nat.le_max_right _ _) fun i hi => ?_).1
        exact (hcover i hi).trans (Nat.le_max_left _ _)
      constructor
      · intro i hi
        cases i with
        | zero => exact (Nat.le_max_right _ _).trans hfurthest
        | succ i => exact hcover i (Nat.lt_of_succ_lt_succ hi)
      · intro bound hle hall
        refine ⟨(Nat.le_max_left _ _).trans hfurthest, (hbound bound ?_ fun i hi => ?_).2⟩
        · exact Nat.max_le.mpr ⟨hle, hall 0 (Nat.succ_pos count)⟩
        · exact hall (i + 1) (Nat.succ_lt_succ hi)

end Descriptor

/-! ### The descriptor beside the loop -/

section Beside

variable {command : UnpackCommand} {decoded : DecodedVifCommand}

/-- The descriptor has the cycle and the format of the command. -/
structure Describes (decoded : DecodedVifCommand) (command : UnpackCommand) : Prop where
  cycleCl : decoded.cycleCl = command.cycleCl
  cycleWl : decoded.cycleWl = command.cycleWl
  format : decoded.format = command.format

/-- Both stand in front of the vector `i`.  WL zero closes a cycle of 256 vectors
in the descriptor only, which is behind the last vector. -/
structure BesideCursor (command : UnpackCommand) (i : ℕ) (loop : UnpackLoop)
    (cursor : UnpackCursor) : Prop where
  data : loop.data = cursor.sourceOffset
  cl : i < 256 → loop.state.cl = cursor.cycle
  long : command.cycleWl = 0 → i < 256 → cursor.cycle = i

lemma BesideCursor.step (hready : command.Ready) (hdecoded : Describes decoded command) {i : ℕ}
    {loop : UnpackLoop} {cursor : UnpackCursor} (hi : i < 256)
    (h : BesideCursor command i loop cursor) :
    BesideCursor command (i + 1)
      (unpackTurn .vif1 (command.regs noColumn) (command.regs noColumn).isFill skipVector loop)
      (decoded.advance cursor) := by
  have hvector : decoded.vectorBytes = nVifT command.format := by
    rw [DecodedVifCommand.vectorBytes, hdecoded.format]
    rfl
  have hwrite : decoded.writeCycle = if command.cycleWl ≠ 0 then command.cycleWl else 256 := by
    rw [DecodedVifCommand.writeCycle, hdecoded.cycleWl]
  have hfill : decoded.isFill = (command.regs noColumn).isFill := by
    rw [DecodedVifCommand.isFill, hdecoded.cycleCl, hwrite]
    rfl
  have hcycle := h.cl hi
  have hlong := h.long
  have hcl := hready.cycleCl
  -- the loop without its store
  have hturn : ∀ isFill, BesideCursor command (i + 1)
        (loop.advance (command.regs noColumn) isFill (nVifT command.format))
        (decoded.advance cursor) →
      BesideCursor command (i + 1)
        (unpackTurn .vif1 (command.regs noColumn) isFill skipVector loop)
        (decoded.advance cursor) := fun _ h => ⟨h.data, h.cl, h.long⟩
  apply hturn
  cases hisFill : (command.regs noColumn).isFill with
  | true =>
    have hlt : command.cycleCl < if command.cycleWl ≠ 0 then command.cycleWl else 256 :=
      of_decide_eq_true hisFill
    unfold UnpackLoop.advance DecodedVifCommand.advance
    rw [hfill, hisFill, hdecoded.cycleCl, hwrite, hvector, hcycle]
    simp only [if_true]
    change BesideCursor command (i + 1)
      (if cursor.cycle + 1 ≤ command.cycleCl then _
        else if cursor.cycle + 1 = command.cycleWl then _ else _) _
    split
    next hmore =>
      exact ⟨congrArg (· + nVifT command.format) h.data, fun _ => rfl,
        fun hzero _ => congrArg (· + 1) (hlong hzero hi)⟩
    next =>
      by_cases hzero : command.cycleWl = 0
      · have hcursor := hlong hzero hi
        rw [if_neg (by omega), if_neg (not_not.mpr hzero)]
        split
        next => exact ⟨h.data, fun hlt => by omega, fun _ hlt => by omega⟩
        next => exact ⟨h.data, fun _ => rfl, fun _ _ => congrArg (· + 1) hcursor⟩
      · rw [if_pos hzero]
        split
        next => exact ⟨h.data, fun _ => rfl, fun hwl => absurd hwl hzero⟩
        next => exact ⟨h.data, fun _ => rfl, fun hwl => absurd hwl hzero⟩
  | false =>
    have hge : ¬command.cycleCl < if command.cycleWl ≠ 0 then command.cycleWl else 256 :=
      of_decide_eq_false hisFill
    have hzero : command.cycleWl ≠ 0 := by
      intro hzero
      rw [if_neg (not_not.mpr hzero)] at hge
      exact hge hcl
    unfold UnpackLoop.advance DecodedVifCommand.advance
    rw [hfill, hisFill, hwrite, hvector, hcycle, if_pos hzero]
    simp only [Bool.false_eq_true, if_false]
    change BesideCursor command (i + 1) (if command.cycleWl ≤ cursor.cycle + 1 then _ else _) _
    split
    next =>
      exact ⟨congrArg (· + nVifT command.format) h.data, fun _ => rfl,
        fun hwl => absurd hwl hzero⟩
    next =>
      exact ⟨congrArg (· + nVifT command.format) h.data, fun _ => rfl,
        fun hwl => absurd hwl hzero⟩

/-- The data of every vector lies where the descriptor says. -/
theorem place_data (hready : command.Ready) (hdecoded : Describes decoded command) {i : ℕ}
    (hi : i < 256) :
    (command.place i).data = (decoded.advance^[i] {}).sourceOffset := by
  have hbeside : BesideCursor command i (command.place i) (decoded.advance^[i] {}) :=
    CountedLoop.simulation (BesideCursor command)
      (fun j hj _ _ h => h.step hready hdecoded (by omega)) ⟨rfl, fun _ => hready.cl, fun _ _ => rfl⟩
  exact hbeside.data

end Beside

/-! ### Loads -/

section Loads

variable {data data' : ℕ → Byte} {offset : ℕ}

/-- The bytes of an element of a VL field. -/
def elementBytes (vl : ℕ) : ℕ :=
  match vl with
  | 0 => 4
  | 1 => 2
  | _ => 1

lemma element_congr {vl index : ℕ} (usn : Bool)
    (h : ∀ k < elementBytes vl * (index + 1), data (offset + k) = data' (offset + k)) :
    element data vl usn offset index = element data' vl usn offset index := by
  have hbyte : ∀ k < elementBytes vl,
      data (offset + elementBytes vl * index + k) = data' (offset + elementBytes vl * index + k) := by
    intro k hk
    rw [Nat.add_assoc]
    exact h _ (by rw [Nat.mul_add]; omega)
  match vl with
  | 0 =>
    have h0 := hbyte 0 (by decide)
    simp only [elementBytes, Nat.add_zero] at h0 hbyte
    simp only [element, loadU32, h0, hbyte 1 (by decide), hbyte 2 (by decide), hbyte 3 (by decide)]
  | 1 =>
    have h0 := hbyte 0 (by decide)
    simp only [elementBytes, Nat.add_zero] at h0 hbyte
    simp only [element, loadU16, h0, hbyte 1 (by decide)]
  | n + 2 =>
    have h0 := hbyte 0 Nat.one_pos
    simp only [elementBytes, Nat.one_mul, Nat.add_zero] at h0
    simp only [element, h0]

/-- Every lane has its element inside the bytes of the vector. -/
lemma elementBytes_le :
    ∀ format < 16, format % 4 ≠ 3 → ∀ lane : Fin 4,
      elementBytes (format % 4) * (elementIndex format lane + 1) ≤ Vu.vectorReadBytes format := by
  decide

/-- The packed word of V4-5. -/
lemma v4_5Words_congr {format : ℕ} (hformat : format = 0x0f)
    (h : ∀ k < Vu.vectorReadBytes format, data (offset + k) = data' (offset + k)) :
    v4_5Words data offset = v4_5Words data' offset := by
  rw [hformat] at h
  have h0 : data offset = data' offset := h 0 (by decide)
  simp only [v4_5Words, loadU16, h0, h 1 (by decide)]

/-- The elements of the other formats. -/
lemma elements_congr {format : ℕ} (hlt : format < 16) (hvl : format % 4 ≠ 3) (usn : Bool)
    (h : ∀ k < Vu.vectorReadBytes format, data (offset + k) = data' (offset + k)) (lane : Fin 4) :
    element data (format % 4) usn offset (elementIndex format lane) =
      element data' (format % 4) usn offset (elementIndex format lane) := by
  have hle := elementBytes_le format hlt hvl lane
  exact element_congr usn fun k hk => h k (by omega)

/-- A vector is loaded from the bytes that the descriptor counts for it. -/
lemma formatWords_congr {regs : UnpackRegs} (hdata : nVifT regs.format ≠ 0) (iteration : ℕ)
    (h : ∀ k < Vu.vectorReadBytes regs.format, data (offset + k) = data' (offset + k)) :
    formatWords regs data offset iteration = formatWords regs data' offset iteration := by
  unfold formatWords
  split
  next hformat => exact v4_5Words_congr hformat h
  next hformat =>
    funext lane
    simp only [vectorWords, elements_congr format_lt ((format_cases hdata).resolve_left hformat) _ h]

variable {command : UnpackCommand}

theorem loadWords_congr (hready : command.Ready) (newVifDynaRec : Bool) (iteration : ℕ)
    (h : ∀ k < Vu.vectorReadBytes command.format, data (offset + k) = data' (offset + k)) :
    command.loadWords newVifDynaRec data offset iteration =
      command.loadWords newVifDynaRec data' offset iteration := by
  unfold UnpackCommand.loadWords
  split
  next => exact formatWords_congr hready.data iteration h
  next =>
    split
    next hformat => exact v4_5Words_congr hformat h
    next hformat =>
      exact funext fun lane => elements_congr format_lt
        ((format_cases hready.data).resolve_left hformat) _ h lane

end Loads

/-! ### Payloads -/

section Payload

variable {command : UnpackCommand}

/-- An UNPACK as the EE side leaves it when its data is complete. -/
structure UnpackCommand.Completed (command : UnpackCommand) : Prop where
  cmd : command.cmd = command.tagCmd
  tagCmd : command.tagCmd < 256
  tagAddr : command.tagAddr &&& vuMemMask .vif1 = command.tagAddr
  cl : command.cl = 0
  cycleCl : command.cycleCl < 256
  cycleWl : command.cycleWl < 256
  mode : command.mode < 4
  num : command.num ≠ 0
  num_le : command.num.toNat ≤ 256

variable {sequence size payloadSize : ℕ}

/-- What a span with a payload size satisfies. -/
lemma of_getUniversalVifUnpackPayloadSize {span : VifUnpackSpan}
    (h : getUniversalVifUnpackPayloadSize span = some payloadSize) :
    span.command.getLsbD 7 = false ∧ span.decoded.vectorBytes ≠ 0 ∧ span.destinationQword < 1024 ∧
      span.unsignedData ≤ 1 ∧
      span.decoded.maximumEnd span.vectorCount {} 0 = some payloadSize := by
  unfold getUniversalVifUnpackPayloadSize at h
  split at h
  next => cases h
  next hshape =>
    simp only [not_or, not_not, Nat.not_lt] at hshape
    unfold DecodedVifCommand.requiredPayloadBytes at h
    split at h
    next => cases h
    next hdecoded =>
      split at h
      next => cases h
      next hdata =>
        simp only [not_or, Nat.not_le] at hdecoded
        refine ⟨?_, hdata, hdecoded.2.1, hshape.2.1, h⟩
        have hbit := congrArg (·.getLsbD 7) hshape.2.2.2.1
        simpa using hbit

lemma UnpackCommand.Completed.command_toNat (hcompleted : command.Completed) (sequence size : ℕ) :
    (command.span sequence size).command.toNat = command.cmd := by
  rw [hcompleted.cmd]
  exact Nat.mod_eq_of_lt hcompleted.tagCmd

lemma UnpackCommand.Completed.vectorCount (hcompleted : command.Completed) (sequence size : ℕ) :
    (command.span sequence size).vectorCount = command.num.toNat :=
  Nat.mod_eq_of_lt (hcompleted.num_le.trans_lt (by decide))

lemma UnpackCommand.Completed.describes (hcompleted : command.Completed) (sequence size : ℕ) :
    Describes (command.span sequence size).decoded command := by
  refine ⟨rfl, rfl, ?_⟩
  have hcmd : (command.span sequence size).decoded.command = command.cmd :=
    hcompleted.command_toNat sequence size
  rw [DecodedVifCommand.format, hcmd]
  change command.cmd % 16 = command.cmd % 32 % 16
  omega

lemma UnpackCommand.Completed.ready (hcompleted : command.Completed)
    (h : getUniversalVifUnpackPayloadSize (command.span sequence size) = some payloadSize) :
    command.Ready where
  cycleCl := hcompleted.cycleCl
  cycleWl := hcompleted.cycleWl
  mode := hcompleted.mode
  data := by
    have hdata := (of_getUniversalVifUnpackPayloadSize h).2.1
    rw [DecodedVifCommand.vectorBytes, (hcompleted.describes sequence size).format] at hdata
    exact hdata
  cl := hcompleted.cl
  num := hcompleted.num
  num_le := hcompleted.num_le

/-- The payload size covers the data of every vector. -/
theorem words_congr (hcompleted : command.Completed)
    (h : getUniversalVifUnpackPayloadSize (command.span sequence size) = some payloadSize)
    {data data' : ℕ → Byte} (hdata : ∀ k < payloadSize, data k = data' k) (newVifDynaRec : Bool)
    {i : ℕ} (hi : i < command.num.toNat) :
    command.words newVifDynaRec data i = command.words newVifDynaRec data' i := by
  have hready := hcompleted.ready h
  have hdescribes := hcompleted.describes sequence size
  obtain ⟨-, -, -, -, hsize⟩ := of_getUniversalVifUnpackPayloadSize h
  rw [hcompleted.vectorCount] at hsize
  have hcover := (maximumEnd_spec hsize).1 i hi
  have hle := hready.num_le
  rw [← place_data hready hdescribes (by omega), hdescribes.format] at hcover
  exact loadWords_congr hready _ _ fun k hk => hdata _ (by omega)

end Payload

end VitaSX2.Vif
