/-
The one-vector-at-a-time loops of an UNPACK (`VitaVifInterpreter.cpp`,
`Vif_Unpack.cpp`).

Every loop stores a vector at the tag address, masked to the VU memory, and then
moves on by the CYCLE register: a filling write repeats its data behind CL
vectors, a skipping write leaves out qwords behind WL vectors.
-/
import VitaSX2.Lib.CountedLoop
import VitaSX2.Vif.UnpackVector

namespace VitaSX2.Vif

inductive VifUnit
  | vif0
  | vif1
deriving DecidableEq, Repr

/-- `VU0_MEMSIZE`, `VU1_MEMSIZE`. -/
def vuMemSize : VifUnit → ℕ
  | .vif0 => 0x1000
  | .vif1 => 0x4000

def vuMemMask : VifUnit → BitVec 32
  | .vif0 => 0xff0
  | .vif1 => 0x3ff0

/-- `VitaVifVuMemPtr`, `getVUptr`. -/
def vitaVifVuMemPtr (unit : VifUnit) (offset : BitVec 32) : ℕ := (offset &&& vuMemMask unit).toNat

/-- The bytes of one source vector. -/
def nVifT (format : ℕ) : ℕ := Vu.sourceVectorBytes.getD format 0

namespace UnpackRegs

variable (regs : UnpackRegs)

def upkNum : ℕ := regs.cmd % 32

def format : ℕ := regs.upkNum % 16

def doMask : Bool := regs.upkNum.testBit 4

/-- The direction that `MTVU_Unpack` and `nVifUnpack` choose. -/
def isFill : Bool := regs.cycleCl < if regs.cycleWl ≠ 0 then regs.cycleWl else 256

def skipSize : BitVec 32 := (BitVec.ofNat 32 regs.cycleCl - BitVec.ofNat 32 regs.cycleWl) * 16

end UnpackRegs

/-- What an UNPACK changes. -/
@[ext]
structure UnpackState where
  vector : VectorState
  tagAddr : BitVec 32
  cl : ℕ
  num : BitVec 32

/-- The state and the local variables of a loop. -/
structure UnpackLoop where
  state : UnpackState
  data : ℕ := 0
  generatedIteration : ℕ := 0

/-- What a loop does with one vector, from the cycle, the offset of the data,
the generated iteration and the destination. -/
abbrev VectorKernel := ℕ → ℕ → ℕ → ℕ → VectorState → VectorState

/-- The moves behind a vector. -/
def UnpackLoop.advance (regs : UnpackRegs) (isFill : Bool) (vsize : ℕ) (loop : UnpackLoop) :
    UnpackLoop :=
  let cl := loop.state.cl + 1
  let state :=
    { loop.state with tagAddr := loop.state.tagAddr + 16, num := loop.state.num - 1, cl := cl }
  if isFill then
    if cl ≤ regs.cycleCl then { loop with state := state, data := loop.data + vsize }
    else if cl = regs.cycleWl then { loop with state := { state with cl := 0 } }
    else { loop with state := state }
  else if regs.cycleWl ≤ cl then
    { loop with
      state := { state with tagAddr := state.tagAddr + regs.skipSize, cl := 0 }
      data := loop.data + vsize }
  else { loop with state := state, data := loop.data + vsize }

/-- Whether the generated iteration is counted before the vector. -/
def countsEarly (format : ℕ) : Bool := format = 0x09 ∨ format = 0x0a

/-- The iteration that a vector sees. -/
def vectorIteration (format generatedIteration : ℕ) : ℕ :=
  if countsEarly format then generatedIteration + 1 else generatedIteration

/-- The iteration behind it. -/
def nextIteration (format generatedIteration : ℕ) : ℕ :=
  if countsEarly format then generatedIteration + 1
  else if format = 0x08 then (generatedIteration + 1) % 2
  else generatedIteration

/-- One turn; the loops without a generated iteration have a kernel that ignores it. -/
def unpackTurn (unit : VifUnit) (regs : UnpackRegs) (isFill : Bool) (kernel : VectorKernel)
    (loop : UnpackLoop) : UnpackLoop :=
  let vector := kernel loop.state.cl loop.data (vectorIteration regs.format loop.generatedIteration)
    (vitaVifVuMemPtr unit loop.state.tagAddr) loop.state.vector
  let loop := { loop with state := { loop.state with vector := vector } }
  { loop.advance regs isFill (nVifT regs.format) with
    generatedIteration := nextIteration regs.format loop.generatedIteration }

/-- The turns of `do … while (regs.num)`. -/
def turns (num : BitVec 32) : ℕ := if num = 0 then 2 ^ 32 else num.toNat

def unpackLoop (unit : VifUnit) (regs : UnpackRegs) (isFill : Bool) (kernel : VectorKernel)
    (state : UnpackState) : UnpackState :=
  ((unpackTurn unit regs isFill kernel)^[turns state.num] { state := state }).state

/-! ### Formats -/

def vitaVifIsFastVectorFormat (format : ℕ) : Bool :=
  match format with
  | 0x00 | 0x01 | 0x02 | 0x04 | 0x05 | 0x06 | 0x08 | 0x09 | 0x0a | 0x0c | 0x0d | 0x0e => true
  | _ => false

def vitaVifIsV3Format (format : ℕ) : Bool := format = 0x08 ∨ format = 0x09 ∨ format = 0x0a

def vitaVifIsSOrV2Format (format : ℕ) : Bool := format ≤ 0x02 ∨ 0x04 ≤ format ∧ format ≤ 0x06

def vitaVifGeneratedAlignment (regs : UnpackRegs) (format : ℕ) : ℕ :=
  if format = 0x09 then regs.startAligned else regs.startAligned % 2

/-! ### Kernels -/

section Kernels

variable (regs : UnpackRegs) (source : ℕ → Byte)

/-- `VitaVifUnpackVector`; a format without a load stores nothing. -/
def vitaVifUnpackVector (format mode : ℕ) (usn doMask : Bool) (generatedAlignment : ℕ) :
    VectorKernel :=
  fun cl offset iteration destination state =>
    match vitaVifLoadUnpackVectorNeon source offset format usn iteration generatedAlignment with
    | some unpacked => vitaVifStoreModeVectorNeon regs cl destination unpacked state mode doMask
    | none => state

def vitaVifUnpackV4_5Vector (doMask : Bool) : VectorKernel := fun cl offset _ destination state =>
  let unpacked := vitaVifLoadV4_5VectorNeon source offset
  if doMask then vitaVifStoreModeVectorNeon regs cl destination unpacked state 0 true
  else vitaVifStoreVectorNeon destination unpacked state

/-- `VitaVifStorePlainUnmaskedVector`. -/
def vitaVifStorePlainUnmaskedVector (format : ℕ) (usn : Bool) : VectorKernel :=
  fun _ offset _ destination state =>
    match format with
    | 0x00 => vitaVifStoreVectorNeon destination (vitaVifLoadS_32VectorNeon source offset) state
    | 0x01 => vitaVifStoreVectorNeon destination (vitaVifLoadS_16VectorNeon source offset usn) state
    | 0x02 => vitaVifStoreVectorNeon destination (vitaVifLoadS_8VectorNeon source offset usn) state
    | 0x04 => vitaVifStoreVectorNeon destination (vitaVifLoadV2_32VectorNeon source offset) state
    | 0x05 =>
      vitaVifStoreVectorNeon destination (vitaVifLoadV2_16VectorNeon source offset usn) state
    | 0x06 => vitaVifStoreVectorNeon destination (vitaVifLoadV2_8VectorNeon source offset usn) state
    | 0x08 | 0x0c => vitaVifStoreVectorNeon destination (vld1qU32 source offset) state
    | 0x09 | 0x0d =>
      vitaVifStoreVectorNeon destination (vitaVifLoadV4_16VectorNeon source offset usn) state
    | 0x0a | 0x0e =>
      vitaVifStoreVectorNeon destination (vitaVifLoadV4_8VectorNeon source offset usn) state
    | 0x0f => vitaVifStoreVectorNeon destination (vitaVifLoadV4_5VectorNeon source offset) state
    | _ => state

end Kernels

/-! ### The loops -/

section Loops

variable (unit : VifUnit) (regs : UnpackRegs) (source : ℕ → Byte) (isFill : Bool)
  (state : UnpackState)

def vitaVifTryFastPlainUnmasked : Option UnpackState :=
  if regs.doMask ∨ regs.mode % 4 ≠ 0 ∧ regs.format ≠ 0x0f then none
  else if nVifT regs.format = 0 then none
  else if vitaVifIsV3Format regs.format then none
  else
    some (unpackLoop unit regs isFill
      (vitaVifStorePlainUnmaskedVector source regs.format regs.usn) state)

def vitaVifTryFastV4_5 : Option UnpackState :=
  if regs.format ≠ 0x0f then none
  else
    some (unpackLoop unit regs isFill (vitaVifUnpackV4_5Vector regs source regs.doMask) state)

def vitaVifTryFastUnpack : Option UnpackState :=
  if !vitaVifIsFastVectorFormat regs.format then none
  else
    some (unpackLoop unit regs isFill
      (vitaVifUnpackVector regs source regs.format (regs.mode % 4) regs.usn regs.doMask
        (vitaVifGeneratedAlignment regs regs.format)) state)

def vitaVifGenericUnpackLoop : UnpackState :=
  unpackLoop unit regs isFill
    (fun cl offset _ destination =>
      vifFuncTable regs.mode regs cl destination source offset regs.usn regs.upkNum) state

/-- `_nVifUnpackLoop` for the MODE that selects it. -/
def nVifUnpackLoop (doMode : Bool) : UnpackState :=
  unpackLoop unit regs isFill
    (fun cl offset _ destination =>
      vifFuncTable (if doMode then regs.mode else 0) regs cl destination source offset regs.usn
        regs.upkNum) state

/-- `_nVifUnpack`. -/
def nVifUnpack : UnpackState := nVifUnpackLoop unit regs source isFill state (regs.mode ≠ 0)

/-- The plain loop of a format. -/
def plainUnpack : Option UnpackState :=
  vitaVifTryFastV4_5 unit regs source isFill state <|>
    vitaVifTryFastUnpack unit regs source isFill state

end Loops

/-! ### What the kernels store -/

/-- The kernel that stores the words of a vector. -/
def laneKernel (regs : UnpackRegs) (mode : ℕ) (doMask : Bool) (words : ℕ → ℕ → Lanes 4 32) :
    VectorKernel :=
  fun cl offset iteration destination state =>
    storeLanes mode doMask regs cl destination (words offset iteration) state

/-- MODE as a format knows it. -/
def formatMode (regs : UnpackRegs) : ℕ := if regs.format = 0x0f then 0 else regs.mode % 4

/-- The words of a vector of the command. -/
def formatWords (regs : UnpackRegs) (source : ℕ → Byte) (offset iteration : ℕ) : Lanes 4 32 :=
  if regs.format = 0x0f then v4_5Words source offset
  else vectorWords source regs.format regs.usn offset iteration
    (vitaVifGeneratedAlignment regs regs.format)

/-- What every path stores at a vector. -/
def plainKernel (regs : UnpackRegs) (source : ℕ → Byte) : VectorKernel :=
  laneKernel regs (formatMode regs) regs.doMask (formatWords regs source)

section Kernels

variable {regs : UnpackRegs} (source : ℕ → Byte)

lemma format_lt : regs.format < 16 := Nat.mod_lt _ (by decide)

/-- A format with data is V4-5 or one of the twelve with a vector length. -/
lemma format_cases (h : nVifT regs.format ≠ 0) : regs.format = 0x0f ∨ regs.format % 4 ≠ 3 := by
  have hall : ∀ format < 16, nVifT format ≠ 0 → format = 0x0f ∨ format % 4 ≠ 3 := by decide
  exact hall _ format_lt h

lemma isFastVectorFormat_iff :
    vitaVifIsFastVectorFormat regs.format = true ↔ regs.format % 4 ≠ 3 := by
  have hall : ∀ format < 16, vitaVifIsFastVectorFormat format = true ↔ format % 4 ≠ 3 := by decide
  exact hall _ format_lt

lemma vitaVifUnpackVector_eq {format : ℕ} (hformat : format < 16) (hvl : format % 4 ≠ 3) (mode : ℕ)
    (usn doMask : Bool) (alignment : ℕ) :
    vitaVifUnpackVector regs source format mode usn doMask alignment =
      laneKernel regs mode doMask
        (fun offset iteration => vectorWords source format usn offset iteration alignment) := by
  funext cl offset iteration destination state
  rw [vitaVifUnpackVector, vitaVifLoadUnpackVectorNeon_eq source hformat hvl]
  exact vitaVifStoreModeVectorNeon_eq _ _ _ _ _ _ _

lemma vitaVifUnpackV4_5Vector_eq (doMask : Bool) :
    vitaVifUnpackV4_5Vector regs source doMask =
      laneKernel regs 0 doMask (fun offset _ => v4_5Words source offset) := by
  funext cl offset iteration destination state
  have hstore := vitaVifStoreModeVectorNeon_eq 0 doMask regs cl destination
    (v4_5Words source offset) state
  rw [laneKernel, ← hstore, vitaVifUnpackV4_5Vector, vitaVifLoadV4_5VectorNeon_eq]
  cases doMask <;> rfl

/-- The kernel of `VitaVifTryFastUnpack` and `VitaVifTryFastV4_5`. -/
lemma fastKernel_eq (h : nVifT regs.format ≠ 0) :
    (if regs.format = 0x0f then vitaVifUnpackV4_5Vector regs source regs.doMask
      else vitaVifUnpackVector regs source regs.format (regs.mode % 4) regs.usn regs.doMask
        (vitaVifGeneratedAlignment regs regs.format)) = plainKernel regs source := by
  by_cases hformat : regs.format = 0x0f
  · have hwords : formatWords regs source = fun offset _ => v4_5Words source offset :=
      funext fun offset => funext fun iteration => if_pos hformat
    rw [if_pos hformat, vitaVifUnpackV4_5Vector_eq, plainKernel, formatMode, if_pos hformat, hwords]
  · have hwords : formatWords regs source = fun offset iteration =>
        vectorWords source regs.format regs.usn offset iteration
          (vitaVifGeneratedAlignment regs regs.format) :=
      funext fun offset => funext fun iteration => if_neg hformat
    rw [if_neg hformat, vitaVifUnpackVector_eq source format_lt
      ((format_cases h).resolve_left hformat), plainKernel, formatMode, if_neg hformat, hwords]

/-- The formats of `VitaVifStorePlainUnmaskedVector` besides V3 and V4-5. -/
lemma storePlain_of_load {format : ℕ} (hformat : format < 16) (hvl : format % 4 ≠ 3)
    (hv3 : vitaVifIsV3Format format = false) (usn : Bool) (alignment cl offset iteration
    destination : ℕ) (state : VectorState) :
    vitaVifStorePlainUnmaskedVector source format usn cl offset iteration destination state =
      vitaVifStoreVectorNeon destination
        (vectorWords source format usn offset iteration alignment) state := by
  have hload := vitaVifLoadUnpackVectorNeon_eq source hformat hvl usn offset iteration alignment
  obtain rfl | rfl | rfl | rfl | rfl | rfl | rfl | rfl | rfl | rfl | rfl | rfl :
      format = 0x08 ∨ format = 0x09 ∨ format = 0x0a ∨ format = 0x00 ∨ format = 0x01 ∨
        format = 0x02 ∨ format = 0x04 ∨ format = 0x05 ∨ format = 0x06 ∨ format = 0x0c ∨
        format = 0x0d ∨ format = 0x0e := by omega
  · cases hv3
  · cases hv3
  · cases hv3
  all_goals exact congrArg (vitaVifStoreVectorNeon destination · state) (Option.some.inj hload)

/-- The kernel without MODE and mask. -/
lemma vitaVifStorePlainUnmaskedVector_eq (h : nVifT regs.format ≠ 0)
    (hv3 : vitaVifIsV3Format regs.format = false) :
    vitaVifStorePlainUnmaskedVector source regs.format regs.usn =
      laneKernel regs 0 false (formatWords regs source) := by
  funext cl offset iteration destination state
  have hstore := vitaVifStoreModeVectorNeon_eq 0 false regs cl destination
    (formatWords regs source offset iteration) state
  refine Eq.trans ?_ hstore
  by_cases hformat : regs.format = 0x0f
  · rw [formatWords, if_pos hformat, ← vitaVifLoadV4_5VectorNeon_eq, hformat]
    rfl
  · rw [formatWords, if_neg hformat]
    exact storePlain_of_load source format_lt ((format_cases h).resolve_left hformat) hv3 _ _ _ _
      _ _ _

/-- The table entry of a format that loses no lane. -/
lemma vifFuncTable_eq_plainKernel (h : nVifT regs.format ≠ 0)
    (hv3 : vitaVifIsV3Format regs.format = false) (hmode : regs.mode < 4) :
    (fun cl offset _ destination =>
      vifFuncTable regs.mode regs cl destination source offset regs.usn regs.upkNum) =
      plainKernel regs source := by
  funext cl offset iteration destination state
  by_cases hformat : regs.format = 0x0f
  · rw [vifFuncTable_v4_5 hformat, plainKernel, laneKernel, formatMode, if_pos hformat,
      formatWords, if_pos hformat]
    rfl
  · have hdrops : ∀ format < 16, vitaVifIsV3Format format = false → ∀ alignment,
        dropsW format iteration alignment = false := by
      intro format hlt hv3 alignment
      have h8 : format ≠ 0x08 := by rintro rfl; cases hv3
      have h9 : format ≠ 0x09 := by rintro rfl; cases hv3
      have ha : format ≠ 0x0a := by rintro rfl; cases hv3
      unfold dropsW
      split <;> simp_all
    rw [vifFuncTable_eq ((format_cases h).resolve_left hformat), plainKernel, laneKernel,
      formatMode, if_neg hformat, formatWords, if_neg hformat,
      vectorWords_of_dropsW source (hdrops _ format_lt hv3 _), Nat.mod_eq_of_lt hmode]
    rfl

end Kernels
/-! ### The plain loops -/

section PlainLoops

variable {unit : VifUnit} {regs : UnpackRegs} {source : ℕ → Byte} {isFill : Bool}
  {state : UnpackState}

/-- The plain loop of a format with data. -/
theorem plainUnpack_eq (h : nVifT regs.format ≠ 0) :
    plainUnpack unit regs source isFill state =
      some (unpackLoop unit regs isFill (plainKernel regs source) state) := by
  have hkernel := fastKernel_eq source h
  by_cases hformat : regs.format = 0x0f
  · rw [if_pos hformat] at hkernel
    simp only [plainUnpack, vitaVifTryFastV4_5, hformat, ne_eq, not_true_eq_false, if_false,
      ← hkernel]
    rfl
  · rw [if_neg hformat] at hkernel
    have hfast := isFastVectorFormat_iff.mpr ((format_cases h).resolve_left hformat)
    simp only [plainUnpack, vitaVifTryFastV4_5, vitaVifTryFastUnpack, hformat, ne_eq,
      not_false_eq_true, if_true, hfast, ← hkernel]
    rfl

/-- The loop without MODE and mask is a plain loop where it is taken. -/
theorem eq_of_tryFastPlainUnmasked {after : UnpackState}
    (h : vitaVifTryFastPlainUnmasked unit regs source isFill state = some after) :
    after = unpackLoop unit regs isFill (plainKernel regs source) state := by
  unfold vitaVifTryFastPlainUnmasked at h
  split_ifs at h with hplain hsize hv3
  obtain rfl := Option.some.inj h
  rw [not_or, not_and_or, not_not, not_not] at hplain
  have hmode : formatMode regs = 0 := by
    unfold formatMode
    split
    next => rfl
    next hformat => exact hplain.2.resolve_right hformat
  rw [vitaVifStorePlainUnmaskedVector_eq source hsize (Bool.eq_false_iff.mpr hv3), plainKernel,
    hmode, Bool.eq_false_iff.mpr hplain.1]

/-- The interpreter runs the same loop for the formats that lose no lane. -/
theorem nVifUnpack_eq (h : nVifT regs.format ≠ 0) (hv3 : vitaVifIsV3Format regs.format = false)
    (hmode : regs.mode < 4) :
    nVifUnpack unit regs source isFill state =
      unpackLoop unit regs isFill (plainKernel regs source) state := by
  have htable : (if (decide (regs.mode ≠ 0)) = true then regs.mode else 0) = regs.mode := by
    by_cases hzero : regs.mode = 0 <;> simp [hzero]
  rw [nVifUnpack, nVifUnpackLoop, htable, vifFuncTable_eq_plainKernel source h hv3 hmode]

end PlainLoops

end VitaSX2.Vif
