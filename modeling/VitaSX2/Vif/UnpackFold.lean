/-
An UNPACK as a sequence of stores.

Where a vector comes from, where it goes and which cycle it has does not depend on
the memory or on the registers, so an UNPACK stores a fixed sequence of vectors.
A store is a matter of single lanes and bytes: what it leaves at a byte depends on
that byte only, on the row through the selectors 0 and 1, and on the column
through the selector 2.
-/
import VitaSX2.Vif.Deferred

namespace VitaSX2.Vif

open VitaSX2.Vu (loadU32 loadU16)

/-! ### The places of the vectors -/

def UnpackLoop.withVector (loop : UnpackLoop) (vector : VectorState) : UnpackLoop :=
  { loop with state := { loop.state with vector := vector } }

/-- The kernel that stores nothing. -/
def skipVector : VectorKernel := fun _ _ _ _ vector => vector

section Places

variable {unit : VifUnit} {regs : UnpackRegs} {isFill : Bool}

lemma advance_withVector (vsize : ℕ) (loop : UnpackLoop) (vector : VectorState) :
    (loop.withVector vector).advance regs isFill vsize =
      (loop.advance regs isFill vsize).withVector vector := by
  unfold UnpackLoop.advance UnpackLoop.withVector
  dsimp only
  split_ifs <;> rfl

/-- A turn moves on as if it stored nothing. -/
lemma unpackTurn_withVector (kernel : VectorKernel) (loop : UnpackLoop) (vector : VectorState) :
    unpackTurn unit regs isFill kernel (loop.withVector vector) =
      (unpackTurn unit regs isFill skipVector loop).withVector
        (kernel loop.state.cl loop.data (vectorIteration regs.format loop.generatedIteration)
          (vitaVifVuMemPtr unit loop.state.tagAddr) vector) := by
  exact congrArg (fun after : UnpackLoop =>
    { after with generatedIteration := nextIteration regs.format loop.generatedIteration })
    (advance_withVector (nVifT regs.format) loop _)

/-- The loop stores the vectors at their places one after another. -/
lemma iterate_unpackTurn (kernel : VectorKernel) (loop : UnpackLoop) (vector : VectorState)
    (count : ℕ) :
    (unpackTurn unit regs isFill kernel)^[count] (loop.withVector vector) =
      ((unpackTurn unit regs isFill skipVector)^[count] loop).withVector
        ((List.range count).foldl (fun vector i =>
          let place := (unpackTurn unit regs isFill skipVector)^[i] loop
          kernel place.state.cl place.data (vectorIteration regs.format place.generatedIteration)
            (vitaVifVuMemPtr unit place.state.tagAddr) vector) vector) := by
  induction count with
  | zero => rfl
  | succ count ih =>
    rw [Function.iterate_succ_apply', ih, unpackTurn_withVector, Function.iterate_succ_apply',
      List.range_succ, List.foldl_append]
    rfl

end Places

/-- The columns of an empty register file. -/
def noColumn : Lanes 4 32 := fun _ => 0

/-- The loop in front of the vector `i`. -/
def UnpackCommand.place (command : UnpackCommand) (i : ℕ) : UnpackLoop :=
  (unpackTurn .vif1 (command.regs noColumn) (command.regs noColumn).isFill skipVector)^[i]
    { state := command.state ⟨fun _ => 0, fun _ => 0⟩ }

namespace UnpackCommand

variable (command : UnpackCommand)

def format : ℕ := (command.regs noColumn).format

def doMask : Bool := (command.regs noColumn).doMask

/-- MODE as the format knows it. -/
def laneMode : ℕ := formatMode (command.regs noColumn)

/-- The selector of a lane of the vector `i`. -/
def selector (i : ℕ) (lane : Fin 4) : BitVec 32 :=
  laneSelector command.doMask command.mask (command.place i).state.cl lane

def destination (i : ℕ) : ℕ := vitaVifVuMemPtr .vif1 (command.place i).state.tagAddr

/-- The words of the vector at an offset, as the build in use loads them. -/
def loadWords (newVifDynaRec : Bool) (data : ℕ → Byte) (offset iteration : ℕ) : Lanes 4 32 :=
  if newVifDynaRec then formatWords (command.regs noColumn) data offset iteration
  else if command.format = 0x0f then v4_5Words data offset
  else fun lane =>
    element data (command.format % 4) (command.usn ≠ 0) offset (elementIndex command.format lane)

/-- The words of the vector `i`. -/
def words (newVifDynaRec : Bool) (data : ℕ → Byte) (i : ℕ) : Lanes 4 32 :=
  command.loadWords newVifDynaRec data (command.place i).data
    (vectorIteration command.format (command.place i).generatedIteration)

/-- The store of the vector `i`. -/
def store (maskCol : Lanes 4 32) (i : ℕ) (words : Lanes 4 32) (vector : VectorState) :
    VectorState :=
  storeLanes command.laneMode command.doMask (command.regs maskCol) (command.place i).state.cl
    (command.destination i) words vector

/-- What an UNPACK finds that is set up and complete. -/
structure Ready : Prop where
  cycleCl : command.cycleCl < 256
  cycleWl : command.cycleWl < 256
  mode : command.mode < 4
  data : nVifT command.format ≠ 0
  cl : command.cl = 0
  num : command.num ≠ 0
  num_le : command.num.toNat ≤ 256

end UnpackCommand

section Fold

variable {command : UnpackCommand}

lemma UnpackCommand.Ready.unpackReady (h : command.Ready) (maskCol : Lanes 4 32)
    (vector : VectorState) : UnpackReady (command.regs maskCol) (command.state vector) :=
  ⟨h.cycleCl, h.cycleWl, h.mode, h.data, h.cl, h.num, h.num_le⟩

/-- The kernel of the interpreter for the words that it loads. -/
lemma interpreterKernel_eq (h : command.Ready) (maskCol : Lanes 4 32) (data : ℕ → Byte) :
    (fun cl offset (_ : ℕ) destination =>
      vifFuncTable (if decide (command.mode ≠ 0) = true then command.mode else 0)
        (command.regs maskCol) cl destination data offset (command.regs maskCol).usn
        (command.regs maskCol).upkNum) =
      laneKernel (command.regs maskCol) command.laneMode command.doMask
        (command.loadWords false data) := by
  have hmode : (if decide (command.mode ≠ 0) = true then command.mode else 0) = command.mode := by
    by_cases hzero : command.mode = 0 <;> simp [hzero]
  rw [hmode]
  funext cl offset iteration destination vector
  by_cases hformat : command.format = 0x0f
  · have hformat' : (command.regs maskCol).upkNum % 16 = 0x0f := hformat
    have hlane : command.laneMode = 0 := if_pos hformat
    rw [vifFuncTable_v4_5 hformat', laneKernel, hlane]
    simp only [UnpackCommand.loadWords, Bool.false_eq_true, if_false, hformat, if_true]
    rfl
  · have hvl : (command.regs maskCol).upkNum % 16 % 4 ≠ 3 :=
      (format_cases h.data).resolve_left hformat
    have hlane : command.laneMode = command.mode :=
      (if_neg hformat).trans (Nat.mod_eq_of_lt h.mode)
    rw [vifFuncTable_eq hvl, laneKernel, hlane]
    simp only [UnpackCommand.loadWords, Bool.false_eq_true, if_false, hformat]
    rfl

/-- An UNPACK stores the vectors at their places one after another. -/
theorem mtvuUnpack_eq (h : command.Ready) (newVifDynaRec : Bool) (maskCol : Lanes 4 32)
    (data : ℕ → Byte) (vector : VectorState) :
    mtvuUnpack newVifDynaRec command maskCol data vector =
      Deferral.replay
        (fun vector i => command.store maskCol i (command.words newVifDynaRec data i) vector)
        (List.range command.num.toNat) vector := by
  have hloop : ∀ words : ℕ → ℕ → Lanes 4 32,
      (unpackLoop .vif1 (command.regs maskCol) (command.regs maskCol).isFill
        (laneKernel (command.regs maskCol) command.laneMode command.doMask words)
        (command.state vector)).vector =
      (List.range command.num.toNat).foldl (fun vector i =>
        command.store maskCol i (words (command.place i).data
          (vectorIteration command.format (command.place i).generatedIteration)) vector)
        vector := by
    intro words
    rw [unpackLoop]
    change ((unpackTurn _ _ _ _)^[turns command.num] _).state.vector = _
    rw [turns_of_ne_zero h.num]
    exact congrArg (fun loop : UnpackLoop => loop.state.vector)
      (iterate_unpackTurn (laneKernel (command.regs maskCol) command.laneMode command.doMask words)
        { state := command.state ⟨fun _ => 0, fun _ => 0⟩ } vector command.num.toNat)
  unfold mtvuUnpack
  dsimp only
  cases newVifDynaRec with
  | true =>
    rw [if_pos rfl, vitaVifUnpack_memory (h.unpackReady maskCol vector)]
    exact hloop (command.loadWords true data)
  | false =>
    rw [if_neg Bool.false_ne_true, nVifUnpack, nVifUnpackLoop]
    change (unpackLoop _ _ _ (fun cl offset _ destination =>
      vifFuncTable (if decide (command.mode ≠ 0) = true then command.mode else 0)
        (command.regs maskCol) cl destination data offset (command.regs maskCol).usn
        (command.regs maskCol).upkNum) _).vector = _
    rw [interpreterKernel_eq h]
    exact hloop (command.loadWords false data)

end Fold

/-! ### What a store depends on -/

/-- The rows agree, and so does the memory outside of a set of addresses. -/
structure AgreeOff (hidden : ℕ → Prop) (left right : VectorState) : Prop where
  maskRow : left.maskRow = right.maskRow
  memory : ∀ address, ¬hidden address → left.memory address = right.memory address

lemma AgreeOff.refl (hidden : ℕ → Prop) (vector : VectorState) : AgreeOff hidden vector vector :=
  ⟨rfl, fun _ _ => rfl⟩

lemma AgreeOff.trans {hidden : ℕ → Prop} {first second third : VectorState}
    (h : AgreeOff hidden first second) (h' : AgreeOff hidden second third) :
    AgreeOff hidden first third :=
  ⟨h.maskRow.trans h'.maskRow, fun address ha => (h.memory address ha).trans (h'.memory address ha)⟩

def VectorState.withRow (vector : VectorState) (maskRow : Lanes 4 32) : VectorState :=
  { vector with maskRow := maskRow }

section Stores

variable (mode : ℕ) (doMask : Bool) (regs : UnpackRegs) (cl destination : ℕ) (words : Lanes 4 32)
  (vector : VectorState)

/-- A byte of a vector lies in one of its lanes. -/
lemma laneIndex_lt {destination address : ℕ}
    (h : destination ≤ address ∧ address < destination + 16) : (address - destination) / 4 < 4 := by
  omega

/-- The byte that a store leaves: the old one stays where the lane keeps it. -/
lemma storeLanes_memory (address : ℕ) :
    (storeLanes mode doMask regs cl destination words vector).memory address =
      if h : destination ≤ address ∧ address < destination + 16 then
        let lane : Fin 4 := ⟨(address - destination) / 4, laneIndex_lt h⟩
        let n := laneSelector doMask regs.mask cl lane
        if n = 0 ∨ n = 1 ∨ n = 2 then
          (laneWord mode n (words lane) (vector.maskRow lane)
            (regs.maskCol (Fin.ofNat 4 (min cl 3))) 0).extractLsb'
              (8 * ((address - destination) % 4)) 8
        else vector.memory address
      else vector.memory address := by
  simp only [storeLanes, vst1qU32]
  split
  next h =>
    split
    next hn =>
      congr 1
      unfold laneWord
      rcases hn with hn | hn | hn <;> simp [hn]
    next hn =>
      simp only [not_or] at hn
      rw [laneWord, if_neg hn.1, if_neg hn.2.1, if_neg hn.2.2,
        extract_loadU32 _ _ (Nat.mod_lt _ (by decide))]
      congr 1
      omega
  next => rfl

/-- A store sees the rows and the byte that it replaces. -/
lemma AgreeOff.store {hidden : ℕ → Prop} {left right : VectorState}
    (h : AgreeOff hidden left right) :
    AgreeOff hidden (storeLanes mode doMask regs cl destination words left)
      (storeLanes mode doMask regs cl destination words right) := by
  constructor
  · simp only [storeLanes, h.maskRow]
  · intro address ha
    rw [storeLanes_memory, storeLanes_memory, h.maskRow, h.memory address ha]

variable {mode doMask regs cl}

/-- The rows matter under the selector 1, and under 0 with a MODE. -/
lemma storeLanes_withRow
    (h : ∀ lane, laneSelector doMask regs.mask cl lane ≠ 1 ∧
      (laneSelector doMask regs.mask cl lane = 0 → mode = 0)) (maskRow : Lanes 4 32) :
    storeLanes mode doMask regs cl destination words (vector.withRow maskRow) =
      (storeLanes mode doMask regs cl destination words vector).withRow maskRow := by
  have hword : ∀ (lane : Fin 4) (row col old : BitVec 32),
      laneWord mode (laneSelector doMask regs.mask cl lane) (words lane) row col old =
        laneWord mode (laneSelector doMask regs.mask cl lane) (words lane) 0 col old := by
    intro lane row col old
    unfold laneWord
    by_cases hzero : laneSelector doMask regs.mask cl lane = 0
    · simp [hzero, (h lane).2 hzero]
    · rw [if_neg hzero, if_neg hzero, if_neg (h lane).1, if_neg (h lane).1]
  refine VectorState.ext ?_ (funext fun lane => ?_)
  · simp only [storeLanes, VectorState.withRow, hword _ (maskRow _), hword _ (vector.maskRow _)]
  · change laneRow mode _ _ (maskRow lane) = maskRow lane
    rw [laneRow, if_neg]
    rintro ⟨hzero, hmode⟩
    rw [(h lane).2 hzero] at hmode
    omega

/-- The columns matter under the selector 2. -/
lemma storeLanes_maskCol {regs' : UnpackRegs} (hmask : regs'.mask = regs.mask)
    (h : ∀ lane, laneSelector doMask regs.mask cl lane ≠ 2) :
    storeLanes mode doMask regs' cl destination words vector =
      storeLanes mode doMask regs cl destination words vector := by
  have hword : ∀ (lane : Fin 4) (row col old : BitVec 32),
      laneWord mode (laneSelector doMask regs.mask cl lane) (words lane) row col old =
        laneWord mode (laneSelector doMask regs.mask cl lane) (words lane) row 0 old := by
    intro lane row col old
    rw [laneWord, laneWord, if_neg (h lane), if_neg (h lane)]
  simp only [storeLanes, hmask, hword _ _ (regs'.maskCol _), hword _ _ (regs.maskCol _)]

end Stores

namespace UnpackCommand

/-- Some lane takes the row, adds it or replaces it. -/
def UsesRow (command : UnpackCommand) : Prop :=
  ∃ i < command.num.toNat, ∃ lane : Fin 4,
    command.selector i lane = 1 ∨ command.selector i lane = 0 ∧ command.laneMode ≠ 0

/-- Some lane takes the column. -/
def UsesColumn (command : UnpackCommand) : Prop :=
  ∃ i < command.num.toNat, ∃ lane : Fin 4, command.selector i lane = 2

end UnpackCommand

section Unpack

variable {command : UnpackCommand} {newVifDynaRec : Bool} {maskCol : Lanes 4 32} {data : ℕ → Byte}

/-- An UNPACK keeps what it cannot see apart. -/
theorem AgreeOff.mtvuUnpack {hidden : ℕ → Prop} {left right : VectorState} (hready : command.Ready)
    (h : AgreeOff hidden left right) :
    AgreeOff hidden (mtvuUnpack newVifDynaRec command maskCol data left)
      (mtvuUnpack newVifDynaRec command maskCol data right) := by
  rw [mtvuUnpack_eq hready, mtvuUnpack_eq hready]
  refine Deferral.replay_rel (AgreeOff hidden) ?_ h
  intro i _ left right h
  exact h.store _ _ _ _ _ _

/-- An UNPACK that does not use the rows may change places with a write to them. -/
theorem mtvuUnpack_withRow (hready : command.Ready) (h : ¬command.UsesRow) (vector : VectorState)
    (maskRow : Lanes 4 32) :
    mtvuUnpack newVifDynaRec command maskCol data (vector.withRow maskRow) =
      (mtvuUnpack newVifDynaRec command maskCol data vector).withRow maskRow := by
  rw [mtvuUnpack_eq hready, mtvuUnpack_eq hready]
  let withRow : VectorState → VectorState := fun vector => vector.withRow maskRow
  change Deferral.replay _ _ (withRow vector) = withRow (Deferral.replay _ _ vector)
  refine (Deferral.replay_comm (fun i hi vector => ?_) vector).symm
  refine (storeLanes_withRow _ _ _ (fun lane => ⟨fun hone => ?_, fun hzero => ?_⟩) _).symm
  · exact h ⟨i, List.mem_range.mp hi, lane, Or.inl hone⟩
  · by_contra hmode
    exact h ⟨i, List.mem_range.mp hi, lane, Or.inr ⟨hzero, hmode⟩⟩

/-- An UNPACK that does not use the columns is the same under others. -/
theorem mtvuUnpack_maskCol (hready : command.Ready) (h : ¬command.UsesColumn)
    (maskCol' : Lanes 4 32) (vector : VectorState) :
    mtvuUnpack newVifDynaRec command maskCol' data vector =
      mtvuUnpack newVifDynaRec command maskCol data vector := by
  rw [mtvuUnpack_eq hready, mtvuUnpack_eq hready]
  refine Deferral.replay_congr (fun i hi vector => ?_) vector
  refine storeLanes_maskCol _ _ _ rfl (fun lane htwo => ?_)
  exact h ⟨i, List.mem_range.mp hi, lane, htwo⟩

/-- An UNPACK reads the words of its vectors. -/
theorem mtvuUnpack_congr (hready : command.Ready) {data' : ℕ → Byte}
    (h : ∀ i < command.num.toNat,
      command.words newVifDynaRec data i = command.words newVifDynaRec data' i)
    (vector : VectorState) :
    mtvuUnpack newVifDynaRec command maskCol data vector =
      mtvuUnpack newVifDynaRec command maskCol data' vector := by
  rw [mtvuUnpack_eq hready, mtvuUnpack_eq hready]
  refine Deferral.replay_congr (fun i hi vector => ?_) vector
  rw [h i (List.mem_range.mp hi)]

end Unpack

end VitaSX2.Vif
