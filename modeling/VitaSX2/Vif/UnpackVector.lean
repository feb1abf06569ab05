/-
Storing one vector of an UNPACK (`VitaVifInterpreter.cpp`, `Vif_Unpack.cpp`).

The interpreter writes the lanes one after another: the mask selects the data, a
row, a column or the old word, and MODE adds the row to the data or puts the
data into the row.  The NEON stores do the four lanes at once.
-/
import Mathlib.Algebra.Group.Nat.Defs
import VitaSX2.Lib.FixedSize
import VitaSX2.Vif.Neon

namespace VitaSX2.Vif

open VitaSX2.Vu (loadU16 loadU32 storeWord)

/-- What an UNPACK reads of `vif` and `vifRegs` and does not change. -/
structure UnpackRegs where
  cmd : ℕ := 0
  usn : Bool := false
  startAligned : ℕ := 0
  cycleCl : ℕ := 0
  cycleWl : ℕ := 0
  mode : ℕ := 0
  mask : BitVec 32 := 0
  maskCol : Lanes 4 32 := fun _ => 0

/-- The VU memory and the row registers. -/
@[ext]
structure VectorState where
  memory : Memory
  maskRow : Lanes 4 32

/-! ### The interpreter -/

def setVifRow (state : VectorState) (reg : Fin 4) (data : BitVec 32) : VectorState :=
  { state with maskRow := Function.update state.maskRow reg data }

/-- `dest = data` for the lane at an offset of the VU memory. -/
def VectorState.put (state : VectorState) (offset : ℕ) (data : BitVec 32) : VectorState :=
  { state with memory := storeWord state.memory offset data }

/-- The two mask bits of a lane. -/
def maskSelector (mask : BitVec 32) (cl : ℕ) (offnum : Fin 4) : BitVec 32 :=
  match cl with
  | 0 => (mask >>> (offnum.val * 2)) &&& 3
  | 1 => (mask >>> (8 + offnum.val * 2)) &&& 3
  | 2 => (mask >>> (16 + offnum.val * 2)) &&& 3
  | _ => (mask >>> (24 + offnum.val * 2)) &&& 3

/-- The selector of a lane, which is the data without a mask. -/
def laneSelector (doMask : Bool) (mask : BitVec 32) (cl : ℕ) (offnum : Fin 4) : BitVec 32 :=
  if doMask then maskSelector mask cl offnum else 0

def writeXYZW (mode : ℕ) (doMask : Bool) (regs : UnpackRegs) (cl : ℕ) (offnum : Fin 4)
    (destination : ℕ) (data : BitVec 32) (state : VectorState) : VectorState :=
  let n := laneSelector doMask regs.mask cl offnum
  let offset := destination + 4 * offnum
  let row := state.maskRow offnum
  if n = 0 then
    match mode with
    | 1 => state.put offset (data + row)
    | 2 => (setVifRow state offnum (row + data)).put offset (row + data)
    | 3 => (setVifRow state offnum data).put offset data
    | _ => state.put offset data
  else if n = 1 then state.put offset row
  else if n = 2 then state.put offset (regs.maskCol (Fin.ofNat 4 (min cl 3)))
  else state

/-- The four lanes in order. -/
def writeLanes (mode : ℕ) (doMask : Bool) (regs : UnpackRegs) (cl destination : ℕ)
    (data : Fin 4 → BitVec 32) (state : VectorState) : VectorState :=
  writeXYZW mode doMask regs cl 3 destination (data 3)
    (writeXYZW mode doMask regs cl 2 destination (data 2)
      (writeXYZW mode doMask regs cl 1 destination (data 1)
        (writeXYZW mode doMask regs cl 0 destination (data 0) state)))

section Interpreter

variable (mode : ℕ) (doMask : Bool) (regs : UnpackRegs) (cl destination : ℕ)
  (source : ℕ → Byte) (offset : ℕ)

/-- `UNPACK_S`, for the element type of a VL field. -/
def unpackS (vl : ℕ) (usn : Bool) : VectorState → VectorState :=
  writeLanes mode doMask regs cl destination fun _ => element source vl usn offset 0

/-- `UNPACK_V2`. -/
def unpackV2 (vl : ℕ) (usn : Bool) : VectorState → VectorState :=
  writeLanes mode doMask regs cl destination
    ![element source vl usn offset 0, element source vl usn offset 1,
      element source vl usn offset 0, element source vl usn offset 1]

/-- `UNPACK_V4`. -/
def unpackV4 (vl : ℕ) (usn : Bool) : VectorState → VectorState :=
  writeLanes mode doMask regs cl destination fun lane => element source vl usn offset lane

/-- `UNPACK_V4_5`. -/
def unpackV4_5 : VectorState → VectorState :=
  let data := (loadU16 source offset).setWidth 32
  writeLanes 0 doMask regs cl destination
    ![(data &&& 0x001f) <<< 3, (data &&& 0x03e0) >>> 2, (data &&& 0x7c00) >>> 7,
      (data &&& 0x8000) >>> 8]

/-- `VIFfuncTable[idx][mode][usn * 32 + upkNum]`. -/
def vifFuncTable (usn : Bool) (upkNum : ℕ) : VectorState → VectorState :=
  let doMask := upkNum.testBit 4
  match upkNum % 16 with
  | 0x00 => unpackS mode doMask regs cl destination source offset 0 usn
  | 0x01 => unpackS mode doMask regs cl destination source offset 1 usn
  | 0x02 => unpackS mode doMask regs cl destination source offset 2 usn
  | 0x04 => unpackV2 mode doMask regs cl destination source offset 0 usn
  | 0x05 => unpackV2 mode doMask regs cl destination source offset 1 usn
  | 0x06 => unpackV2 mode doMask regs cl destination source offset 2 usn
  | 0x08 => unpackV4 mode doMask regs cl destination source offset 0 usn
  | 0x09 => unpackV4 mode doMask regs cl destination source offset 1 usn
  | 0x0a => unpackV4 mode doMask regs cl destination source offset 2 usn
  | 0x0c => unpackV4 mode doMask regs cl destination source offset 0 usn
  | 0x0d => unpackV4 mode doMask regs cl destination source offset 1 usn
  | 0x0e => unpackV4 mode doMask regs cl destination source offset 2 usn
  | 0x0f => unpackV4_5 doMask regs cl destination source offset
  | _ => fun state => state

end Interpreter

/-! ### The NEON stores -/

section Stores

variable (regs : UnpackRegs) (cl destination : ℕ) (data : Lanes 4 32) (state : VectorState)

def vitaVifStoreVectorNeon : VectorState :=
  { state with memory := vst1qU32 state.memory destination data }

/-- The selectors of the four lanes. -/
def cycleSelectors (mask : BitVec 32) (cl : ℕ) : Lanes 4 32 :=
  let cycleMask := (mask >>> ((if cl < 3 then cl else 3) * 8)) &&& 0xff
  let selectors16 : Lanes 4 16 :=
    vand (vshlNeg (vdup (cycleMask.setWidth 16)) ![0, 2, 4, 6]) (vdup 3)
  vmovlU 32 selectors16

/-- The rows, the column and the old words under their selectors. -/
def selectLanes (memory : Memory) (row result : Lanes 4 32) : Lanes 4 32 :=
  let selectors := cycleSelectors regs.mask cl
  let col : Lanes 4 32 := vdup (regs.maskCol (Fin.ofNat 4 (if cl < 3 then cl else 3)))
  let old := vld1qU32 memory destination
  let result := vbsl (vceq selectors (vdup 1)) row result
  let result := vbsl (vceq selectors (vdup 2)) col result
  vbsl (vceq selectors (vdup 3)) old result

def vitaVifStoreMaskedMode0VectorNeon : VectorState :=
  vitaVifStoreVectorNeon destination
    (selectLanes regs cl destination state.memory state.maskRow data) state

def vitaVifStoreUnmaskedModeVectorNeon (mode : ℕ) : VectorState :=
  let result := if mode = 1 ∨ mode = 2 then vadd data state.maskRow else data
  let state := if mode = 2 ∨ mode = 3 then { state with maskRow := result } else state
  vitaVifStoreVectorNeon destination result state

def vitaVifStoreMaskedModeVectorNeon (mode : ℕ) : VectorState :=
  let selectors := cycleSelectors regs.mask cl
  let row := state.maskRow
  let modeData := if mode = 1 ∨ mode = 2 then vadd data row else data
  let dataMask := vceq selectors (vdup 0)
  let state :=
    if mode = 2 ∨ mode = 3 then { state with maskRow := vbsl dataMask modeData row } else state
  vitaVifStoreVectorNeon destination (selectLanes regs cl destination state.memory row modeData)
    state

def vitaVifStoreModeVectorNeon (mode : ℕ) (doMask : Bool) : VectorState :=
  if mode = 0 ∧ doMask = false then vitaVifStoreVectorNeon destination data state
  else if doMask = false then
    vitaVifStoreUnmaskedModeVectorNeon destination data state mode
  else if mode = 0 then vitaVifStoreMaskedMode0VectorNeon regs cl destination data state
  else vitaVifStoreMaskedModeVectorNeon regs cl destination data state mode

end Stores

/-! ### One lane at a time -/

lemma storeWord_apply (memory : Memory) (offset : ℕ) (value : BitVec 32) (address : ℕ) :
    storeWord memory offset value address =
      if offset ≤ address ∧ address < offset + 4 then
        value.extractLsb' (8 * (address - offset)) 8
      else memory address := rfl

lemma storeWord_loadU32 (memory : Memory) (offset : ℕ) :
    storeWord memory offset (loadU32 memory offset) = memory := by
  funext address
  rw [storeWord_apply]
  split
  next h =>
    rw [extract_loadU32 memory offset (by omega)]
    congr 1
    omega
  next => rfl

lemma loadU32_storeWord {memory : Memory} {offset other : ℕ} (value : BitVec 32)
    (h : offset + 4 ≤ other ∨ other + 4 ≤ offset) :
    loadU32 (storeWord memory offset value) other = loadU32 memory other := by
  have hbyte : ∀ k < 4, storeWord memory offset value (other + k) = memory (other + k) := by
    intro k hk
    rw [storeWord_apply, if_neg (by omega)]
  have hzero := hbyte 0 (by decide)
  simp only [Nat.add_zero] at hzero
  simp only [loadU32, hzero, hbyte 1 (by decide), hbyte 2 (by decide), hbyte 3 (by decide)]

/-- A qword is stored word by word. -/
lemma vst1qU32_eq (memory : Memory) (destination : ℕ) (lanes : Lanes 4 32) :
    vst1qU32 memory destination lanes =
      storeWord (storeWord (storeWord (storeWord memory (destination + 4 * (0 : Fin 4)) (lanes 0))
        (destination + 4 * (1 : Fin 4)) (lanes 1)) (destination + 4 * (2 : Fin 4)) (lanes 2))
        (destination + 4 * (3 : Fin 4)) (lanes 3) := by
  have hlane : ∀ (k : Fin 4) address, destination + 4 * k ≤ address →
      address < destination + 4 * k + 4 →
      vst1qU32 memory destination lanes address =
        (lanes k).extractLsb' (8 * (address - (destination + 4 * k))) 8 := by
    intro k address hlow hhigh
    have hk : (⟨(address - destination) / 4, by omega⟩ : Fin 4) = k := Fin.ext (by dsimp; omega)
    have hbyte : (address - destination) % 4 = address - (destination + 4 * k) := by omega
    rw [vst1qU32, dif_pos ⟨by omega, by omega⟩, hk, hbyte]
  funext address
  simp only [storeWord_apply]
  split
  next h => exact hlane 3 address h.1 h.2
  next =>
    split
    next h => exact hlane 2 address h.1 h.2
    next =>
      split
      next h => exact hlane 1 address h.1 h.2
      next =>
        split
        next h => exact hlane 0 address h.1 h.2
        next h0 h1 h2 h3 =>
          rw [vst1qU32, dif_neg]
          simp only [Fin.val_zero, Fin.val_one, Fin.val_two] at h0 h1 h2 h3
          have h3' : ((3 : Fin 4) : ℕ) = 3 := rfl
          omega

/-- The word that a lane stores. -/
def laneWord (mode : ℕ) (n data row col old : BitVec 32) : BitVec 32 :=
  if n = 0 then if mode = 1 ∨ mode = 2 then data + row else data
  else if n = 1 then row
  else if n = 2 then col
  else old

/-- The row that a lane leaves. -/
def laneRow (mode : ℕ) (n data row : BitVec 32) : BitVec 32 :=
  if n = 0 ∧ (mode = 2 ∨ mode = 3) then if mode = 2 then data + row else data else row

lemma maskSelector_cases (mask : BitVec 32) (cl : ℕ) (lane : Fin 4) :
    maskSelector mask cl lane = 0 ∨ maskSelector mask cl lane = 1 ∨
      maskSelector mask cl lane = 2 ∨ maskSelector mask cl lane = 3 := by
  have hand : ∀ value : BitVec 32, value &&& 3 = 0 ∨ value &&& 3 = 1 ∨ value &&& 3 = 2 ∨
      value &&& 3 = 3 := by
    intro value
    have hlt : (value &&& 3).toNat < 4 := by
      rw [BitVec.toNat_and]
      exact Nat.lt_of_le_of_lt Nat.and_le_right (by decide)
    simp only [← BitVec.toNat_inj]
    change _ = 0 ∨ _ = 1 ∨ _ = 2 ∨ _ = 3
    omega
  unfold maskSelector
  split <;> exact hand _

/-- `writeXYZW` stores the word of its lane and leaves the row of its lane. -/
lemma writeXYZW_eq (mode : ℕ) (doMask : Bool) (regs : UnpackRegs) (cl : ℕ) (lane : Fin 4)
    (destination : ℕ) (data : BitVec 32) (state : VectorState) :
    writeXYZW mode doMask regs cl lane destination data state =
      { memory := storeWord state.memory (destination + 4 * lane)
          (laneWord mode (laneSelector doMask regs.mask cl lane) data (state.maskRow lane)
            (regs.maskCol (Fin.ofNat 4 (min cl 3)))
            (loadU32 state.memory (destination + 4 * lane)))
        maskRow := Function.update state.maskRow lane
          (laneRow mode (laneSelector doMask regs.mask cl lane) data (state.maskRow lane)) } := by
  unfold writeXYZW
  dsimp only
  generalize laneSelector doMask regs.mask cl lane = n
  by_cases hzero : n = 0
  · subst hzero
    rw [if_pos rfl]
    split <;>
      simp_all [laneWord, laneRow, VectorState.put, setVifRow, BitVec.add_comm]
  · rw [if_neg hzero]
    by_cases hone : n = 1
    · subst hone
      simp [laneWord, laneRow, VectorState.put]
    · rw [if_neg hone]
      by_cases htwo : n = 2
      · subst htwo
        simp [laneWord, laneRow, VectorState.put]
      · rw [if_neg htwo]
        rw [laneWord, laneRow, if_neg hzero, if_neg hone, if_neg htwo,
          if_neg (fun h => hzero h.1), storeWord_loadU32, Function.update_eq_self]

section Stores

variable (mode : ℕ) (doMask : Bool) (regs : UnpackRegs) (cl destination : ℕ)
  (data : Fin 4 → BitVec 32) (state : VectorState)

/-- The state behind a vector of these words: every lane reads its own row and
its own old word. -/
def storeLanes : VectorState where
  memory := vst1qU32 state.memory destination fun lane =>
    laneWord mode (laneSelector doMask regs.mask cl lane) (data lane) (state.maskRow lane)
      (regs.maskCol (Fin.ofNat 4 (min cl 3))) (loadU32 state.memory (destination + 4 * lane))
  maskRow := fun lane =>
    laneRow mode (laneSelector doMask regs.mask cl lane) (data lane) (state.maskRow lane)

/-- The interpreter stores the lanes of a vector independently. -/
theorem writeLanes_eq :
    writeLanes mode doMask regs cl destination data state =
      storeLanes mode doMask regs cl destination data state := by
  have hval : ((0 : Fin 4) : ℕ) = 0 ∧ ((1 : Fin 4) : ℕ) = 1 ∧ ((2 : Fin 4) : ℕ) = 2 ∧
      ((3 : Fin 4) : ℕ) = 3 := ⟨rfl, rfl, rfl, rfl⟩
  obtain ⟨h0, h1, h2, h3⟩ := hval
  simp only [writeLanes, writeXYZW_eq, storeLanes]
  refine VectorState.ext ?_ (funext fun lane => ?_)
  · rw [vst1qU32_eq]
    simp only [Function.update_apply]
    rw [loadU32_storeWord _ (by omega), loadU32_storeWord _ (by omega),
      loadU32_storeWord _ (by omega), loadU32_storeWord _ (by omega),
      loadU32_storeWord _ (by omega), loadU32_storeWord _ (by omega)]
    rfl
  · fin_cases lane <;> simp

/-- Two bits of a byte of the mask. -/
lemma extract_cycleMask (mask : BitVec 32) (shift : ℕ) {bit : ℕ} (h : bit ≤ 6) :
    ((((mask >>> shift) &&& 0xff#32).setWidth 16 >>> bit) &&& 3#16).setWidth 32 =
      (mask >>> (shift + bit)) &&& 3#32 := by
  have hff : ∀ i < 32, (0xff#32).getLsbD i = decide (i < 8) := by decide
  have h3 : ∀ i < 32, (3#32).getLsbD i = decide (i < 2) := by decide
  have h3' : ∀ i < 16, (3#16).getLsbD i = decide (i < 2) := by decide
  apply BitVec.eq_of_getLsbD_eq
  intro i hi
  simp only [BitVec.getLsbD_setWidth, BitVec.getLsbD_and, BitVec.getLsbD_ushiftRight]
  by_cases hlow : i < 2
  · rw [hff _ (by omega), h3 _ hi, h3' _ (by omega)]
    simp [hi, hlow, show bit + i < 16 by omega, show bit + i < 8 by omega, Nat.add_assoc]
  · rw [h3 _ hi]
    simp only [hlow, decide_false, Bool.and_false]
    by_cases hi' : i < 16
    · rw [h3' _ hi']
      simp [hlow]
    · simp [BitVec.getLsbD_of_ge _ _ (Nat.le_of_not_lt hi')]

/-- The selectors of the NEON stores are those of the interpreter. -/
lemma cycleSelectors_eq (mask : BitVec 32) (lane : Fin 4) :
    cycleSelectors mask cl lane = maskSelector mask cl lane := by
  have hshift : cycleSelectors mask cl lane =
      (mask >>> ((if cl < 3 then cl else 3) * 8 + 2 * lane.val)) &&& 3#32 := by
    have hlane : (![0, 2, 4, 6] : Fin 4 → ℕ) lane = 2 * lane.val := by fin_cases lane <;> rfl
    rw [← extract_cycleMask mask _ (show 2 * lane.val ≤ 6 by omega), ← hlane]
    rfl
  rw [hshift]
  match cl with
  | 0 => simp [maskSelector, Nat.mul_comm]
  | 1 => simp [maskSelector, Nat.mul_comm]
  | 2 => simp [maskSelector, Nat.mul_comm]
  | n + 3 =>
    rw [if_neg (by omega)]
    simp [maskSelector, Nat.mul_comm]

/-- The words under the selectors. -/
lemma selectLanes_eq (memory : Memory) (row result : Lanes 4 32) (lane : Fin 4) :
    selectLanes regs cl destination memory row result lane =
      if maskSelector regs.mask cl lane = 0 then result lane
      else if maskSelector regs.mask cl lane = 1 then row lane
      else if maskSelector regs.mask cl lane = 2 then regs.maskCol (Fin.ofNat 4 (min cl 3))
      else loadU32 memory (destination + 4 * lane) := by
  have hmin : (if cl < 3 then cl else 3) = min cl 3 := by
    split <;> omega
  simp only [selectLanes, vbsl_vceq, cycleSelectors_eq, vdup, hmin, vld1qU32]
  obtain h | h | h | h := maskSelector_cases regs.mask cl lane <;> simp [h]

/-- Without a mask every lane takes the data. -/
lemma storeLanes_unmasked :
    storeLanes mode false regs cl destination data state =
      { memory := vst1qU32 state.memory destination
          (if mode = 1 ∨ mode = 2 then vadd data state.maskRow else data)
        maskRow := if mode = 2 ∨ mode = 3 then if mode = 2 then vadd data state.maskRow else data
          else state.maskRow } := by
  refine VectorState.ext ?_ (funext fun lane => ?_)
  · simp only [storeLanes]
    refine congrArg (vst1qU32 state.memory destination) (funext fun lane => ?_)
    simp only [laneSelector, laneWord, Bool.false_eq_true, if_false, if_true]
    split <;> rfl
  · simp only [storeLanes, laneSelector, laneRow, Bool.false_eq_true, if_false, true_and]
    split_ifs <;> rfl

/-- The NEON stores do the same. -/
theorem vitaVifStoreModeVectorNeon_eq :
    vitaVifStoreModeVectorNeon regs cl destination data state mode doMask =
      storeLanes mode doMask regs cl destination data state := by
  unfold vitaVifStoreModeVectorNeon
  cases doMask with
  | false =>
    by_cases hmode : mode = 0
    · subst hmode
      rfl
    · rw [if_neg (fun h => hmode h.1), if_pos rfl]
      rw [storeLanes_unmasked]
      obtain rfl | rfl | rfl | ⟨hone, htwo, hthree⟩ :
          mode = 1 ∨ mode = 2 ∨ mode = 3 ∨ mode ≠ 1 ∧ mode ≠ 2 ∧ mode ≠ 3 := by omega
      · rfl
      · rfl
      · rfl
      · simp only [vitaVifStoreUnmaskedModeVectorNeon, hone, htwo, hthree, or_self, if_false]
        rfl
  | true =>
    rw [if_neg (by simp), if_neg (by simp)]
    by_cases hmode : mode = 0
    · subst hmode
      rw [if_pos rfl]
      refine VectorState.ext ?_ (funext fun lane => ?_)
      · simp only [vitaVifStoreMaskedMode0VectorNeon, vitaVifStoreVectorNeon, storeLanes]
        refine congrArg (vst1qU32 state.memory destination) (funext fun lane => ?_)
        rw [selectLanes_eq]
        simp [laneSelector, laneWord]
      · simp [vitaVifStoreMaskedMode0VectorNeon, vitaVifStoreVectorNeon, storeLanes, laneRow]
    · rw [if_neg hmode]
      refine VectorState.ext ?_ (funext fun lane => ?_)
      · have hmemory : ∀ row : Lanes 4 32,
            (if mode = 2 ∨ mode = 3 then { state with maskRow := row } else state).memory =
              state.memory := by
          intro row
          split <;> rfl
        simp only [vitaVifStoreMaskedModeVectorNeon, vitaVifStoreVectorNeon, storeLanes, hmemory]
        refine congrArg (vst1qU32 state.memory destination) (funext fun lane => ?_)
        rw [selectLanes_eq]
        simp only [laneSelector, if_true, laneWord]
        split_ifs <;> rfl
      · simp only [vitaVifStoreMaskedModeVectorNeon, vitaVifStoreVectorNeon, storeLanes,
          laneSelector, if_true, laneRow]
        obtain rfl | rfl | hother : mode = 2 ∨ mode = 3 ∨ ¬(mode = 2 ∨ mode = 3) := by omega
        · simp [vdup, cycleSelectors_eq, vadd]
        · simp [vdup, cycleSelectors_eq]
        · simp [hother]

end Stores

/-! ### One vector -/

/-- The words of a V4-5 vector. -/
def v4_5Words (source : ℕ → Byte) (offset : ℕ) : Lanes 4 32 :=
  let data := (loadU16 source offset).setWidth 32
  ![(data &&& 0x001f) <<< 3, (data &&& 0x03e0) >>> 2, (data &&& 0x7c00) >>> 7,
    (data &&& 0x8000) >>> 8]

lemma vitaVifLoadV4_5VectorNeon_eq (source : ℕ → Byte) (offset : ℕ) :
    vitaVifLoadV4_5VectorNeon source offset = v4_5Words source offset := by
  funext lane
  fin_cases lane <;> rfl

/-- A vector of the formats that have a table entry and lose no lane. -/
theorem vifFuncTable_eq {upkNum : ℕ} (hvl : upkNum % 16 % 4 ≠ 3) (mode : ℕ)
    (regs : UnpackRegs) (cl destination : ℕ) (source : ℕ → Byte) (offset : ℕ) (usn : Bool)
    (state : VectorState) :
    vifFuncTable mode regs cl destination source offset usn upkNum state =
      storeLanes mode (upkNum.testBit 4) regs cl destination
        (fun lane => element source (upkNum % 16 % 4) usn offset (elementIndex (upkNum % 16) lane))
        state := by
  have hpair : ∀ words : ℕ → BitVec 32,
      ![words 0, words 1, words 0, words 1] = fun lane : Fin 4 => words (lane % 2) := by
    intro words
    funext lane
    fin_cases lane <;> rfl
  have hlt : upkNum % 16 < 16 := Nat.mod_lt _ (by decide)
  unfold vifFuncTable
  generalize upkNum % 16 = format at hvl hlt ⊢
  obtain rfl | rfl | rfl | rfl | rfl | rfl | rfl | rfl | rfl | rfl | rfl | rfl :
      format = 0x04 ∨ format = 0x05 ∨ format = 0x06 ∨ format = 0x00 ∨ format = 0x01 ∨
        format = 0x02 ∨ format = 0x08 ∨ format = 0x09 ∨ format = 0x0a ∨ format = 0x0c ∨
        format = 0x0d ∨ format = 0x0e := by omega
  -- V2 writes its two elements twice
  · exact (congrArg (writeLanes _ _ _ _ _ · _) (hpair _)).trans (writeLanes_eq _ _ _ _ _ _ _)
  · exact (congrArg (writeLanes _ _ _ _ _ · _) (hpair _)).trans (writeLanes_eq _ _ _ _ _ _ _)
  · exact (congrArg (writeLanes _ _ _ _ _ · _) (hpair _)).trans (writeLanes_eq _ _ _ _ _ _ _)
  all_goals exact writeLanes_eq _ _ _ _ _ _ _

/-- V4-5 does not know MODE. -/
theorem vifFuncTable_v4_5 {upkNum : ℕ} (hformat : upkNum % 16 = 0x0f) (mode : ℕ)
    (regs : UnpackRegs) (cl destination : ℕ) (source : ℕ → Byte) (offset : ℕ) (usn : Bool)
    (state : VectorState) :
    vifFuncTable mode regs cl destination source offset usn upkNum state =
      storeLanes 0 (upkNum.testBit 4) regs cl destination (v4_5Words source offset) state := by
  unfold vifFuncTable
  rw [hformat]
  exact writeLanes_eq _ _ _ _ _ _ _

end VitaSX2.Vif
