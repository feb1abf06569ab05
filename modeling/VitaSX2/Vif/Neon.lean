/-
The vectors that an UNPACK loads (`VitaVifInterpreter.cpp`, `Vif_Unpack.cpp`).

The Vita build loads and widens the source elements in NEON registers, the
interpreter element by element.  A register is modelled as its lanes, lowest
lane first.
-/
import Mathlib.Algebra.Group.Nat.Defs
import Mathlib.Data.Fin.Tuple.Basic
import Mathlib.Tactic.FinCases
import VitaSX2.Vif.Span
import VitaSX2.Vu.Unpack

namespace VitaSX2.Vif

open VitaSX2.Vu (loadU16 loadU32 extendU8 extendU16)

/-! ### NEON registers -/

/-- A register of `n` lanes of `w` bits. -/
abbrev Lanes (n w : ℕ) := Fin n → BitVec w

section Intrinsics

variable {n w : ℕ}

def vdup (value : BitVec w) : Lanes n w := fun _ => value

def vsetLane (value : BitVec w) (lanes : Lanes n w) (lane : Fin n) : Lanes n w :=
  Function.update lanes lane value

/-- `vmovl_u8`, `vmovl_u16`. -/
def vmovlU (m : ℕ) (lanes : Lanes n w) : Lanes n m := fun lane => (lanes lane).setWidth m

/-- `vmovl_s8`, `vmovl_s16`. -/
def vmovlS (m : ℕ) (lanes : Lanes n w) : Lanes n m := fun lane => (lanes lane).signExtend m

def vgetLow (m : ℕ) (lanes : Lanes (2 * m) w) : Lanes m w := fun lane => lanes ⟨lane, by omega⟩

def vgetHigh (m : ℕ) (lanes : Lanes (2 * m) w) : Lanes m w :=
  fun lane => lanes ⟨m + lane, by omega⟩

/-- `vcombine_u32`. -/
def vcombine (low high : Lanes 2 w) : Lanes 4 w := ![low 0, low 1, high 0, high 1]

def vadd (left right : Lanes n w) : Lanes n w := fun lane => left lane + right lane

def vand (left right : Lanes n w) : Lanes n w := fun lane => left lane &&& right lane

/-- `vshl_u16` by a lane-wise count that is never positive. -/
def vshlNeg (lanes : Lanes n w) (shifts : Fin n → ℕ) : Lanes n w :=
  fun lane => lanes lane >>> shifts lane

def vceq (left right : Lanes n w) : Lanes n w :=
  fun lane => if left lane = right lane then BitVec.allOnes w else 0

def vbsl (select ones zeros : Lanes n w) : Lanes n w :=
  fun lane => (select lane &&& ones lane) ||| (~~~ select lane &&& zeros lane)

/-- `vreinterpret_u8_u32`. -/
def vreinterpretU8 (lanes : Lanes 2 32) : Lanes 8 8 :=
  fun lane => (lanes ⟨lane / 4, by omega⟩).extractLsb' (8 * (lane % 4)) 8

/-- `vreinterpret_u16_u32`. -/
def vreinterpretU16 (lanes : Lanes 2 32) : Lanes 4 16 :=
  fun lane => (lanes ⟨lane / 2, by omega⟩).extractLsb' (16 * (lane % 2)) 16

/-- `vld1q_u32`. -/
def vld1qU32 (source : ℕ → Byte) (offset : ℕ) : Lanes 4 32 :=
  fun lane => loadU32 source (offset + 4 * lane)

/-- `vld1_u16`, `vld1q_u16`. -/
def vld1U16 (n : ℕ) (source : ℕ → Byte) (offset : ℕ) : Lanes n 16 :=
  fun lane => loadU16 source (offset + 2 * lane)

/-- `vld1q_u8`. -/
def vld1qU8 (source : ℕ → Byte) (offset : ℕ) : Lanes 16 8 := fun lane => source (offset + lane)

/-- `vst1q_u32`. -/
def vst1qU32 (memory : Memory) (destination : ℕ) (lanes : Lanes 4 32) : Memory := fun address =>
  if h : destination ≤ address ∧ address < destination + 16 then
    (lanes ⟨(address - destination) / 4, by omega⟩).extractLsb' (8 * ((address - destination) % 4)) 8
  else memory address

/-- A lane-wise choice by a comparison. -/
@[simp] lemma vbsl_vceq (left right ones zeros : Lanes n w) (lane : Fin n) :
    vbsl (vceq left right) ones zeros lane =
      if left lane = right lane then ones lane else zeros lane := by
  simp only [vbsl, vceq]
  split
  next => simp [BitVec.allOnes_and]
  next => simp

end Intrinsics

/-! ### Loading one vector -/

section Loads

variable (source : ℕ → Byte)

def vitaVifVectorFromWordsNeon (x y z w : BitVec 32) : Lanes 4 32 :=
  vsetLane w (vsetLane z (vsetLane y (vdup x) 1) 2) 3

def vitaVifLoadS_32VectorNeon (offset : ℕ) : Lanes 4 32 := vdup (loadU32 source offset)

def vitaVifLoadS_16VectorNeon (offset : ℕ) (usn : Bool) : Lanes 4 32 :=
  if usn then vmovlU 32 (vdup (loadU16 source offset))
  else vmovlS 32 (vdup (loadU16 source offset))

def vitaVifLoadS_8VectorNeon (offset : ℕ) (usn : Bool) : Lanes 4 32 :=
  if usn then vmovlU 32 (vgetLow 4 (vmovlU 16 (vdup (source offset))))
  else vmovlS 32 (vgetLow 4 (vmovlS 16 (vdup (source offset))))

def vitaVifLoadV2_32VectorNeon (offset : ℕ) : Lanes 4 32 :=
  let pair : Lanes 2 32 := vsetLane (loadU32 source (offset + 4)) (vdup (loadU32 source offset)) 1
  vcombine pair pair

def vitaVifLoadV2_16VectorNeon (offset : ℕ) (usn : Bool) : Lanes 4 32 :=
  let packedPair : Lanes 2 32 := vdup (loadU32 source offset)
  if usn then vmovlU 32 (vreinterpretU16 packedPair) else vmovlS 32 (vreinterpretU16 packedPair)

def vitaVifLoadV2_8VectorNeon (offset : ℕ) (usn : Bool) : Lanes 4 32 :=
  let xy := (loadU16 source offset).setWidth 32
  let packed := (xy &&& 0xff) ||| (xy &&& 0xff00) ||| ((xy &&& 0xff) <<< 16) |||
    ((xy &&& 0xff00) <<< 16)
  let packedPair : Lanes 2 32 := vdup packed
  if usn then vmovlU 32 (vgetLow 4 (vmovlU 16 (vreinterpretU8 packedPair)))
  else vmovlS 32 (vgetLow 4 (vmovlS 16 (vreinterpretU8 packedPair)))

def vitaVifLoadV4_16VectorNeon (offset : ℕ) (usn : Bool) : Lanes 4 32 :=
  if usn then vmovlU 32 (vld1U16 4 source offset) else vmovlS 32 (vld1U16 4 source offset)

def vitaVifLoadV4_8VectorNeon (offset : ℕ) (usn : Bool) : Lanes 4 32 :=
  let packedWord : Lanes 2 32 := vdup (loadU32 source offset)
  if usn then vmovlU 32 (vgetLow 4 (vmovlU 16 (vreinterpretU8 packedWord)))
  else vmovlS 32 (vgetLow 4 (vmovlS 16 (vreinterpretU8 packedWord)))

def vitaVifLoadV4_5VectorNeon (offset : ℕ) : Lanes 4 32 :=
  let data := (loadU16 source offset).setWidth 32
  vitaVifVectorFromWordsNeon ((data &&& 0x001f) <<< 3) ((data &&& 0x03e0) >>> 2)
    ((data &&& 0x7c00) >>> 7) ((data &&& 0x8000) >>> 8)

/-- The W lane of V3-16 that ends on a qword of the packet. -/
def isV3_16Boundary (generatedIteration generatedAlignment : ℕ) : Bool :=
  generatedIteration % 2 = 0 ∧
    (generatedIteration / 4 + 1 + (4 + 2 ^ 32 - generatedAlignment)) % 4 = 0

def vitaVifLoadUnpackVectorNeon (offset format : ℕ) (usn : Bool)
    (generatedIteration generatedAlignment : ℕ) : Option (Lanes 4 32) :=
  match format with
  | 0x00 => some (vitaVifLoadS_32VectorNeon source offset)
  | 0x01 => some (vitaVifLoadS_16VectorNeon source offset usn)
  | 0x02 => some (vitaVifLoadS_8VectorNeon source offset usn)
  | 0x04 => some (vitaVifLoadV2_32VectorNeon source offset)
  | 0x05 => some (vitaVifLoadV2_16VectorNeon source offset usn)
  | 0x06 => some (vitaVifLoadV2_8VectorNeon source offset usn)
  | 0x08 =>
    let out := vld1qU32 source offset
    some (if generatedIteration ≠ generatedAlignment then vsetLane 0 out 3 else out)
  | 0x09 =>
    let out := vitaVifLoadV4_16VectorNeon source offset usn
    some (if isV3_16Boundary generatedIteration generatedAlignment then vsetLane 0 out 3 else out)
  | 0x0a =>
    let out := vitaVifLoadV4_8VectorNeon source offset usn
    some (if generatedIteration ≠ generatedAlignment then vsetLane 0 out 3 else out)
  | 0x0c => some (vld1qU32 source offset)
  | 0x0d => some (vitaVifLoadV4_16VectorNeon source offset usn)
  | 0x0e => some (vitaVifLoadV4_8VectorNeon source offset usn)
  | _ => none

end Loads

/-! ### The elements of the interpreter -/

section Elements

variable (source : ℕ → Byte)

/-- `*(src + index)` for the element type of a VL field, as a `u32`. -/
def element (vl : ℕ) (usn : Bool) (offset index : ℕ) : BitVec 32 :=
  match vl with
  | 0 => loadU32 source (offset + 4 * index)
  | 1 => extendU16 (loadU16 source (offset + 2 * index)) usn
  | _ => extendU8 (source (offset + index)) usn

lemma extract_loadU32 (offset : ℕ) {index : ℕ} (h : index < 4) :
    (loadU32 source offset).extractLsb' (8 * index) 8 = source (offset + index) := by
  apply BitVec.eq_of_getLsbD_eq
  intro i hi
  simp only [loadU32, BitVec.getLsbD_extractLsb', BitVec.getLsbD_append]
  obtain rfl | rfl | rfl | rfl : index = 0 ∨ index = 1 ∨ index = 2 ∨ index = 3 := by omega
  all_goals grind

lemma extract_loadU32_half (offset : ℕ) {index : ℕ} (h : index < 2) :
    (loadU32 source offset).extractLsb' (16 * index) 16 = loadU16 source (offset + 2 * index) := by
  apply BitVec.eq_of_getLsbD_eq
  intro i hi
  simp only [loadU32, loadU16, BitVec.getLsbD_extractLsb', BitVec.getLsbD_append]
  obtain rfl | rfl : index = 0 ∨ index = 1 := by omega
  all_goals grind

lemma signExtend_signExtend (value : BitVec 8) :
    (value.signExtend 16).signExtend 32 = value.signExtend 32 := by
  revert value
  decide

lemma setWidth_setWidth (value : BitVec 8) :
    (value.setWidth 16).setWidth 32 = value.setWidth 32 := by
  revert value
  decide

/-- Widening bytes in two steps. -/
lemma widen_bytes (bytes : Lanes 8 8) (usn : Bool) :
    (if usn then vmovlU 32 (vgetLow 4 (vmovlU 16 bytes))
      else vmovlS 32 (vgetLow 4 (vmovlS 16 bytes))) =
      fun lane : Fin 4 => extendU8 (bytes ⟨lane, by omega⟩) usn := by
  funext lane
  cases usn
  · exact signExtend_signExtend _
  · exact setWidth_setWidth _

lemma widen_halves (halves : Lanes 4 16) (usn : Bool) :
    (if usn then vmovlU 32 halves else vmovlS 32 halves) =
      fun lane => extendU16 (halves lane) usn := by
  cases usn <;> rfl

lemma vitaVifLoadS_16VectorNeon_eq (offset : ℕ) (usn : Bool) :
    vitaVifLoadS_16VectorNeon source offset usn = fun _ => element source 1 usn offset 0 :=
  widen_halves _ usn

lemma vitaVifLoadS_8VectorNeon_eq (offset : ℕ) (usn : Bool) :
    vitaVifLoadS_8VectorNeon source offset usn = fun _ => element source 2 usn offset 0 :=
  widen_bytes _ usn

lemma vitaVifLoadV4_16VectorNeon_eq (offset : ℕ) (usn : Bool) :
    vitaVifLoadV4_16VectorNeon source offset usn = fun lane : Fin 4 => element source 1 usn offset lane.val :=
  widen_halves _ usn

lemma vitaVifLoadV4_8VectorNeon_eq (offset : ℕ) (usn : Bool) :
    vitaVifLoadV4_8VectorNeon source offset usn = fun lane : Fin 4 => element source 2 usn offset lane.val := by
  refine (widen_bytes _ usn).trans (funext fun lane => ?_)
  have hbyte : vreinterpretU8 (vdup (loadU32 source offset)) ⟨lane, by omega⟩ =
      source (offset + lane) := by
    simp only [vreinterpretU8, vdup]
    rw [Nat.mod_eq_of_lt lane.isLt]
    exact extract_loadU32 source offset lane.isLt
  exact congrArg (extendU8 · usn) hbyte

lemma vitaVifLoadV2_16VectorNeon_eq (offset : ℕ) (usn : Bool) :
    vitaVifLoadV2_16VectorNeon source offset usn =
      fun lane : Fin 4 => element source 1 usn offset (lane.val % 2) := by
  refine (widen_halves _ usn).trans (funext fun lane => ?_)
  have hhalf : vreinterpretU16 (vdup (loadU32 source offset)) lane =
      loadU16 source (offset + 2 * (lane % 2)) :=
    extract_loadU32_half source offset (Nat.mod_lt _ (by decide))
  exact congrArg (extendU16 · usn) hhalf

/-- The packed word of V2-8 holds the two bytes twice. -/
lemma extract_packed (low high : Byte) {index : ℕ} (h : index < 4) :
    (((high ++ low).setWidth 32 &&& 0xff#32) ||| ((high ++ low).setWidth 32 &&& 0xff00#32) |||
        (((high ++ low).setWidth 32 &&& 0xff#32) <<< 16) |||
        (((high ++ low).setWidth 32 &&& 0xff00#32) <<< 16)).extractLsb' (8 * index) 8 =
      if index % 2 = 0 then low else high := by
  have hlow : ∀ i < 32, (0xff#32).getLsbD i = decide (i < 8) := by decide
  have hhigh : ∀ i < 32, (0xff00#32).getLsbD i = decide (8 ≤ i ∧ i < 16) := by decide
  apply BitVec.eq_of_getLsbD_eq
  intro i hi
  simp only [BitVec.getLsbD_extractLsb', BitVec.getLsbD_or, BitVec.getLsbD_and,
    BitVec.getLsbD_shiftLeft, BitVec.getLsbD_setWidth, BitVec.getLsbD_append]
  obtain rfl | rfl | rfl | rfl : index = 0 ∨ index = 1 ∨ index = 2 ∨ index = 3 := by omega
  all_goals grind

lemma vitaVifLoadV2_8VectorNeon_eq (offset : ℕ) (usn : Bool) :
    vitaVifLoadV2_8VectorNeon source offset usn =
      fun lane : Fin 4 => element source 2 usn offset (lane.val % 2) := by
  refine (widen_bytes _ usn).trans (funext fun lane => ?_)
  refine congrArg (extendU8 · usn) ?_
  simp only [vreinterpretU8, vdup]
  rw [Nat.mod_eq_of_lt lane.isLt]
  refine (extract_packed _ _ lane.isLt).trans ?_
  obtain hzero | hone : lane.val % 2 = 0 ∨ lane.val % 2 = 1 := by omega
  · rw [if_pos hzero, hzero]
    rfl
  · rw [if_neg (by omega), hone]

/-- The element that goes to a lane, by the VN field. -/
def elementIndex (format : ℕ) (lane : Fin 4) : ℕ :=
  match format / 4 with
  | 0 => 0
  | 1 => lane % 2
  | _ => lane

/-- Whether V3 data loses its W lane. -/
def dropsW (format generatedIteration generatedAlignment : ℕ) : Bool :=
  match format with
  | 0x08 => generatedIteration ≠ generatedAlignment
  | 0x09 => isV3_16Boundary generatedIteration generatedAlignment
  | 0x0a => generatedIteration ≠ generatedAlignment
  | _ => false

/-- The words of a vector. -/
def vectorWords (format : ℕ) (usn : Bool) (offset generatedIteration generatedAlignment : ℕ) :
    Lanes 4 32 := fun lane =>
  if lane = 3 ∧ dropsW format generatedIteration generatedAlignment then 0
  else element source (format % 4) usn offset (elementIndex format lane)

/-- Clearing the W lane. -/
lemma vsetLane_w (drops : Bool) (words : Fin 4 → BitVec 32) :
    (if drops then vsetLane 0 words 3 else words) =
      fun lane => if lane = 3 ∧ drops then 0 else words lane := by
  funext lane
  cases drops
  · simp
  · simp [vsetLane, Function.update_apply]

/-- Only V3 data loses a lane. -/
lemma vectorWords_of_dropsW {format generatedIteration generatedAlignment : ℕ}
    (h : dropsW format generatedIteration generatedAlignment = false) (usn : Bool) (offset : ℕ) :
    vectorWords source format usn offset generatedIteration generatedAlignment =
      fun lane => element source (format % 4) usn offset (elementIndex format lane) := by
  funext lane
  simp only [vectorWords, h, Bool.false_eq_true, and_false, if_false]

/-- The NEON loads give every lane its element. -/
theorem vitaVifLoadUnpackVectorNeon_eq {format : ℕ} (hformat : format < 16) (hvl : format % 4 ≠ 3)
    (usn : Bool) (offset generatedIteration generatedAlignment : ℕ) :
    vitaVifLoadUnpackVectorNeon source offset format usn generatedIteration generatedAlignment =
      some (vectorWords source format usn offset generatedIteration generatedAlignment) := by
  obtain rfl | rfl | rfl | rfl | rfl | rfl | rfl | rfl | rfl | rfl | rfl | rfl :
      format = 0x08 ∨ format = 0x09 ∨ format = 0x0a ∨ format = 0x00 ∨ format = 0x01 ∨
        format = 0x02 ∨ format = 0x04 ∨ format = 0x05 ∨ format = 0x06 ∨ format = 0x0c ∨
        format = 0x0d ∨ format = 0x0e := by omega
  -- the three V3 formats load a V4 vector and may clear its last lane
  · refine congrArg some (Eq.trans ?_ (vsetLane_w (generatedIteration ≠ generatedAlignment) _))
    simp only [decide_eq_true_eq]
    rfl
  · rw [vitaVifLoadUnpackVectorNeon, vitaVifLoadV4_16VectorNeon_eq]
    exact congrArg some (vsetLane_w _ _)
  · rw [vitaVifLoadUnpackVectorNeon, vitaVifLoadV4_8VectorNeon_eq]
    refine congrArg some (Eq.trans ?_ (vsetLane_w (generatedIteration ≠ generatedAlignment) _))
    simp only [decide_eq_true_eq]
    rfl
  all_goals rw [vectorWords_of_dropsW source rfl, vitaVifLoadUnpackVectorNeon]
  · rfl
  · exact congrArg some (vitaVifLoadS_16VectorNeon_eq source offset usn)
  · exact congrArg some (vitaVifLoadS_8VectorNeon_eq source offset usn)
  · refine congrArg some (funext fun lane => ?_)
    fin_cases lane <;> rfl
  · exact congrArg some (vitaVifLoadV2_16VectorNeon_eq source offset usn)
  · exact congrArg some (vitaVifLoadV2_8VectorNeon_eq source offset usn)
  · rfl
  · exact congrArg some (vitaVifLoadV4_16VectorNeon_eq source offset usn)
  · exact congrArg some (vitaVifLoadV4_8VectorNeon_eq source offset usn)

end Elements

end VitaSX2.Vif
