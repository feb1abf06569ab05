/-
The modified immediates of A32: eight bits rotated right by an even amount.

`encodeModifiedImmediate` searches the sixteen rotations for one that leaves eight bits.
It finds one for exactly the values that have one, and what it returns expands back to
the value.
-/
import Mathlib.Algebra.Group.Even
import Mathlib.Data.List.Basic
import VitaSX2.Lib.Armv7

namespace VitaSX2.A32

open BitField Armv7

/-- `RotateRight`. -/
def rotateRight (value : BitVec 32) (amount : ℕ) : BitVec 32 :=
  let amount := amount &&& 31
  if amount = 0 then value else value >>> amount ||| value <<< (32 - amount)

/-- `RotateLeft`. -/
def rotateLeft (value : BitVec 32) (amount : ℕ) : BitVec 32 :=
  let amount := amount &&& 31
  if amount = 0 then value else value <<< amount ||| value >>> (32 - amount)

/-- One turn of the loop of `EncodeModifiedImmediate`. -/
def tryRotate (value : BitVec 32) (rotate : ℕ) : Option (BitVec 32) :=
  let amount := rotate * 2
  let imm8 := rotateLeft value amount
  if imm8 &&& ~~~0xff#32 = 0#32 ∧ rotateRight imm8 amount = value then
    some (BitVec.ofNat 32 rotate <<< 8 ||| imm8)
  else none

/-- `EncodeModifiedImmediate`: the first rotation that fits. -/
def encodeModifiedImmediate (value : BitVec 32) : Option (BitVec 32) :=
  (List.range 16).findSome? (tryRotate value)

/-- The value is an eight-bit number rotated right by an even amount. -/
def IsRotated (value : BitVec 32) : Prop :=
  ∃ (imm8 : BitVec 8) (amount : ℕ), Even amount ∧ value = (imm8.setWidth 32).rotateRight amount

/-! ### Rotations -/

lemma rotateRight_eq (value : BitVec 32) (amount : ℕ) :
    rotateRight value amount = value.rotateRight amount := by
  rw [rotateRight, Nat.and_two_pow_sub_one_eq_mod amount 5, BitVec.rotateRight_def]
  split
  · next h =>
    rw [h]
    simp
  · rfl

lemma rotateLeft_eq (value : BitVec 32) (amount : ℕ) :
    rotateLeft value amount = value.rotateLeft amount := by
  rw [rotateLeft, Nat.and_two_pow_sub_one_eq_mod amount 5, BitVec.rotateLeft_def]
  split
  · next h =>
    rw [h, Nat.sub_zero, BitVec.ushiftRight_eq_zero (Nat.le_refl 32)]
    simp
  · rfl

/-- A rotation to the left undoes one to the right. -/
lemma rotateLeft_rotateRight (value : BitVec 32) {amount : ℕ} (h : amount < 32) :
    (value.rotateRight amount).rotateLeft amount = value := by
  apply BitVec.eq_of_getLsbD_eq
  intro i hi
  rw [BitVec.getLsbD_rotateLeft_of_le h]
  by_cases hlow : i < amount
  · have hback : ¬32 - amount + i < 32 - amount := by omega
    have hcancel : 32 - amount + i - (32 - amount) = i := by omega
    have hlt : 32 - amount + i < 32 := by omega
    simp only [hlow, decide_true, cond_true, BitVec.getLsbD_rotateRight_of_lt h, hback, hlt,
      decide_false, cond_false, hcancel, Bool.true_and]
  · have hback : i - amount < 32 - amount := by omega
    have hcancel : amount + (i - amount) = i := by omega
    simp only [hlow, hi, decide_true, decide_false, cond_true, cond_false,
      BitVec.getLsbD_rotateRight_of_lt h, hback, hcancel, Bool.true_and]

/-! ### The encoding -/

/-- A word without bits from the eighth on is its low byte. -/
lemma setWidth_of_high_zero {imm8 : BitVec 32} (h : imm8 &&& ~~~0xff#32 = 0#32) :
    (imm8.setWidth 8).setWidth 32 = imm8 := by
  apply BitVec.eq_of_getLsbD_eq
  intro i hi
  rw [BitVec.getLsbD_setWidth, BitVec.getLsbD_setWidth]
  by_cases hlow : i < 8
  · simp [hi, hlow]
  · have hmask : (0xff#32).getLsbD i = false := by
      rw [show 0xff#32 = BitVec.ofNat 32 (2 ^ 8 - 1) from rfl, BitVec.getLsbD_ofNat,
        Nat.testBit_two_pow_sub_one]
      simp [hlow]
    have hbit := congrArg (fun word => BitVec.getLsbD word i) h
    rw [BitVec.getLsbD_and, BitVec.getLsbD_not, hmask] at hbit
    simpa [hi, hlow] using hbit.symm

section Append

variable (rotate : BitVec 4) (imm8 : BitVec 8)

lemma setWidth_append_right : (rotate ++ imm8).setWidth 8 = imm8 := by
  apply BitVec.eq_of_getLsbD_eq
  intro i hi
  rw [BitVec.getLsbD_setWidth, BitVec.getLsbD_append]
  simp [hi]

lemma extract_append_left : (rotate ++ imm8).extractLsb' 8 4 = rotate := by
  apply BitVec.eq_of_getLsbD_eq
  intro i hi
  rw [BitVec.getLsbD_extractLsb', BitVec.getLsbD_append]
  simp [hi]

/-- The rotation above the byte is one field of twelve bits. -/
lemma or_byte_eq_field :
    rotate.setWidth 32 <<< 8 ||| imm8.setWidth 32 = field 32 0 (rotate ++ imm8) := by
  apply BitVec.eq_of_getLsbD_eq
  intro i hi
  rw [BitVec.getLsbD_or, BitVec.getLsbD_shiftLeft, BitVec.getLsbD_setWidth, BitVec.getLsbD_setWidth,
    getLsbD_field, BitVec.getLsbD_append]
  by_cases hlow : i < 8
  · simp [hi, hlow]
  · have hlt : i - 8 < 32 := by omega
    have hbyte : imm8.getLsbD i = false := BitVec.getLsbD_of_ge imm8 i (by omega)
    simp [hi, hlow, hlt, hbyte]

end Append

/-- The encoding of a rotation expands to the value that was encoded. -/
lemma expandImm_of_tryRotate {value encoded : BitVec 32} {rotate : ℕ} (hrotate : rotate < 16)
    (h : tryRotate value rotate = some encoded) :
    ∃ imm12 : BitVec 12, encoded = field 32 0 imm12 ∧ ∀ carry, (expandImm imm12 carry).1 = value := by
  rw [tryRotate] at h
  split at h
  · next hfits =>
    obtain ⟨hhigh, hback⟩ := hfits
    obtain ⟨imm8, himm8⟩ : ∃ imm8, imm8 = rotateLeft value (rotate * 2) := ⟨_, rfl⟩
    rw [← himm8] at hhigh hback h
    have hbyte := setWidth_of_high_zero hhigh
    refine ⟨BitVec.ofNat 4 rotate ++ imm8.setWidth 8, ?_, fun carry => ?_⟩
    · rw [← Option.some.inj h, ← or_byte_eq_field, hbyte,
        BitVec.setWidth_ofNat_of_le_of_lt (by omega) hrotate]
    · rw [expandImm, setWidth_append_right, extract_append_left, BitVec.toNat_ofNat,
        Nat.mod_eq_of_lt (b := 2 ^ 4) hrotate, hbyte, Nat.mul_comm, ← rotateRight_eq]
      exact hback
  · exact nomatch h

/-- What `encodeModifiedImmediate` returns is a field of twelve bits that expands to the value. -/
theorem expandImm_of_encode {value encoded : BitVec 32}
    (h : encodeModifiedImmediate value = some encoded) :
    ∃ imm12 : BitVec 12, encoded = field 32 0 imm12 ∧
      ∀ carry, (expandImm imm12 carry).1 = value := by
  obtain ⟨rotate, hmem, hrotate⟩ := List.exists_of_findSome?_eq_some h
  exact expandImm_of_tryRotate (List.mem_range.1 hmem) hrotate

/-- A rotated byte is found by the search, at the latest at its own rotation. -/
lemma tryRotate_of_rotated (imm8 : BitVec 8) {rotate : ℕ} (hrotate : rotate < 16) :
    (tryRotate ((imm8.setWidth 32).rotateRight (rotate * 2)) rotate).isSome := by
  have hbyte : rotateLeft ((imm8.setWidth 32).rotateRight (rotate * 2)) (rotate * 2) =
      imm8.setWidth 32 := by
    rw [rotateLeft_eq, rotateLeft_rotateRight _ (by omega)]
  have hhigh : imm8.setWidth 32 &&& ~~~0xff#32 = 0#32 := by
    apply BitVec.eq_of_getLsbD_eq
    intro i hi
    rw [BitVec.getLsbD_and, BitVec.getLsbD_not, BitVec.getLsbD_setWidth,
      show 0xff#32 = BitVec.ofNat 32 (2 ^ 8 - 1) from rfl, BitVec.getLsbD_ofNat,
      Nat.testBit_two_pow_sub_one]
    by_cases hlow : i < 8
    · simp [hi, hlow]
    · simp [BitVec.getLsbD_of_ge imm8 i (by omega)]
  rw [tryRotate, hbyte, if_pos ⟨hhigh, rotateRight_eq _ _⟩]
  rfl

/-- **The search finds an encoding for exactly the rotated bytes.** -/
theorem encodeModifiedImmediate_isSome (value : BitVec 32) :
    (encodeModifiedImmediate value).isSome ↔ IsRotated value := by
  constructor
  · intro h
    obtain ⟨encoded, hencoded⟩ := Option.isSome_iff_exists.1 h
    obtain ⟨imm12, -, hexpand⟩ := expandImm_of_encode hencoded
    exact ⟨imm12.setWidth 8, 2 * (imm12.extractLsb' 8 4).toNat, ⟨_, Nat.two_mul _⟩,
      (hexpand false).symm⟩
  · rintro ⟨imm8, amount, heven, rfl⟩
    -- a rotation only counts modulo 32
    obtain ⟨half, hhalf⟩ := heven
    have hmod : amount % 32 = half % 16 * 2 := by omega
    rw [← BitVec.rotateRight_mod_eq_rotateRight, hmod]
    have hrotate : half % 16 < 16 := Nat.mod_lt half (by omega)
    exact List.findSome?_isSome_iff.2
      ⟨half % 16, List.mem_range.2 hrotate, tryRotate_of_rotated imm8 hrotate⟩

end VitaSX2.A32
