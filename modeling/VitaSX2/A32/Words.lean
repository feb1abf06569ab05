/-
The words of the emitters as assembled ARMv7 words.

The disjunctions of shifted constants and register numbers that the emitters write out are
the words assembled from the fields of one instruction.
-/
import VitaSX2.A32.Emit
import VitaSX2.Lib.Armv7Assembly

namespace VitaSX2.A32

open BitField Armv7

/-! ### Fields -/

lemma and_register (r : Fin 15) : BitVec.ofNat 32 r &&& 0xf = (regField r).setWidth 32 :=
  setWidth_and_mask (n := 32) (w := 4) r

lemma registerBits_eq (r : Fin 15) (k : ℕ) : registerBits r k = field 32 k (regField r) := by
  rw [registerBits, and_register]
  rfl

lemma flagBits_eq (setFlags : Bool) : flagBits setFlags = field 32 20 (flagBit setFlags) := by
  cases setFlags <;> rfl

lemma condBits_eq (condition : Condition) : condBits condition = field 32 28 condition.value := rfl

lemma condition_ne (condition : Condition) : condition.value ≠ 15#4 := by
  cases condition <;> decide

@[simp] lemma field_zero {w : ℕ} (k : ℕ) : field 32 k (0#w) = 0#32 := by
  simp [field]

/-- The upper four bits of a sixteen-bit immediate, moved next to the register field. -/
lemma upper_eq (value : BitVec 16) :
    (value.setWidth 32 &&& 0xf000) <<< 4 = field 32 16 (value.extractLsb' 12 4) := by
  apply BitVec.eq_of_getLsbD_eq
  intro i hi
  have hmask : (0xf000 : BitVec 32) = BitVec.ofNat 32 (2 ^ 4 - 1) <<< 12 := rfl
  rw [hmask, getLsbD_field]
  simp only [BitVec.getLsbD_shiftLeft, BitVec.getLsbD_and, BitVec.getLsbD_setWidth,
    BitVec.getLsbD_ofNat, BitVec.getLsbD_extractLsb', Nat.testBit_two_pow_sub_one, hi, decide_true,
    Bool.true_and]
  by_cases hlow : i < 16
  · by_cases hfour : i < 4
    · simp [hfour, Nat.not_le.2 hlow]
    · have hbelow : i - 4 < 12 := by omega
      simp [hfour, hbelow, Nat.not_le.2 hlow]
  · have hfour : ¬i < 4 := by omega
    have habove : ¬i - 4 < 12 := by omega
    have hlt : i - 4 < 32 := by omega
    have hlt' : i - 16 < 32 := by omega
    have hplace : 12 + (i - 16) = i - 4 := by omega
    have hfield : i - 4 - 12 = i - 16 := by omega
    simp [hfour, habove, hlt, hlt', hplace, hfield, Nat.le_of_not_lt hlow, Bool.and_comm]

/-- The lower twelve bits of a sixteen-bit immediate. -/
lemma lower_eq (value : BitVec 16) :
    value.setWidth 32 &&& 0x0fff = field 32 0 (value.extractLsb' 0 12) := by
  apply BitVec.eq_of_getLsbD_eq
  intro i hi
  have hmask : (0x0fff : BitVec 32) = BitVec.ofNat 32 (2 ^ 12 - 1) := rfl
  rw [hmask, getLsbD_field]
  simp only [BitVec.getLsbD_and, BitVec.getLsbD_setWidth, BitVec.getLsbD_ofNat,
    BitVec.getLsbD_extractLsb', Nat.testBit_two_pow_sub_one, hi, decide_true, Bool.true_and,
    Nat.zero_le, Nat.sub_zero, Nat.zero_add]
  exact Bool.and_comm _ _

/-! ### Words -/

section Words

variable (condition : Condition) (op : DataOp) (setFlags : Bool) (rn rd rm : Fin 15)

lemma dataProcessingWord_eq (imm12 : BitVec 12) :
    dataProcessingWord condition (field 32 21 op.code) setFlags rn rd (field 32 0 imm12) =
      wordImm condition.value (regField rn) (regField rd) op setFlags imm12 := by
  rw [dataProcessingWord, registerBits_eq, registerBits_eq, flagBits_eq, condBits_eq]
  rfl

lemma moveWord_eq (imm12 : BitVec 12) :
    moveWord condition (field 32 21 op.code) rd (field 32 0 imm12) =
      wordImm condition.value (regField 0) (regField rd) op false imm12 := by
  have hflag : flagBit false = 0#1 := rfl
  have hfirst : regField 0 = 0#4 := rfl
  rw [moveWord, registerBits_eq, condBits_eq, wordImm, hflag, hfirst, field_zero, field_zero,
    BitVec.or_zero, BitVec.or_zero]
  rfl

lemma encodeMovw_eq (value : BitVec 16) :
    encodeMovw rd value condition = wordMove condition.value (regField rd) 0x30 value := by
  rw [encodeMovw, registerBits_eq, condBits_eq, upper_eq, lower_eq]
  rfl

lemma encodeMovt_eq (value : BitVec 16) :
    encodeMovt rd value condition = wordMove condition.value (regField rd) 0x34 value := by
  rw [encodeMovt, registerBits_eq, condBits_eq, upper_eq, lower_eq]
  rfl

lemma encodeMvnReg_eq :
    encodeMvnReg rd rm setFlags =
      wordReg Condition.AL.value (regField 0) (regField rd) (regField rm) .mvn setFlags := by
  have hfirst : regField 0 = 0#4 := rfl
  have hlast : BitVec.ofNat 32 rm &&& 0xf = field 32 0 (regField rm) := by
    rw [field, BitVec.shiftLeft_zero, and_register]
  rw [encodeMvnReg, registerBits_eq, flagBits_eq, condBits_eq, hlast, wordReg, hfirst, field_zero,
    BitVec.or_zero]
  rfl

end Words

end VitaSX2.A32
