/-
Assembled words of the ARMv7 data-processing instructions, and what they do.

A word assembled from its fields decodes to the instruction of these fields.  The last
section has the identities of the sum with carry that let `ADD` and `SUB` stand in for each
other.
-/
import VitaSX2.Lib.Armv7

namespace VitaSX2.Armv7

open BitField

/-! ### Words from fields -/

section Fields

variable (cond rn rd rm : BitVec 4) (op : DataOp) (setFlags : Bool)

/-- The `S` bit. -/
def flagBit (setFlags : Bool) : BitVec 1 := if setFlags then 1#1 else 0#1

/-- The word of a data-processing instruction with a modified immediate. -/
def wordImm (imm12 : BitVec 12) : BitVec 32 :=
  field 32 28 cond ||| field 32 25 1#3 ||| field 32 21 op.code |||
    field 32 20 (flagBit setFlags) ||| field 32 16 rn ||| field 32 12 rd ||| field 32 0 imm12

/-- The word of a data-processing instruction with an unshifted register. -/
def wordReg : BitVec 32 :=
  field 32 28 cond ||| field 32 21 op.code ||| field 32 20 (flagBit setFlags) |||
    field 32 16 rn ||| field 32 12 rd ||| field 32 0 rm

/-- The word of a sixteen-bit move with the given bits 20 to 27. -/
def wordMove (kind : BitVec 8) (imm16 : BitVec 16) : BitVec 32 :=
  field 32 28 cond ||| field 32 20 kind ||| field 32 16 (imm16.extractLsb' 12 4) |||
    field 32 12 rd ||| field 32 0 (imm16.extractLsb' 0 12)

end Fields

lemma flagBit_eq_one (setFlags : Bool) : (flagBit setFlags == 1#1) = setFlags := by
  cases setFlags <;> rfl

/-! ### Decoding -/

/-- Nothing of a field is read from another place. -/
lemma extract_apart {w : ℕ} (k p q : ℕ) (x : BitVec w) (h : p + q ≤ k ∨ k + w ≤ p) :
    (field 32 k x).extractLsb' p q = 0#q := extract_field_of_apart k p q x h

/-- The bits 20 to 24 tell the sixteen-bit moves from the operations with a destination. -/
lemma not_move_of_code {word : BitVec 32} {op : DataOp} (hop : word.extractLsb' 21 4 = op.code) :
    word.extractLsb' 20 5 ≠ 16#5 ∧ word.extractLsb' 20 5 ≠ 20#5 := by
  have hupper : (word.extractLsb' 20 5).extractLsb' 1 4 = op.code := by
    rw [← hop, extract_extract _ _ _ _ (by omega)]
  constructor <;> intro h <;> rw [h] at hupper <;> cases op <;> exact absurd hupper (by decide)

section Decode

variable {cond rn rd rm : BitVec 4} {op : DataOp} {setFlags : Bool}

lemma decodeOp_of_fields {word : BitVec 32} (hop : word.extractLsb' 21 4 = op.code)
    (hrn : op.isMove = true → word.extractLsb' 16 4 = 0#4) : decodeOp word = some op := by
  rw [decodeOp, hop, DataOp.ofCode_code, Option.filter_some]
  cases hmove : op.isMove with
  | false => rfl
  | true => rw [hrn hmove]; rfl

theorem decode_wordImm (imm12 : BitVec 12) (hcond : cond ≠ 15#4) (hrn : op.isMove = true → rn = 0#4) :
    decode (wordImm cond rn rd op setFlags imm12) =
      some (cond, .dataImm op setFlags rn rd imm12) := by
  obtain ⟨word, hword⟩ : ∃ word, word = wordImm cond rn rd op setFlags imm12 := ⟨_, rfl⟩
  have hread : word.extractLsb' 28 4 = cond ∧ word.extractLsb' 25 3 = 1#3 ∧
      word.extractLsb' 21 4 = op.code ∧ word.extractLsb' 20 1 = flagBit setFlags ∧
      word.extractLsb' 16 4 = rn ∧ word.extractLsb' 12 4 = rd ∧ word.extractLsb' 0 12 = imm12 := by
    simp only [hword, wordImm, BitVec.extractLsb'_or]
    refine ⟨?_, ?_, ?_, ?_, ?_, ?_, ?_⟩ <;>
      simp (disch := omega) only [extract_field, extract_apart, BitVec.or_zero, BitVec.zero_or]
  obtain ⟨h₂₈, h₂₅, h₂₁, h₂₀, h₁₆, h₁₂, h₀⟩ := hread
  obtain ⟨hmovw, hmovt⟩ := not_move_of_code h₂₁
  have hop : decodeOp word = some op := decodeOp_of_fields h₂₁ fun h => h₁₆.trans (hrn h)
  rw [← hword, decode, h₂₈, if_neg hcond, h₂₅, if_pos rfl, if_neg hmovw, if_neg hmovt, hop, h₂₀,
    h₁₆, h₁₂, h₀, flagBit_eq_one]
  rfl

theorem decode_wordReg (hcond : cond ≠ 15#4) (hrn : op.isMove = true → rn = 0#4) :
    decode (wordReg cond rn rd rm op setFlags) =
      some (cond, .dataReg op setFlags rn rd rm) := by
  obtain ⟨word, hword⟩ : ∃ word, word = wordReg cond rn rd rm op setFlags := ⟨_, rfl⟩
  have hread : word.extractLsb' 28 4 = cond ∧ word.extractLsb' 25 3 = 0#3 ∧
      word.extractLsb' 21 4 = op.code ∧ word.extractLsb' 20 1 = flagBit setFlags ∧
      word.extractLsb' 16 4 = rn ∧ word.extractLsb' 12 4 = rd ∧ word.extractLsb' 4 8 = 0#8 ∧
      word.extractLsb' 0 4 = rm := by
    simp only [hword, wordReg, BitVec.extractLsb'_or]
    refine ⟨?_, ?_, ?_, ?_, ?_, ?_, ?_, ?_⟩ <;>
      simp (disch := omega) only [extract_field, extract_apart, BitVec.or_zero, BitVec.zero_or]
  obtain ⟨h₂₈, h₂₅, h₂₁, h₂₀, h₁₆, h₁₂, h₄, h₀⟩ := hread
  have hop : decodeOp word = some op := decodeOp_of_fields h₂₁ fun h => h₁₆.trans (hrn h)
  rw [← hword, decode, h₂₈, if_neg hcond, h₂₅, if_neg (by decide), if_pos ⟨rfl, h₄⟩, hop, h₂₀,
    h₁₆, h₁₂, h₀, flagBit_eq_one]
  rfl

/-- The fields of a sixteen-bit move. -/
lemma extract_wordMove (cond rd : BitVec 4) (kind : BitVec 8) (imm : BitVec 16) :
    let word := wordMove cond rd kind imm
    word.extractLsb' 28 4 = cond ∧ word.extractLsb' 20 8 = kind ∧
      word.extractLsb' 12 4 = rd ∧ imm16 word = imm := by
  have hread : (wordMove cond rd kind imm).extractLsb' 28 4 = cond ∧
      (wordMove cond rd kind imm).extractLsb' 20 8 = kind ∧
      (wordMove cond rd kind imm).extractLsb' 12 4 = rd ∧
      (wordMove cond rd kind imm).extractLsb' 16 4 = imm.extractLsb' 12 4 ∧
      (wordMove cond rd kind imm).extractLsb' 0 12 = imm.extractLsb' 0 12 := by
    simp only [wordMove, BitVec.extractLsb'_or]
    refine ⟨?_, ?_, ?_, ?_, ?_⟩ <;>
      simp (disch := omega) only [extract_field, extract_apart, BitVec.or_zero, BitVec.zero_or]
  obtain ⟨h₂₈, h₂₀, h₁₂, h₁₆, h₀⟩ := hread
  refine ⟨h₂₈, h₂₀, h₁₂, ?_⟩
  rw [imm16, h₁₆, h₀]
  apply BitVec.eq_of_getLsbD_eq
  intro i hi
  rw [BitVec.getLsbD_append]
  by_cases hlow : i < 12
  · simp [hlow]
  · have hhigh : i - 12 < 4 := by omega
    have hsum : 12 + (i - 12) = i := by omega
    simp [hlow, hhigh, hsum]

theorem decode_movw (imm : BitVec 16) (hcond : cond ≠ 15#4) :
    decode (wordMove cond rd 0x30 imm) = some (cond, .movw rd imm) := by
  obtain ⟨h₂₈, h₂₀, h₁₂, himm⟩ := extract_wordMove cond rd 0x30 imm
  have h₂₅ : ((wordMove cond rd 0x30 imm).extractLsb' 20 8).extractLsb' 5 3 = _ :=
    extract_extract _ _ _ _ (by omega)
  have hkind : ((wordMove cond rd 0x30 imm).extractLsb' 20 8).extractLsb' 0 5 = _ :=
    extract_extract _ _ _ _ (by omega)
  rw [h₂₀] at h₂₅ hkind
  rw [decode, h₂₈, if_neg hcond, ← h₂₅, if_pos (by decide), ← hkind, if_pos (by decide), h₁₂, himm]

theorem decode_movt (imm : BitVec 16) (hcond : cond ≠ 15#4) :
    decode (wordMove cond rd 0x34 imm) = some (cond, .movt rd imm) := by
  obtain ⟨h₂₈, h₂₀, h₁₂, himm⟩ := extract_wordMove cond rd 0x34 imm
  have h₂₅ : ((wordMove cond rd 0x34 imm).extractLsb' 20 8).extractLsb' 5 3 = _ :=
    extract_extract _ _ _ _ (by omega)
  have hkind : ((wordMove cond rd 0x34 imm).extractLsb' 20 8).extractLsb' 0 5 = _ :=
    extract_extract _ _ _ _ (by omega)
  rw [h₂₀] at h₂₅ hkind
  rw [decode, h₂₈, if_neg hcond, ← h₂₅, if_pos (by decide), ← hkind, if_neg (by decide),
    if_pos (by decide), h₁₂, himm]

end Decode

/-! ### Steps -/

/-- The field that names a register. -/
def regField (r : Fin 15) : BitVec 4 := BitVec.ofNat 4 r

@[simp] lemma reg?_regField (r : Fin 15) : reg? (regField r) = some r := by
  have hlt : r.val < 16 := by omega
  simp [reg?, regField, Nat.mod_eq_of_lt hlt]

/-- What an instruction does when its condition holds, and the state as it is otherwise. -/
def State.when (s : State) (cond : BitVec 4) (after : State) : State :=
  if conditionHolds cond s.flags then after else s

lemma step_of_decode {word : BitVec 32} {cond : BitVec 4} {instruction : Instruction}
    (h : decode word = some (cond, instruction)) {s after : State}
    (hafter : instruction.execute s = some after) :
    step word s = some (s.when cond after) := by
  rw [step, h]
  show (if conditionHolds cond s.flags then instruction.execute s else some s) = _
  rw [State.when, hafter]
  split <;> rfl

section Step

variable {cond : BitVec 4} (hcond : cond ≠ 15#4) (s : State) (rn rd rm : Fin 15)

include hcond

/-- A data-processing instruction with a modified immediate. -/
theorem step_wordImm (op : DataOp) (setFlags : Bool) (imm12 : BitVec 12)
    (hrn : op.isMove = true → rn = 0) :
    step (wordImm cond (regField rn) (regField rd) op setFlags imm12) s =
      some (s.when cond (s.write rd setFlags (op.compute (s.regs rn)
        (expandImm imm12 s.flags.c).1 (expandImm imm12 s.flags.c).2 s.flags))) := by
  refine step_of_decode (decode_wordImm imm12 hcond fun h => ?_) ?_
  · rw [hrn h]
    rfl
  · simp only [Instruction.execute, reg?_regField]
    rfl

/-- A data-processing instruction with an unshifted register. -/
theorem step_wordReg (op : DataOp) (setFlags : Bool) (hrn : op.isMove = true → rn = 0) :
    step (wordReg cond (regField rn) (regField rd) (regField rm) op setFlags) s =
      some (s.when cond (s.write rd setFlags
        (op.compute (s.regs rn) (s.regs rm) s.flags.c s.flags))) := by
  refine step_of_decode (decode_wordReg hcond fun h => ?_) ?_
  · rw [hrn h]
    rfl
  · simp only [Instruction.execute, reg?_regField]
    rfl

/-- `MOVW` writes a sixteen-bit value. -/
theorem step_movw (imm : BitVec 16) :
    step (wordMove cond (regField rd) 0x30 imm) s =
      some (s.when cond { s with regs := Function.update s.regs rd (imm.setWidth 32) }) := by
  refine step_of_decode (decode_movw imm hcond) ?_
  simp only [Instruction.execute, reg?_regField]
  rfl

/-- `MOVW` of the lower half and `MOVT` of the upper half write a value. -/
theorem run_movw_movt (low high : BitVec 16) :
    run [wordMove cond (regField rd) 0x30 low, wordMove cond (regField rd) 0x34 high] s =
      some (s.when cond { s with regs := Function.update s.regs rd (high ++ low) }) := by
  rw [run, step_movw hcond]
  show run [wordMove cond (regField rd) 0x34 high] _ = _
  rw [run_singleton]
  by_cases hholds : conditionHolds cond s.flags = true
  · -- neither move sets a flag: the second sees the condition of the first
    have hexecute : ((Instruction.movt (regField rd) high).execute
        { s with regs := Function.update s.regs rd (low.setWidth 32) }) =
        some { s with regs := Function.update s.regs rd (high ++ low) } := by
      simp [Instruction.execute]
    rw [State.when, if_pos hholds, step_of_decode (decode_movt high hcond) hexecute,
      State.when, if_pos hholds, State.when, if_pos hholds]
  · have hexecute : ∃ after, (Instruction.movt (regField rd) high).execute s = some after := by
      simp [Instruction.execute]
    obtain ⟨after, hafter⟩ := hexecute
    rw [State.when, if_neg hholds, step_of_decode (decode_movt high hcond) hafter,
      State.when, if_neg hholds, State.when, if_neg hholds]

end Step

/-! ### Sums -/

lemma addWithCarry_add (x y : BitVec 32) : (addWithCarry x y false).1 = x + y := by
  apply BitVec.eq_of_toNat_eq
  simp [addWithCarry]

lemma addWithCarry_sub (x y : BitVec 32) : (addWithCarry x (~~~y) true).1 = x - y := by
  apply BitVec.eq_of_toNat_eq
  have hy := y.isLt
  simp only [addWithCarry, Bool.toNat_true, BitVec.toNat_ofNat, BitVec.toNat_not, BitVec.toNat_sub]
  omega

lemma addWithCarry_rsb (x y : BitVec 32) : (addWithCarry (~~~x) y true).1 = y - x := by
  apply BitVec.eq_of_toNat_eq
  have hx := x.isLt
  simp only [addWithCarry, Bool.toNat_true, BitVec.toNat_ofNat, BitVec.toNat_not, BitVec.toNat_sub]
  omega

/-- Adding `v` and subtracting its negation agree in the sum, the carry and the overflow, for
all `v` but zero, where the carries differ, and the least number, where the overflows do. -/
theorem addWithCarry_not_neg (x : BitVec 32) {v : BitVec 32} (hzero : v ≠ 0)
    (hmin : v ≠ 0x80000000#32) : addWithCarry x (~~~(-v)) true = addWithCarry x v false := by
  have hv := v.isLt
  have hpos : v.toNat ≠ 0 := fun h => hzero (BitVec.eq_of_toNat_eq h)
  have hne : v.toNat ≠ 0x80000000 := fun h => hmin (BitVec.eq_of_toNat_eq h)
  have hnat : (~~~(-v)).toNat + 1 = v.toNat := by
    rw [BitVec.toNat_not, BitVec.toNat_neg]
    omega
  have hint : (~~~(-v)).toInt + 1 = v.toInt := by
    rw [BitVec.toInt_eq_toNat_cond, BitVec.toInt_eq_toNat_cond]
    split <;> split <;> omega
  have hunsigned : x.toNat + (~~~(-v)).toNat + true.toNat = x.toNat + v.toNat + false.toNat := by
    simp only [Bool.toNat_true, Bool.toNat_false]
    omega
  have hsigned : x.toInt + (~~~(-v)).toInt + (true.toNat : Int) =
      x.toInt + v.toInt + (false.toNat : Int) := by
    simp only [Bool.toNat_true, Bool.toNat_false]
    omega
  simp only [addWithCarry, hunsigned, hsigned]

end VitaSX2.Armv7
