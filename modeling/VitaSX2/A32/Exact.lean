/-
The emitters of 32-bit immediates are exact.

What an emitter appends to the buffer, when it succeeds, does to every state just what the
named operation does.  The inverse opcodes are only tried for values without an encoding of
their own, which leaves out the two values where `ADD` and `SUB` set different flags.
-/
import VitaSX2.A32.Words

namespace VitaSX2.A32

open Armv7 BitField

/-- Whenever the emitter succeeds, it appends at most two words, and they run from every state
to one that the effect relates to it. -/
def Emits (emit : Emit) (effect : State → State → Prop) : Prop :=
  ∀ buffer after, emit buffer = (true, after) →
    ∃ words, after.words = buffer.words ++ words ∧ words.length ≤ 2 ∧
      ∀ s, ∃ s', run words s = some s' ∧ effect s s'

/-- The effect when the condition holds, and nothing otherwise. -/
def OnCondition (condition : Condition) (effect : State → State → Prop) : State → State → Prop :=
  fun s s' => if conditionHolds condition.value s.flags then effect s s' else s' = s

/-- The register takes the result and the other registers keep theirs; without `setFlags` the
flags keep theirs too. -/
def Computes (rd : Fin 15) (setFlags : Bool) (result : State → BitVec 32) : State → State → Prop :=
  fun s s' => s'.regs = Function.update s.regs rd (result s) ∧
    (setFlags = false → s'.flags = s.flags)

/-- As `Computes`, and with `setFlags` the flags are those of a sum. -/
def ComputesSum (rd : Fin 15) (setFlags : Bool) (result : State → BitVec 32)
    (sum : State → BitVec 32 × Bool × Bool) : State → State → Prop :=
  fun s s' => s'.regs = Function.update s.regs rd (result s) ∧
    s'.flags = if setFlags then sumFlags (sum s) else s.flags

/-! ### From words to effects -/

lemma onCondition_AL (effect : State → State → Prop) : OnCondition .AL effect = effect := rfl

lemma onCondition_when {condition : Condition} {effect : State → State → Prop} {s after : State}
    (h : effect s after) : OnCondition condition effect s (s.when condition.value after) := by
  rw [OnCondition, State.when]
  split
  · exact h
  · rfl

lemma onCondition_self {condition : Condition} {effect : State → State → Prop}
    (h : ∀ s, effect s s) (s : State) : OnCondition condition effect s s := by
  rw [OnCondition]
  split
  · exact h s
  · rfl

lemma emits_fail (effect : State → State → Prop) : Emits Emit.fail effect := by
  intro buffer after h
  cases h

lemma emits_skip {effect : State → State → Prop} (h : ∀ s, effect s s) : Emits Emit.skip effect := by
  intro buffer after hskip
  exact ⟨[], writes_skip _ _ hskip, by simp, fun s => ⟨s, rfl, h s⟩⟩

lemma emits_of_writes {emit : Emit} {effect : State → State → Prop} {words : List (BitVec 32)}
    (hwrites : Writes emit words) (hlength : words.length ≤ 2)
    (hrun : ∀ s, ∃ s', run words s = some s' ∧ effect s s') : Emits emit effect := by
  intro buffer after h
  exact ⟨words, hwrites _ _ h, hlength, hrun⟩

section Parts

variable (memory : JitMemory) (condition : Condition) (rn rd : Fin 15)
  {effect : State → State → Prop} {value encoded : BitVec 32}

/-- An operation with an encoded immediate. -/
lemma emits_dataProcessing (op : DataOp) (setFlags : Bool) (hop : op.isMove = false)
    (hencoded : encodeModifiedImmediate value = some encoded)
    (heffect : ∀ s carry, effect s
      (s.write rd setFlags (op.compute (s.regs rn) value carry s.flags))) :
    Emits (emitU32 memory
      (dataProcessingWord condition (field 32 21 op.code) setFlags rn rd encoded))
      (OnCondition condition effect) := by
  obtain ⟨imm12, rfl, hexpand⟩ := expandImm_of_encode hencoded
  refine emits_of_writes (writes_emitU32 memory _) (by simp) fun s => ?_
  rw [run_singleton, dataProcessingWord_eq,
    step_wordImm (condition_ne condition) s rn rd op setFlags imm12 (by simp [hop]), hexpand]
  exact ⟨_, rfl, onCondition_when (heffect s _)⟩

/-- A move of an encoded immediate. -/
lemma emits_move (op : DataOp) (hencoded : encodeModifiedImmediate value = some encoded)
    (heffect : ∀ s carry, effect s
      (s.write rd false (op.compute (s.regs 0) value carry s.flags))) :
    Emits (emitU32 memory (moveWord condition (field 32 21 op.code) rd encoded))
      (OnCondition condition effect) := by
  obtain ⟨imm12, rfl, hexpand⟩ := expandImm_of_encode hencoded
  refine emits_of_writes (writes_emitU32 memory _) (by simp) fun s => ?_
  rw [run_singleton, moveWord_eq,
    step_wordImm (condition_ne condition) s 0 rd op false imm12 (fun _ => rfl), hexpand]
  exact ⟨_, rfl, onCondition_when (heffect s _)⟩

/-- `MOVW` and `MOVT` of the two halves of a value. -/
lemma emits_halves (value : BitVec 32) :
    Emits ((emitU32 memory (encodeMovw rd (value.setWidth 16) condition)).andThen
      (emitU32 memory (encodeMovt rd ((value >>> 16).setWidth 16) condition)))
      (OnCondition condition (Computes rd false fun _ => value)) := by
  refine emits_of_writes ((writes_emitU32 memory _).andThen (writes_emitU32 memory _)) (by simp)
    fun s => ?_
  have hhalves : (value >>> 16).setWidth 16 ++ value.setWidth 16 = value := by
    apply BitVec.eq_of_getLsbD_eq
    intro i hi
    rw [BitVec.getLsbD_append]
    by_cases hlow : i < 16
    · simp [hlow]
    · have hhigh : i - 16 < 16 := by omega
      have hplace : 16 + (i - 16) = i := by omega
      simp [hlow, hhigh, hplace]
  rw [encodeMovw_eq, encodeMovt_eq]
  refine ⟨_, run_movw_movt (condition_ne condition) s rd _ _, onCondition_when ?_⟩
  rw [hhalves]
  exact ⟨rfl, fun _ => rfl⟩

end Parts

/-! ### Register checks and elided writes -/

@[simp] lemma isRegister_fin (r : Fin 15) : isRegister r = true := by
  have hlt : r.val < 16 := by omega
  simp [isRegister, hlt]

lemma eq_of_canElide {rd rn : Fin 15} (h : canElideSameRegisterWrite rd rn = true) : rd = rn := by
  simp only [canElideSameRegisterWrite, Bool.and_eq_true, beq_iff_eq] at h
  exact Fin.ext h.1

/-- Writing a register's own value back without the flags changes nothing. -/
lemma computes_self {rd rn : Fin 15} {setFlags : Bool} {result : State → BitVec 32}
    (h : canElideSameRegisterWrite rd rn = true) (hresult : ∀ s, result s = s.regs rn) (s : State) :
    Computes rd setFlags result s s := by
  refine ⟨?_, fun _ => rfl⟩
  rw [hresult, ← eq_of_canElide h, Function.update_eq_self]

lemma computesSum_self {rd rn : Fin 15} {result : State → BitVec 32}
    {sum : State → BitVec 32 × Bool × Bool} (h : canElideSameRegisterWrite rd rn = true)
    (hresult : ∀ s, result s = s.regs rn) (s : State) : ComputesSum rd false result sum s s := by
  refine ⟨?_, rfl⟩
  rw [hresult, ← eq_of_canElide h, Function.update_eq_self]

/-- Zero and the least number have encodings of their own. -/
lemma ne_of_not_encoded {value : BitVec 32} (h : encodeModifiedImmediate value = none) :
    value ≠ 0 ∧ value ≠ 0x80000000#32 := by
  constructor <;> rintro rfl <;> exact absurd h (by decide)

lemma zero_sub_eq (value : BitVec 32) : 0 - value = -value := BitVec.zero_sub value

/-! ### The emitters -/

section Emitters

variable (memory : JitMemory) (rd rn : Fin 15) (value : BitVec 32) (setFlags : Bool)
  (condition : Condition)

lemma emits_movImm32 :
    Emits (emitMovImm32 memory rd value condition)
      (OnCondition condition (Computes rd false fun _ => value)) := by
  rw [emitMovImm32, isRegister_fin]
  split
  · next h => exact absurd h (by decide)
  · split
    · next hencoded =>
      exact emits_move memory condition rd .mov hencoded fun s _ => ⟨rfl, fun _ => rfl⟩
    · split
      · next hencoded =>
        refine emits_move memory condition rd .mvn hencoded fun s _ => ⟨?_, fun _ => rfl⟩
        simp [State.write, DataOp.compute]
      · split
        · next hhigh =>
          -- the upper half is zero, so that `MOVW` alone writes the value
          refine emits_of_writes (writes_emitU32 memory _) (by simp) fun s => ?_
          rw [run_singleton, encodeMovw_eq, step_movw (condition_ne condition)]
          refine ⟨_, rfl, onCondition_when ⟨?_, fun _ => rfl⟩⟩
          have hlow : (value.setWidth 16).setWidth 32 = value := by
            apply BitVec.eq_of_toNat_eq
            have hshift := congrArg BitVec.toNat hhigh
            simp only [BitVec.toNat_ushiftRight, Nat.shiftRight_eq_div_pow] at hshift
            simp only [BitVec.toNat_setWidth]
            have hzero : (0 : BitVec 32).toNat = 0 := rfl
            omega
          rw [hlow]
        · split
          · exact emits_halves memory condition rd value
          · next hal =>
            obtain rfl : condition = .AL := not_not.1 hal
            rw [emitMovImm32Patchable, isRegister_fin]
            exact emits_halves memory .AL rd value

/-- `ADD` and `SUB` with the inverse opcode for a negated immediate. -/
lemma emits_addImm32 :
    Emits (emitAddImm32 memory rd rn value setFlags)
      (ComputesSum rd setFlags (fun s => s.regs rn + value)
        fun s => addWithCarry (s.regs rn) value false) := by
  rw [emitAddImm32, isRegister_fin, isRegister_fin]
  split
  · next h => exact absurd h (by decide)
  · split
    · next helide =>
      obtain ⟨hflags, rfl, hsame⟩ := helide
      obtain rfl : setFlags = false := by simpa using hflags
      exact emits_skip (computesSum_self hsame fun s => BitVec.add_zero _)
    · split
      · next hnone =>
        obtain ⟨hzero, hmin⟩ := ne_of_not_encoded hnone
        split
        · exact emits_fail _
        · next hencoded =>
          refine emits_dataProcessing memory .AL rn rd .sub setFlags rfl hencoded fun s _ => ?_
          have hsum : addWithCarry (s.regs rn) (~~~(0 - value)) true =
              addWithCarry (s.regs rn) value false := by
            rw [zero_sub_eq, addWithCarry_not_neg _ hzero hmin]
          refine ⟨?_, ?_⟩
          · simp only [State.write, DataOp.compute, hsum, addWithCarry_add]
          · simp only [State.write, DataOp.compute, hsum]
      · next hencoded =>
        refine emits_dataProcessing memory .AL rn rd .add setFlags rfl hencoded fun s _ => ⟨?_, rfl⟩
        simp only [State.write, DataOp.compute, addWithCarry_add]

lemma emits_subImm32 :
    Emits (emitSubImm32 memory rd rn value setFlags)
      (ComputesSum rd setFlags (fun s => s.regs rn - value)
        fun s => addWithCarry (s.regs rn) (~~~value) true) := by
  rw [emitSubImm32, isRegister_fin, isRegister_fin]
  split
  · next h => exact absurd h (by decide)
  · split
    · next helide =>
      obtain ⟨hflags, rfl, hsame⟩ := helide
      obtain rfl : setFlags = false := by simpa using hflags
      exact emits_skip (computesSum_self hsame fun s => BitVec.sub_zero _)
    · split
      · next hnone =>
        obtain ⟨hzero, hmin⟩ := ne_of_not_encoded hnone
        split
        · exact emits_fail _
        · next hencoded =>
          refine emits_dataProcessing memory .AL rn rd .add setFlags rfl hencoded fun s _ => ?_
          have hneg : -value ≠ 0 := by simpa using hzero
          have hnegMin : -value ≠ 0x80000000#32 := by
            intro h
            exact hmin (by rw [← BitVec.neg_neg (x := value), h]; rfl)
          have hsum : addWithCarry (s.regs rn) (0 - value) false =
              addWithCarry (s.regs rn) (~~~value) true := by
            rw [zero_sub_eq, ← addWithCarry_not_neg _ hneg hnegMin, BitVec.neg_neg]
          refine ⟨?_, ?_⟩
          · simp only [State.write, DataOp.compute, hsum, addWithCarry_sub]
          · simp only [State.write, DataOp.compute, hsum]
      · next hencoded =>
        refine emits_dataProcessing memory .AL rn rd .sub setFlags rfl hencoded fun s _ => ⟨?_, rfl⟩
        simp only [State.write, DataOp.compute, addWithCarry_sub]

lemma emits_rsbImm32 :
    Emits (emitRsbImm32 memory rd rn value setFlags)
      (ComputesSum rd setFlags (fun s => value - s.regs rn)
        fun s => addWithCarry (~~~s.regs rn) value true) := by
  rw [emitRsbImm32, isRegister_fin, isRegister_fin]
  split
  · next h => exact absurd h (by decide)
  · split
    · exact emits_fail _
    · next hencoded =>
      refine emits_dataProcessing memory .AL rn rd .rsb setFlags rfl hencoded fun s _ => ⟨?_, rfl⟩
      simp only [State.write, DataOp.compute, addWithCarry_rsb]

lemma emits_andImm32 :
    Emits (emitAndImm32 memory rd rn value setFlags)
      (Computes rd setFlags fun s => s.regs rn &&& value) := by
  rw [emitAndImm32, isRegister_fin, isRegister_fin]
  split
  · next h => exact absurd h (by decide)
  · split
    · next helide =>
      obtain ⟨-, rfl, hsame⟩ := helide
      exact emits_skip (computes_self hsame fun s => BitVec.and_allOnes)
    · split
      · next hencoded =>
        exact emits_dataProcessing memory .AL rn rd .and setFlags rfl hencoded
          fun s _ => ⟨rfl, fun h => if_neg (by simp [h])⟩
      · split
        · exact emits_fail _
        · next hencoded =>
          cases setFlags with
          | true => exact nomatch hencoded
          | false =>
            refine emits_dataProcessing memory .AL rn rd .bic false rfl hencoded
              fun s _ => ⟨?_, fun _ => rfl⟩
            simp only [State.write, DataOp.compute, BitVec.not_not]

lemma emits_bicImm32 :
    Emits (emitBicImm32 memory rd rn value setFlags condition)
      (OnCondition condition (Computes rd setFlags fun s => s.regs rn &&& ~~~value)) := by
  rw [emitBicImm32, isRegister_fin, isRegister_fin]
  split
  · next h => exact absurd h (by decide)
  · split
    · next helide =>
      obtain ⟨-, rfl, hsame⟩ := helide
      exact emits_skip (onCondition_self (computes_self hsame fun s => BitVec.and_allOnes))
    · split
      · next hencoded =>
        exact emits_dataProcessing memory condition rn rd .bic setFlags rfl hencoded
          fun s _ => ⟨rfl, fun h => if_neg (by simp [h])⟩
      · split
        · exact emits_fail _
        · next hencoded =>
          cases setFlags with
          | true => exact nomatch hencoded
          | false =>
            exact emits_dataProcessing memory condition rn rd .and false rfl hencoded
              fun s _ => ⟨rfl, fun _ => rfl⟩

lemma emits_eorImm32 :
    Emits (emitEorImm32 memory rd rn value setFlags)
      (Computes rd setFlags fun s => s.regs rn ^^^ value) := by
  rw [emitEorImm32, isRegister_fin, isRegister_fin]
  split
  · next h => exact absurd h (by decide)
  · split
    · next helide =>
      obtain ⟨-, rfl, hsame⟩ := helide
      exact emits_skip (computes_self hsame fun s => BitVec.xor_zero)
    · split
      · next hones =>
        -- `EOR` with all ones is `MVN` of the register
        obtain ⟨-, rfl⟩ := hones
        rw [emitMvnReg, isRegister_fin, isRegister_fin]
        refine emits_of_writes (writes_emitU32 memory _) (by simp) fun s => ?_
        rw [run_singleton, encodeMvnReg_eq,
          step_wordReg (condition_ne .AL) s 0 rd rn .mvn false fun _ => rfl]
        refine ⟨_, rfl, ?_, fun _ => rfl⟩
        show Function.update s.regs rd (~~~s.regs rn) = _
        rw [← BitVec.xor_allOnes]
        rfl
      · split
        · exact emits_fail _
        · next hencoded =>
          exact emits_dataProcessing memory .AL rn rd .eor setFlags rfl hencoded
            fun s _ => ⟨rfl, fun h => if_neg (by simp [h])⟩

lemma emits_orrImm32 :
    Emits (emitOrrImm32 memory rd rn value setFlags condition)
      (OnCondition condition (Computes rd setFlags fun s => s.regs rn ||| value)) := by
  rw [emitOrrImm32, isRegister_fin, isRegister_fin]
  split
  · next h => exact absurd h (by decide)
  · split
    · next helide =>
      obtain ⟨-, rfl, hsame⟩ := helide
      exact emits_skip (onCondition_self (computes_self hsame fun s => BitVec.or_zero))
    · split
      · exact emits_fail _
      · next hencoded =>
        exact emits_dataProcessing memory condition rn rd .orr setFlags rfl hencoded
          fun s _ => ⟨rfl, fun h => if_neg (by simp [h])⟩

/-- With space for two words, a move always succeeds: the two halves need no encoding. -/
lemma emitMovImm32_succeeds {buffer : CodeBuffer} (hspace : SpaceFor memory 2 buffer) :
    (emitMovImm32 memory rd value condition buffer).1 = true := by
  have hone : ∀ word, (emitU32 memory word buffer).1 = true := fun word =>
    spaceFor_one hspace word
  have htwo : ∀ word word', ((emitU32 memory word).andThen (emitU32 memory word') buffer).1 = true :=
    fun word word' => spaceFor_two hspace word word'
  rw [emitMovImm32, isRegister_fin, if_neg (by decide)]
  cases encodeModifiedImmediate value with
  | some encoded => exact hone _
  | none =>
    cases encodeModifiedImmediate (~~~value) with
    | some encoded => exact hone _
    | none =>
      by_cases hhigh : value >>> 16 = 0
      · simp only [if_pos hhigh]
        exact hone _
      · by_cases hal : condition ≠ .AL
        · simp only [if_neg hhigh, if_pos hal]
          exact htwo _ _
        · simp only [if_neg hhigh, if_neg hal]
          rw [emitMovImm32Patchable, isRegister_fin]
          exact htwo _ _

end Emitters

/-- **The immediate forms are exact.**  Each emitter that succeeds leaves the destination equal
to the named operation on the register and the value and every other register as it was; the
flags of sums are those of the named sum, and without `setFlags` no flag changes.  A move fails
only for lack of space, and the modified immediates are exactly the bytes rotated right by an
even amount. -/
theorem immediateForms_exact (memory : JitMemory) (rd rn : Fin 15) (value : BitVec 32)
    (setFlags : Bool) (condition : Condition) :
    Emits (emitMovImm32 memory rd value condition)
        (OnCondition condition (Computes rd false fun _ => value)) ∧
      Emits (emitAddImm32 memory rd rn value setFlags)
        (ComputesSum rd setFlags (fun s => s.regs rn + value)
          fun s => addWithCarry (s.regs rn) value false) ∧
      Emits (emitSubImm32 memory rd rn value setFlags)
        (ComputesSum rd setFlags (fun s => s.regs rn - value)
          fun s => addWithCarry (s.regs rn) (~~~value) true) ∧
      Emits (emitRsbImm32 memory rd rn value setFlags)
        (ComputesSum rd setFlags (fun s => value - s.regs rn)
          fun s => addWithCarry (~~~s.regs rn) value true) ∧
      Emits (emitAndImm32 memory rd rn value setFlags)
        (Computes rd setFlags fun s => s.regs rn &&& value) ∧
      Emits (emitBicImm32 memory rd rn value setFlags condition)
        (OnCondition condition (Computes rd setFlags fun s => s.regs rn &&& ~~~value)) ∧
      Emits (emitEorImm32 memory rd rn value setFlags)
        (Computes rd setFlags fun s => s.regs rn ^^^ value) ∧
      Emits (emitOrrImm32 memory rd rn value setFlags condition)
        (OnCondition condition (Computes rd setFlags fun s => s.regs rn ||| value)) ∧
      (∀ buffer, SpaceFor memory 2 buffer →
        (emitMovImm32 memory rd value condition buffer).1 = true) ∧
      ((encodeModifiedImmediate value).isSome ↔ IsRotated value) :=
  ⟨emits_movImm32 memory rd value condition, emits_addImm32 memory rd rn value setFlags,
    emits_subImm32 memory rd rn value setFlags, emits_rsbImm32 memory rd rn value setFlags,
    emits_andImm32 memory rd rn value setFlags, emits_bicImm32 memory rd rn value setFlags condition,
    emits_eorImm32 memory rd rn value setFlags, emits_orrImm32 memory rd rn value setFlags condition,
    fun _ => emitMovImm32_succeeds memory rd value condition, encodeModifiedImmediate_isSome value⟩

end VitaSX2.A32
