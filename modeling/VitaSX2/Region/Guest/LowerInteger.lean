/-
The lowerings that only compute, against the instructions they stand for.

Each family of lowerings has one lemma, with the operation of its nodes as a
parameter; `lowerSpecial_computes` and `lowerPlain_computes` then go through the
opcode tables.
-/
import VitaSX2.Region.Guest.Emit

namespace VitaSX2.RegionIR

open R5900 (Cpu)
open StraightLine

/-! ### Words -/

@[simp] lemma bits32_lo_setWidth (x : BitVec 32) : (bits32 x).lo.setWidth 32 = x := by
  simp [bits32]

lemma setWidth_bits32 (x : BitVec 32) : bits (x.setWidth 64) = bits32 x := rfl

/-- The flag of a comparison. -/
lemma zeroExtend_bitsOfBool (condition : Bool) :
    bits32 ((bitsOfBool condition).lo.setWidth 32) = bits (R5900.flag condition) := by
  cases condition <;> rfl

lemma bitsOfBool_lo_ne (condition : Bool) : (bitsOfBool condition).lo ≠ 0 ↔ condition = true := by
  cases condition <;> decide

lemma immS_signExtend (word : BitVec 32) : (immS word).signExtend 64 = R5900.imm64 word := by
  apply BitVec.eq_of_toInt_eq
  rw [immS, R5900.imm64, R5900.imm, BitVec.toInt_signExtend_of_le (by decide),
    BitVec.toInt_signExtend_of_le (by decide), BitVec.toInt_signExtend_of_le (by decide)]

/-- The upper immediate. -/
lemma upper_immediate (word : BitVec 32) :
    (word.setWidth 16).setWidth 32 <<< 16 = word <<< 16 := by
  ext i hi
  simp only [BitVec.getElem_shiftLeft, BitVec.getElem_setWidth, BitVec.getLsbD_setWidth]
  grind

/-- The high word of a product does not depend on the kind of the shift. -/
lemma high_word (x : BitVec 64) : (x >>> 32).setWidth 32 = (x.sshiftRight 32).setWidth 32 := by
  ext i hi
  simp only [BitVec.getElem_setWidth, BitVec.getLsbD_ushiftRight, BitVec.getLsbD_sshiftRight]
  grind

/-- A mask of the low halfword does not see the sign. -/
lemma immediate_and (word mask : BitVec 32) (hmask : mask.toNat < 2 ^ 16) :
    (word.setWidth 16).setWidth 32 &&& mask = R5900.imm32 word &&& mask := by
  ext i hi
  simp only [BitVec.getElem_and, BitVec.getElem_setWidth, BitVec.getLsbD_setWidth, R5900.imm32,
    R5900.imm, BitVec.getElem_signExtend]
  by_cases hlt : i < 16
  · simp [hlt]
  · have hbit : mask[i] = false := by
      rw [BitVec.getElem_eq_testBit_toNat]
      exact Nat.testBit_lt_two_pow
        (hmask.trans_le (Nat.pow_le_pow_right (by decide) (not_lt.mp hlt)))
    simp [hbit]

/-! ### What an instruction leaves alone -/

/-- The address, the zero register and the memory are kept. -/
structure Keeps {μ : Type} (cpu cpu' : Cpu μ) : Prop where
  pc : cpu'.pc = cpu.pc
  zero : cpu'.gpr 0 = cpu.gpr 0
  memory : cpu'.memory = cpu.memory

section Keeps

variable {μ : Type} {cpu cpu' cpu'' : Cpu μ}

lemma Keeps.refl (cpu : Cpu μ) : Keeps cpu cpu := ⟨rfl, rfl, rfl⟩

lemma Keeps.trans (h : Keeps cpu cpu') (h' : Keeps cpu' cpu'') : Keeps cpu cpu'' :=
  ⟨h'.pc.trans h.pc, h'.zero.trans h.zero, h'.memory.trans h.memory⟩

lemma keeps_setReg (cpu : Cpu μ) {i : ℕ} (hi : i < 32) (hne : i ≠ 0) (value : U128) :
    Keeps cpu (cpu.setReg i value) := by
  refine ⟨rfl, Function.update_of_ne (fun h => hne ?_) _ _, rfl⟩
  have := congrArg Fin.val h
  rw [Fin.val_ofNat, Nat.mod_eq_of_lt hi] at this
  exact this.symm

lemma keeps_writeUq (cpu : Cpu μ) {i : ℕ} (hi : i < 32) (value : U128) :
    Keeps cpu (cpu.writeUq i value) := by
  unfold Cpu.writeUq
  split
  · exact Keeps.refl cpu
  · exact keeps_setReg cpu hi ‹_› value

lemma keeps_writeUd (cpu : Cpu μ) {i : ℕ} (hi : i < 32) (value : BitVec 64) :
    Keeps cpu (cpu.writeUd i value) := keeps_writeUq cpu hi _

lemma keeps_setHi (cpu : Cpu μ) (value : BitVec 64) : Keeps cpu (cpu.setHi value) :=
  ⟨rfl, rfl, rfl⟩

lemma keeps_setLo (cpu : Cpu μ) (value : BitVec 64) : Keeps cpu (cpu.setLo value) :=
  ⟨rfl, rfl, rfl⟩

lemma keeps_setProduct (cpu : Cpu μ) {word low high : BitVec 32} :
    Keeps cpu (R5900.setProduct word cpu low high) :=
  ((keeps_setLo cpu _).trans (keeps_setHi _ _)).trans
    (keeps_writeUd _ (Nat.mod_lt _ (by decide)) _)

lemma keeps_ite {condition : Prop} [Decidable condition] (h : Keeps cpu cpu')
    (h' : Keeps cpu cpu'') : Keeps cpu (if condition then cpu' else cpu'') := by
  split
  · exact h
  · exact h'

lemma writeUd_ud (cpu : Cpu μ) (i : ℕ) : cpu.writeUd i (cpu.ud i) = cpu := by
  unfold Cpu.writeUd
  split
  · rfl
  · exact congrArg (fun gpr => { cpu with gpr := gpr }) (Function.update_eq_self _ _)

lemma rd_lt (word : BitVec 32) : rd word < 32 := Nat.mod_lt _ (by decide)

lemma rt_lt (word : BitVec 32) : rt word < 32 := Nat.mod_lt _ (by decide)

/-- The registers are in a state map once the instruction is done. -/
def reaches (cpu : Cpu μ) (next : Option (Cpu μ)) (state : StateMap) : Facts U128 where
  holds n v := ∃ cpu', next = some cpu' ∧ Keeps cpu cpu' ∧ (regs state cpu').holds n v
  mono hn hv h := by
    obtain ⟨cpu', hnext, hkeeps, hregs⟩ := h
    exact ⟨cpu', hnext, hkeeps, (regs state cpu').mono hn hv hregs⟩

end Keeps

/-! ### Families of lowerings -/

section Families

variable {σ μ : Type} {float : FloatUnit} {program : Program} {options : InterpretOptions σ}
  {block : Block} {pc : BitVec 32} {F : Facts U128} {state : StateMap} {cpu : Cpu μ}
  {opcode : Opcode} {word : BitVec 32}

lemma Computes.reaches {m : Lower StateMap} {cpu' : Cpu μ} {next : Option (Cpu μ)}
    (h : Computes float program options block pc F m fun state' => regs state' cpu')
    (hnext : next = some cpu') (hkeeps : Keeps cpu cpu') :
    Computes float program options block pc F m (reaches cpu next) :=
  h.imp fun _ _ _ hF => ⟨cpu', hnext, hkeeps, hF.2⟩

lemma lowerBinary32_computes (h : Ready block pc state cpu F)
    {f : BitVec 32 → BitVec 32 → BitVec 32} (hplain : opcode.isPlain = true)
    (heval : ∀ v (node : Node), node.opcode = opcode →
      evaluate float program.vu0OverflowClamp v node =
        bits32 (f ((node.operand v 0).lo.setWidth 32) ((node.operand v 1).lo.setWidth 32))) :
    Computes float program options block pc F (Lower.lowerBinary32 opcode state word pc)
      fun state' => regs state' (cpu.writeSl (rd word) (f (cpu.ul (rs word)) (cpu.ul (rt word)))) :=
  (low32_computes h _).bind fun _ => (low32_computes h.inf _).bind fun _ =>
    (binary_computes h.inf.inf.live hplain (inf_le_of_left_le inf_le_right) inf_le_right
      fun v node hopcode hx hy => by
        rw [heval v node hopcode, hx, hy, bits32_lo_setWidth, bits32_lo_setWidth]).bind fun _ =>
      writeWord_computes h.inf.inf.inf inf_le_right

lemma lowerBinary64_computes (h : Ready block pc state cpu F)
    {f : BitVec 64 → BitVec 64 → BitVec 64} (hplain : opcode.isPlain = true)
    (heval : ∀ v (node : Node), node.opcode = opcode →
      evaluate float program.vu0OverflowClamp v node =
        bits (f (node.operand v 0).lo (node.operand v 1).lo)) :
    Computes float program options block pc F (Lower.lowerBinary64 opcode state word pc)
      fun state' => regs state' (cpu.writeUd (rd word) (f (cpu.ud (rs word)) (cpu.ud (rt word)))) :=
  (low64_computes h _).bind fun _ => (low64_computes h.inf _).bind fun _ =>
    (binary_computes h.inf.inf.live hplain (inf_le_of_left_le inf_le_right) inf_le_right
      fun v node hopcode hx hy => by rw [heval v node hopcode, hx, hy, bits_lo, bits_lo]).bind fun _ =>
      writeLow64_computes h.inf.inf.inf inf_le_right

lemma lowerImmediate64_computes (h : Ready block pc state cpu F) (immediate : BitVec 64)
    {f : BitVec 64 → BitVec 64 → BitVec 64} (hplain : opcode.isPlain = true)
    (heval : ∀ v (node : Node), node.opcode = opcode →
      evaluate float program.vu0OverflowClamp v node =
        bits (f (node.operand v 0).lo (node.operand v 1).lo)) :
    Computes float program options block pc F
      (Lower.lowerImmediate64 opcode immediate state word pc)
      fun state' => regs state' (cpu.writeUd (rt word) (f (cpu.ud (rs word)) immediate)) :=
  (low64_computes h _).bind fun _ => (constant64_computes h.inf.live _).bind fun _ =>
    (binary_computes h.inf.inf.live hplain (inf_le_of_left_le inf_le_right) inf_le_right
      fun v node hopcode hx hy => by rw [heval v node hopcode, hx, hy, bits_lo, bits_lo]).bind fun _ =>
      writeLow64_computes h.inf.inf.inf inf_le_right

lemma writeComparison_computes (h : Ready block pc state cpu F) {reg : ℕ} {left right : ValueId}
    {x y : U128} (hleft : F ≤ Facts.known left x) (hright : F ≤ Facts.known right y)
    {f : BitVec 64 → BitVec 64 → Bool} (hplain : opcode.isPlain = true)
    (heval : ∀ v (node : Node), node.opcode = opcode →
      evaluate float program.vu0OverflowClamp v node =
        bitsOfBool (f (node.operand v 0).lo (node.operand v 1).lo)) :
    Computes float program options block pc F
      (Lower.writeComparison opcode state reg left right pc)
      fun state' => regs state' (cpu.writeUd reg (R5900.flag (f x.lo y.lo))) :=
  (binary_computes h.live hplain hleft hright fun v node hopcode hx hy => by
      rw [heval v node hopcode, hx, hy]).bind fun _ =>
    (unary_computes h.inf.live rfl inf_le_right fun v node hopcode hx => by
        simp only [evaluate, hopcode, hx]
        exact zeroExtend_bitsOfBool _).bind fun _ =>
      writeLow64_computes h.inf.inf inf_le_right

lemma lowerShift32_computes (h : Ready block pc state cpu F)
    {f : BitVec 32 → ℕ → BitVec 32} (hplain : opcode.isPlain = true)
    (heval : ∀ v (node : Node), node.opcode = opcode →
      evaluate float program.vu0OverflowClamp v node =
        bits32 (f ((node.operand v 0).lo.setWidth 32) node.immediate)) :
    Computes float program options block pc F (Lower.lowerShift32 opcode state word pc)
      fun state' => regs state' (cpu.writeSl (rd word) (f (cpu.ul (rt word)) (sa word))) :=
  (low32_computes h _).bind fun _ =>
    (unaryImmediate_computes h.inf.live hplain inf_le_right fun v node hopcode hn hx => by
        rw [heval v node hopcode, hx, hn, bits32_lo_setWidth]).bind fun _ =>
      writeWord_computes h.inf.inf inf_le_right

lemma lowerShift32Variable_computes (h : Ready block pc state cpu F)
    {f : BitVec 32 → BitVec 32 → BitVec 32} (hplain : opcode.isPlain = true)
    (heval : ∀ v (node : Node), node.opcode = opcode →
      evaluate float program.vu0OverflowClamp v node =
        bits32 (f ((node.operand v 0).lo.setWidth 32) ((node.operand v 1).lo.setWidth 32))) :
    Computes float program options block pc F (Lower.lowerShift32Variable opcode state word pc)
      fun state' => regs state' (cpu.writeSl (rd word) (f (cpu.ul (rt word)) (cpu.ul (rs word)))) :=
  (low32_computes h _).bind fun _ => (low32_computes h.inf _).bind fun _ =>
    (binary_computes h.inf.inf.live hplain (inf_le_of_left_le inf_le_right) inf_le_right
      fun v node hopcode hx hy => by
        rw [heval v node hopcode, hx, hy, bits32_lo_setWidth, bits32_lo_setWidth]).bind fun _ =>
      writeWord_computes h.inf.inf.inf inf_le_right

lemma lowerShift64_computes (h : Ready block pc state cpu F) (amount : ℕ)
    {f : BitVec 64 → ℕ → BitVec 64} (hplain : opcode.isPlain = true)
    (heval : ∀ v (node : Node), node.opcode = opcode →
      evaluate float program.vu0OverflowClamp v node =
        bits (f (node.operand v 0).lo node.immediate)) :
    Computes float program options block pc F (Lower.lowerShift64 opcode amount state word pc)
      fun state' => regs state' (cpu.writeUd (rd word) (f (cpu.ud (rt word)) amount)) :=
  (low64_computes h _).bind fun _ =>
    (unaryImmediate_computes h.inf.live hplain inf_le_right fun v node hopcode hn hx => by
        rw [heval v node hopcode, hx, hn, bits_lo]).bind fun _ =>
      writeLow64_computes h.inf.inf inf_le_right

lemma lowerShift64Variable_computes (h : Ready block pc state cpu F)
    {f : BitVec 64 → BitVec 32 → BitVec 64} (hplain : opcode.isPlain = true)
    (heval : ∀ v (node : Node), node.opcode = opcode →
      evaluate float program.vu0OverflowClamp v node =
        bits (f (node.operand v 0).lo ((node.operand v 1).lo.setWidth 32))) :
    Computes float program options block pc F (Lower.lowerShift64Variable opcode state word pc)
      fun state' => regs state' (cpu.writeUd (rd word) (f (cpu.ud (rt word)) (cpu.ul (rs word)))) :=
  (low64_computes h _).bind fun _ => (low32_computes h.inf _).bind fun _ =>
    (binary_computes h.inf.inf.live hplain (inf_le_of_left_le inf_le_right) inf_le_right
      fun v node hopcode hx hy => by
        rw [heval v node hopcode, hx, hy, bits32_lo_setWidth, bits_lo]).bind fun _ =>
      writeLow64_computes h.inf.inf.inf inf_le_right

/-- A move that does not happen writes the register back. -/
lemma lowerConditionalMove_computes (h : Ready block pc state cpu F)
    {f : BitVec 64 → BitVec 64 → Bool} (hplain : opcode.isPlain = true)
    (heval : ∀ v (node : Node), node.opcode = opcode →
      evaluate float program.vu0OverflowClamp v node =
        bitsOfBool (f (node.operand v 0).lo (node.operand v 1).lo)) :
    Computes float program options block pc F (Lower.lowerConditionalMove opcode state word pc)
      fun state' => regs state'
        (if f (cpu.ud (rt word)) 0 then cpu.writeUd (rd word) (cpu.ud (rs word)) else cpu) := by
  have hselect : (if f (cpu.ud (rt word)) 0 then cpu.writeUd (rd word) (cpu.ud (rs word)) else cpu) =
      cpu.writeUd (rd word)
        (if f (cpu.ud (rt word)) 0 then cpu.ud (rs word) else cpu.ud (rd word)) := by
    split
    · rfl
    · exact (writeUd_ud cpu _).symm
  rw [hselect]
  refine (low64_computes h _).bind fun _ => (constant64_computes h.inf.live _).bind fun _ =>
    (binary_computes (w := bitsOfBool (f (cpu.ud (rt word)) 0)) h.inf.inf.live hplain
      (inf_le_of_left_le inf_le_right) inf_le_right fun v node hopcode hx hy => by
        rw [heval v node hopcode, hx, hy]; rfl).bind fun _ =>
    (low64_computes h.inf.inf.inf _).bind fun _ => (low64_computes h.inf.inf.inf.inf _).bind fun _ =>
    (ternary_computes (w := bits (if f (cpu.ud (rt word)) 0 then cpu.ud (rs word) else
        cpu.ud (rd word))) h.inf.inf.inf.inf.inf.live rfl
      (inf_le_of_left_le (inf_le_of_left_le inf_le_right)) (inf_le_of_left_le inf_le_right)
      inf_le_right fun v node hopcode hx hy hz => ?_).bind fun _ =>
    writeLow64_computes h.inf.inf.inf.inf.inf.inf inf_le_right
  simp only [evaluate, hopcode, hx, hy, hz, bitsOfBool_lo_ne, bits_lo]

/-- The two words of a product, into LO and HI and a register. -/
lemma writeProduct_computes (h : Ready block pc state cpu F) {low high : BitVec 32}
    {lowLane highLane : ValueId} (hlow : F ≤ Facts.known lowLane (bits (low.signExtend 64)))
    (hhigh : F ≤ Facts.known highLane (bits (high.signExtend 64))) :
    Computes float program options block pc F
      (do
        let state ← Lower.writeHiLoLow64 state false lowLane pc
        let state ← Lower.writeHiLoLow64 state true highLane pc
        Lower.writeLow64 state (rd word) lowLane pc)
      fun state' => regs state' (R5900.setProduct word cpu low high) :=
  (writeHiLoLow64_computes h false hlow).bind fun _ =>
    (writeHiLoLow64_computes (h.inf.next inf_le_right) true (inf_le_of_left_le hhigh)).bind
      fun _ => writeLow64_computes ((h.inf.next inf_le_right).inf.next inf_le_right)
        (inf_le_of_left_le (inf_le_of_left_le hlow))

lemma lowerIntegerMultiply_computes (h : Ready block pc state cpu F) {signed : Bool}
    {product : BitVec 64}
    (heval : ∀ v (node : Node),
      node.opcode = (if signed then .multiplySigned32 else .multiplyUnsigned32) →
      node.operand v 0 = bits32 (cpu.ul (rs word)) → node.operand v 1 = bits32 (cpu.ul (rt word)) →
        evaluate float program.vu0OverflowClamp v node = bits product) :
    Computes float program options block pc F (Lower.lowerIntegerMultiply state word pc signed)
      fun state' => regs state'
        (R5900.setProduct word cpu (product.setWidth 32) ((product >>> 32).setWidth 32)) := by
  refine (low32_computes h _).bind fun _ => (low32_computes h.inf _).bind fun _ =>
    (binary_computes h.inf.inf.live (by cases signed <;> rfl) (inf_le_of_left_le inf_le_right)
      inf_le_right heval).bind fun _ =>
    (unary_computes (w := bits32 (product.setWidth 32)) h.inf.inf.inf.live rfl inf_le_right
      fun v node hopcode hx => by simp only [evaluate, hopcode, hx, bits_lo]).bind fun _ =>
    (unaryImmediate_computes (w := bits (product >>> 32)) h.inf.inf.inf.inf.live rfl
      (inf_le_of_left_le inf_le_right)
      fun v node hopcode hn hx => by simp only [evaluate, hopcode, hx, hn, bits_lo]).bind fun _ =>
    (unary_computes (w := bits32 ((product >>> 32).setWidth 32)) h.inf.inf.inf.inf.inf.live rfl
      inf_le_right fun v node hopcode hx => by simp only [evaluate, hopcode, hx, bits_lo]).bind
        fun _ =>
    (unary_computes (w := bits ((product.setWidth 32).signExtend 64))
      h.inf.inf.inf.inf.inf.inf.live rfl
      (inf_le_of_left_le (inf_le_of_left_le inf_le_right)) fun v node hopcode hx => by
        simp only [evaluate, hopcode, hx, bits32_lo_setWidth]).bind fun lowLane =>
    (unary_computes (w := bits (((product >>> 32).setWidth 32).signExtend 64))
      h.inf.inf.inf.inf.inf.inf.inf.live rfl (inf_le_of_left_le inf_le_right)
      fun v node hopcode hx => by
        simp only [evaluate, hopcode, hx, bits32_lo_setWidth]).bind fun highLane => ?_
  exact writeProduct_computes h.inf.inf.inf.inf.inf.inf.inf.inf
    (inf_le_of_left_le inf_le_right) inf_le_right

lemma lowerAddiu_computes (h : Ready block pc state cpu F) :
    Computes float program options block pc F (Lower.lowerAddiu state word pc)
      fun state' => regs state' (R5900.ADDIU word cpu) :=
  (low32_computes h _).bind fun _ => (constant32_computes h.inf.live _).bind fun _ =>
    (binary_computes (w := bits32 (cpu.ul (rs word) + immS word)) h.inf.inf.live rfl
      (inf_le_of_left_le inf_le_right) inf_le_right fun v node hop hx hy => by
        simp only [evaluate, hop, hx, hy, bits32_lo_setWidth]).bind fun _ =>
      writeWord_computes h.inf.inf.inf inf_le_right

lemma lowerSetLessImmediate_computes (h : Ready block pc state cpu F)
    {f : BitVec 64 → BitVec 64 → Bool} (hplain : opcode.isPlain = true)
    (heval : ∀ v (node : Node), node.opcode = opcode →
      evaluate float program.vu0OverflowClamp v node =
        bitsOfBool (f (node.operand v 0).lo (node.operand v 1).lo)) :
    Computes float program options block pc F (Lower.lowerSetLessImmediate opcode state word pc)
      fun state' => regs state'
        (cpu.writeUd (rt word) (R5900.flag (f (cpu.ud (rs word)) (R5900.imm64 word)))) := by
  rw [← immS_signExtend]
  exact (low64_computes h _).bind fun _ => (constant64_computes h.inf.live _).bind fun _ =>
    writeComparison_computes h.inf.inf (inf_le_of_left_le inf_le_right) inf_le_right hplain heval

lemma lowerLui_computes (h : Ready block pc state cpu F) :
    Computes float program options block pc F (Lower.lowerLui state word pc)
      fun state' => regs state' (R5900.LUI word cpu) := by
  rw [R5900.LUI, ← upper_immediate]
  exact (constant32_computes h.live _).bind fun _ => writeWord_computes h.inf inf_le_right

/-- MTSAB and MTSAH; the immediate is masked before it is extended. -/
lemma lowerMoveToSa_computes (h : Ready block pc state cpu F)
    (hrt : rt word = 0x18 ∨ rt word = 0x19) :
    Computes float program options block pc F (Lower.lowerMoveToSa state word pc)
      fun state' => regs state'
        (if rt word = 0x18 then R5900.MTSAB word cpu else R5900.MTSAH word cpu) := by
  unfold Lower.lowerMoveToSa
  dsimp only
  generalize hmask : (if rt word = 0x18 then 0x0f#32 else 0x07#32) = mask
  have hvalue : (word.setWidth 16 |>.setWidth 32 |>.and mask) = R5900.imm32 word &&& mask := by
    refine immediate_and word mask ?_
    rw [← hmask]
    split <;> decide
  rw [hvalue]
  refine (low32_computes h _).bind fun _ => (constant32_computes h.inf.live _).bind fun _ =>
    (binary_computes (w := bits32 (cpu.ul (rs word) &&& mask)) h.inf.inf.live rfl
      (inf_le_of_left_le inf_le_right) inf_le_right fun v node hop hx hy => by
        simp only [evaluate, hop, hx, hy, bits32_lo_setWidth]).bind fun _ =>
    (constant32_computes h.inf.inf.inf.live _).bind fun _ =>
    (binary_computes (w := bits32 ((cpu.ul (rs word) &&& mask) ^^^ (R5900.imm32 word &&& mask)))
      h.inf.inf.inf.inf.live rfl (inf_le_of_left_le inf_le_right) inf_le_right
      fun v node hop hx hy => by
        simp only [evaluate, hop, hx, hy, bits32_lo_setWidth]).bind fun _ => ?_
  rcases hrt with hrt | hrt <;> rw [hrt] at hmask ⊢ <;> subst hmask
  · exact writeSa_computes h.inf.inf.inf.inf.inf inf_le_right
  · exact (unaryImmediate_computes
      (w := bits32 (((cpu.ul (rs word) &&& 0x7#32) ^^^ (R5900.imm32 word &&& 0x7#32)) <<< 1))
      h.inf.inf.inf.inf.inf.live rfl inf_le_right fun v node hop hn hx => by
        simp only [evaluate, hop, hn, hx, bits32_lo_setWidth]
        rfl).bind fun _ => writeSa_computes h.inf.inf.inf.inf.inf.inf inf_le_right

end Families

/-! ### The opcode tables -/

section Tables

variable {σ μ : Type} {float : FloatUnit} {program : Program} {options : InterpretOptions σ}
  {block : Block} {pc : BitVec 32} {F : Facts U128} {state : StateMap} {cpu : Cpu μ}
  {word : BitVec 32}

lemma lowerSpecial_computes (h : Ready block pc state cpu F) :
    Computes float program options block pc F (Lower.lowerSpecial state word pc)
      (reaches cpu (R5900.tblSpecial word cpu)) := by
  have hkeeps : ∀ value, Keeps cpu (cpu.writeUd (rd word) value) := keeps_writeUd cpu (rd_lt word)
  unfold Lower.lowerSpecial
  split <;> rename_i hfunct <;> unfold funct at hfunct <;>
    simp only [R5900.tblSpecial, hfunct]
  · exact (lowerShift32_computes h (f := fun x n => x <<< n) rfl
      fun v node hop => by simp only [evaluate, hop]).reaches rfl (hkeeps _)
  · exact (lowerShift32_computes h (f := fun x n => x >>> n) rfl
      fun v node hop => by simp only [evaluate, hop]).reaches rfl (hkeeps _)
  · exact (lowerShift32_computes h (f := fun x n => x.sshiftRight n) rfl
      fun v node hop => by simp only [evaluate, hop]).reaches rfl (hkeeps _)
  · exact (lowerShift32Variable_computes h (f := fun x y => x <<< (y.toNat % 32)) rfl
      fun v node hop => by simp only [evaluate, hop]).reaches rfl (hkeeps _)
  · exact (lowerShift32Variable_computes h (f := fun x y => x >>> (y.toNat % 32)) rfl
      fun v node hop => by simp only [evaluate, hop]).reaches rfl (hkeeps _)
  · exact (lowerShift32Variable_computes h (f := fun x y => x.sshiftRight (y.toNat % 32)) rfl
      fun v node hop => by simp only [evaluate, hop]).reaches rfl (hkeeps _)
  · exact (lowerShift64Variable_computes h (f := fun x y => x <<< (y.toNat % 64)) rfl
      fun v node hop => by simp only [evaluate, hop]).reaches rfl (hkeeps _)
  · exact (lowerShift64Variable_computes h (f := fun x y => x >>> (y.toNat % 64)) rfl
      fun v node hop => by simp only [evaluate, hop]).reaches rfl (hkeeps _)
  · exact (lowerShift64Variable_computes h (f := fun x y => x.sshiftRight (y.toNat % 64)) rfl
      fun v node hop => by simp only [evaluate, hop]).reaches rfl (hkeeps _)
  · exact (lowerConditionalMove_computes h (f := fun x y => x == y) rfl
      fun v node hop => by simp only [evaluate, hop]).reaches
        (congrArg some (if_congr beq_iff_eq.symm rfl rfl)) (keeps_ite (hkeeps _) (Keeps.refl cpu))
  · exact (lowerConditionalMove_computes h (f := fun x y => x != y) rfl
      fun v node hop => by simp only [evaluate, hop]).reaches
        (congrArg some (if_congr bne_iff_ne.symm rfl rfl)) (keeps_ite (hkeeps _) (Keeps.refl cpu))
  · refine ((unary_computes (w := bits cpu.hi.lo) h.live rfl
      (known_of_regs h.regs (show registerSlot cpu .hi = _ from rfl)) fun v node hop hx => by
        simp only [evaluate, hop, hx]).bind fun _ =>
      writeLow64_computes h.inf inf_le_right).reaches rfl (hkeeps _)
  · refine ((unary_computes (w := bits cpu.lo.lo) h.live rfl
      (known_of_regs h.regs (show registerSlot cpu .lo = _ from rfl)) fun v node hop hx => by
        simp only [evaluate, hop, hx]).bind fun _ =>
      writeLow64_computes h.inf inf_le_right).reaches rfl (hkeeps _)
  · exact ((low64_computes h _).bind fun _ =>
      writeHiLoLow64_computes h.inf true inf_le_right).reaches rfl (keeps_setHi cpu _)
  · exact ((low64_computes h _).bind fun _ =>
      writeHiLoLow64_computes h.inf false inf_le_right).reaches rfl (keeps_setLo cpu _)
  · refine (lowerIntegerMultiply_computes h fun v node hop hx hy => ?_).reaches
      (congrArg (fun high => some (R5900.setProduct word cpu _ high)) (high_word _).symm)
      (keeps_setProduct cpu)
    simp only [evaluate, show node.opcode = .multiplySigned32 from hop, hx, hy,
      bits32_lo_setWidth]
    rfl
  · refine (lowerIntegerMultiply_computes h fun v node hop hx hy => ?_).reaches rfl
      (keeps_setProduct cpu)
    simp only [evaluate, show node.opcode = .multiplyUnsigned32 from hop, hx, hy,
      bits32_lo_setWidth]
    rfl
  · refine ((unary_computes (w := bits (cpu.sa.setWidth 64)) h.live rfl
      (known_of_regs h.regs (show registerSlot cpu .sa = _ from rfl)) fun v node hop hx => by
        simp only [evaluate, hop, hx, bits32_lo_setWidth, setWidth_bits32]).bind fun _ =>
      writeLow64_computes h.inf inf_le_right).reaches rfl (hkeeps _)
  · exact ((low32_computes h _).bind fun _ =>
      writeSa_computes h.inf inf_le_right).reaches rfl ⟨rfl, rfl, rfl⟩
  · exact (lowerBinary32_computes h (f := fun x y => x + y) rfl
      fun v node hop => by simp only [evaluate, hop]).reaches rfl (hkeeps _)
  · exact (lowerBinary32_computes h (f := fun x y => x - y) rfl
      fun v node hop => by simp only [evaluate, hop]).reaches rfl (hkeeps _)
  · exact (lowerBinary64_computes h (f := fun x y => x + y) rfl
      fun v node hop => by simp only [evaluate, hop]).reaches rfl (hkeeps _)
  · exact (lowerBinary64_computes h (f := fun x y => x - y) rfl
      fun v node hop => by simp only [evaluate, hop]).reaches rfl (hkeeps _)
  · exact (lowerBinary64_computes h (f := fun x y => x &&& y) rfl
      fun v node hop => by simp only [evaluate, hop]).reaches rfl (hkeeps _)
  · exact (lowerBinary64_computes h (f := fun x y => x ||| y) rfl
      fun v node hop => by simp only [evaluate, hop]).reaches rfl (hkeeps _)
  · exact (lowerBinary64_computes h (f := fun x y => x ^^^ y) rfl
      fun v node hop => by simp only [evaluate, hop]).reaches rfl (hkeeps _)
  · exact (lowerBinary64_computes h (f := fun x y => ~~~(x ||| y)) rfl
      fun v node hop => by simp only [evaluate, hop]).reaches rfl (hkeeps _)
  · exact ((low64_computes h _).bind fun _ => (low64_computes h.inf _).bind fun _ =>
      writeComparison_computes (f := fun x y => x.slt y) h.inf.inf (inf_le_of_left_le inf_le_right)
        inf_le_right rfl fun v node hop => by simp only [evaluate, hop]).reaches rfl (hkeeps _)
  · exact ((low64_computes h _).bind fun _ => (low64_computes h.inf _).bind fun _ =>
      writeComparison_computes (f := fun x y => x.ult y) h.inf.inf (inf_le_of_left_le inf_le_right)
        inf_le_right rfl fun v node hop => by simp only [evaluate, hop]).reaches rfl (hkeeps _)
  · exact (lowerShift64_computes h _ (f := fun x n => x <<< n) rfl
      fun v node hop => by simp only [evaluate, hop]).reaches rfl (hkeeps _)
  · exact (lowerShift64_computes h _ (f := fun x n => x >>> n) rfl
      fun v node hop => by simp only [evaluate, hop]).reaches rfl (hkeeps _)
  · exact (lowerShift64_computes h _ (f := fun x n => x.sshiftRight n) rfl
      fun v node hop => by simp only [evaluate, hop]).reaches rfl (hkeeps _)
  · exact (lowerShift64_computes h _ (f := fun x n => x <<< n) rfl
      fun v node hop => by simp only [evaluate, hop]).reaches rfl (hkeeps _)
  · exact (lowerShift64_computes h _ (f := fun x n => x >>> n) rfl
      fun v node hop => by simp only [evaluate, hop]).reaches rfl (hkeeps _)
  · exact (lowerShift64_computes h _ (f := fun x n => x.sshiftRight n) rfl
      fun v node hop => by simp only [evaluate, hop]).reaches rfl (hkeeps _)
  · exact Computes.fail

end Tables

end VitaSX2.RegionIR
