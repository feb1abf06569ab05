/-
Branches, links and jumps: what the interpreter does on them, and what the nodes of
their lowering compute.
-/
import VitaSX2.Region.Guest.LowerNonBranch
import VitaSX2.Region.IR.Lift

namespace VitaSX2.RegionIR

open R5900 (Cpu GuestMemory)
open StraightLine

/-! ### Steps of the interpreter -/

section Guest

variable {μ : Type} {guest : GuestMemory μ} {fetch : BitVec 32 → Option (BitVec 32)} {cpu : Cpu μ}
  {word : BitVec 32}

/-- `pc` at another address. -/
def withPc (cpu : Cpu μ) (pc : BitVec 32) : Cpu μ := { cpu with pc := pc }

/-- A word that is lowered by `LowerNonBranch` is no branch. -/
lemma unit_of_lowered {lift : LiftOptions} {state : StateMap} {pc : BitVec 32}
    {restart : Lower.Restart} {b : Builder} {r : StateMap × Builder}
    (h : Lower.lowerNonBranch lift state word pc restart b = some r)
    (hfetch : fetch cpu.pc = some word) :
    R5900.unit guest fetch cpu = R5900.tblStandard guest word (withPc cpu (cpu.pc + 4)) := by
  have hfail : ∀ {n : ℕ}, primary word = n → n ∈ [2, 3, 4, 5, 6, 7, 0x14, 0x15, 0x16, 0x17] →
      False := by
    intro n hprimary hn
    simp only [List.mem_cons, List.not_mem_nil, or_false] at hn
    rcases hn with rfl | rfl | rfl | rfl | rfl | rfl | rfl | rfl | rfl | rfl <;>
      simp only [Lower.lowerNonBranch, decodeNoEffect, decodeMemoryAccess, hprimary] at h <;>
      cases h
  unfold R5900.unit
  rw [hfetch, Option.bind_some]
  dsimp only
  split <;> rename_i hprimary <;> try exact (hfail hprimary (by decide)).elim
  · unfold R5900.tblJump
    split <;> rename_i hfunct
    case h_3 => rfl
    all_goals
      simp only [Lower.lowerNonBranch, decodeNoEffect, decodeMemoryAccess,
        show primary word = _ from hprimary, show funct word = _ from hfunct,
        Lower.lowerSpecial] at h
      cases h
  · unfold R5900.tblRegImm
    split <;> rename_i hrt
    case h_9 => rfl
    all_goals
      simp only [Lower.lowerNonBranch, decodeNoEffect, decodeMemoryAccess,
        show primary word = _ from hprimary, show rt word = _ from hrt] at h
      cases h
  · rfl

/-- Whether a conditional branch is taken. -/
def branchTaken (word : BitVec 32) (cpu : Cpu μ) : Bool :=
  let left := cpu.ud (rs word)
  let right := cpu.ud (rt word)
  match primary word with
  | 0x01 => if rt word % 2 = 0 then left.slt 0 else BitVec.sle 0 left
  | 0x04 | 0x14 => left == right
  | 0x05 | 0x15 => left != right
  | 0x06 | 0x16 => left.sle 0
  | _ => BitVec.slt 0 left

/-- The registers behind the link of a control instruction. -/
def linked (word pc : BitVec 32) (cpu : Cpu μ) : Cpu μ :=
  if isLinkedControl word ∧ controlLinkRegister word ≠ 0 then
    cpu.setUd (controlLinkRegister word) ((pc + 8).setWidth 64)
  else cpu

lemma ud_setUd_of_ne {i j : ℕ} (hi : i < 32) (hj : j < 32) (h : i ≠ j) (cpu : Cpu μ)
    (value : BitVec 64) : (cpu.setUd j value).ud i = cpu.ud i := by
  refine congrArg U128.lo (Function.update_of_ne (fun heq => h ?_) _ _)
  have := congrArg Fin.val heq
  rwa [Fin.val_ofNat, Fin.val_ofNat, Nat.mod_eq_of_lt hi, Nat.mod_eq_of_lt hj] at this

lemma setLink_withPc (cpu : Cpu μ) (i : ℕ) :
    (withPc cpu (cpu.pc + 4)).setLink i =
      withPc (cpu.setUd i ((cpu.pc + 8).setWidth 64)) (cpu.pc + 4) := by
  rw [Cpu.setLink, show (withPc cpu (cpu.pc + 4)).pc + 4 = cpu.pc + 8 from by
    rw [withPc]; exact BitVec.add_assoc cpu.pc 4 4]
  rfl

/-- A conditional branch that is no REGIMM. -/
lemma unit_branch_of_primary (hprimary : primary word ∈ [4, 5, 6, 7, 0x14, 0x15, 0x16, 0x17])
    (hfetch : fetch cpu.pc = some word) :
    R5900.unit guest fetch cpu = R5900.branch guest fetch word (branchTaken word cpu)
      (isLikelyBranch word) (withPc (linked word cpu.pc cpu) (cpu.pc + 4)) := by
  simp only [List.mem_cons, List.not_mem_nil, or_false] at hprimary
  unfold R5900.unit
  rw [hfetch, Option.bind_some]
  rcases hprimary with h | h | h | h | h | h | h | h <;>
    simp only [show word.toNat / 2 ^ 26 = _ from h, branchTaken, h] <;>
    simp [linked, isLinkedControl, isLikelyBranch, isConditionalBranch, isCop1Branch, h] <;> rfl

/-- A REGIMM branch without a link. -/
lemma unit_regimm (hprimary : primary word = 1) (hrt : rt word ∈ [0, 1, 2, 3])
    (hfetch : fetch cpu.pc = some word) :
    R5900.unit guest fetch cpu = R5900.branch guest fetch word (branchTaken word cpu)
      (isLikelyBranch word) (withPc (linked word cpu.pc cpu) (cpu.pc + 4)) := by
  simp only [List.mem_cons, List.not_mem_nil, or_false] at hrt
  unfold R5900.unit
  rw [hfetch, Option.bind_some]
  simp only [show word.toNat / 2 ^ 26 = _ from hprimary, R5900.tblRegImm, branchTaken, hprimary]
  rcases hrt with h | h | h | h <;> simp only [show R5900.rt word = _ from h, h] <;>
    simp [linked, isLinkedControl, isLikelyBranch, isConditionalBranch, isCop1Branch, hprimary,
      h] <;> rfl

/-- A REGIMM branch with a link tests another register than the one it links. -/
lemma unit_regimm_link (hprimary : primary word = 1) (hrt : rt word ∈ [0x10, 0x11, 0x12, 0x13])
    (hrs : rs word ≠ 31) (hfetch : fetch cpu.pc = some word) :
    R5900.unit guest fetch cpu = R5900.branch guest fetch word (branchTaken word cpu)
      (isLikelyBranch word) (withPc (linked word cpu.pc cpu) (cpu.pc + 4)) := by
  simp only [List.mem_cons, List.not_mem_nil, or_false] at hrt
  have hlink : controlLinkRegister word = 31 := by
    simp [controlLinkRegister, isRegisterJump, hprimary]
  have htest : ∀ cpu' : Cpu μ, (cpu'.setLink 31).ud (R5900.rs word) = cpu'.ud (R5900.rs word) :=
    fun cpu' => ud_setUd_of_ne (Nat.mod_lt _ (by decide)) (by decide) hrs cpu' _
  unfold R5900.unit
  rw [hfetch, Option.bind_some]
  simp only [show word.toNat / 2 ^ 26 = _ from hprimary, R5900.tblRegImm, branchTaken, hprimary,
    htest]
  have hset := setLink_withPc cpu 31
  unfold withPc at hset
  rcases hrt with h | h | h | h <;>
    simp only [show R5900.rt word = _ from h, h, hset, linked, hlink] <;>
    simp [isLinkedControl, isLikelyBranch, isConditionalBranch, isCop1Branch, hprimary, h,
      beq_eq_false_iff_ne.mpr hrs] <;> rfl

/-- A conditional branch links before its delay slot, and tests another register. -/
lemma unit_branch (hbranch : isConditionalBranch word = true) (hinteger : primary word ≠ 0x11)
    (hfetch : fetch cpu.pc = some word) :
    R5900.unit guest fetch cpu = R5900.branch guest fetch word (branchTaken word cpu)
      (isLikelyBranch word) (withPc (linked word cpu.pc cpu) (cpu.pc + 4)) := by
  simp only [isConditionalBranch, isCop1Branch, beq_eq_false_iff_ne.mpr hinteger, Bool.false_and,
    Bool.false_or] at hbranch
  split at hbranch
  next hprimary =>
    simp only [Bool.and_eq_true, Bool.or_eq_true, decide_eq_true_eq, Bool.not_eq_true',
      Bool.and_eq_false_iff, decide_eq_false_iff_not, beq_eq_false_iff_ne] at hbranch
    obtain ⟨hrt | hrt, hrs⟩ := hbranch
    · refine unit_regimm hprimary ?_ hfetch
      simp only [List.mem_cons, List.not_mem_nil, or_false]
      omega
    · refine unit_regimm_link hprimary ?_ (hrs.resolve_left (not_not.mpr hrt.1)) hfetch
      simp only [List.mem_cons, List.not_mem_nil, or_false]
      omega
  all_goals first
    | (refine unit_branch_of_primary ?_ hfetch; rename_i h; rw [h]; decide)
    | cases hbranch

lemma jumpTarget_eq (pc word : BitVec 32) (cpu : Cpu μ) (hpc : cpu.pc = pc + 4) :
    R5900.jumpTarget word cpu = jumpTarget pc word := by
  have hdisjoint : (word &&& 0x03ffffff#32) <<< 2 &&& (cpu.pc &&& 0xf0000000#32) = 0 := by
    calc (word &&& 0x03ffffff#32) <<< 2 &&& (cpu.pc &&& 0xf0000000#32)
      _ = (word <<< 2 &&& cpu.pc) &&& (0x03ffffff#32 <<< 2 &&& 0xf0000000#32) := by
        rw [BitVec.shiftLeft_and_distrib]
        ac_rfl
      _ = 0 := BitVec.and_zero
  rw [R5900.jumpTarget, BitVec.add_eq_or_of_and_eq_zero _ _ hdisjoint, jumpTarget, hpc,
    BitVec.or_comm]
  rfl

lemma branchTarget_eq (pc word : BitVec 32) (cpu : Cpu μ) (hpc : cpu.pc = pc + 4) :
    R5900.branchTarget word cpu = branchTarget pc word := by
  rw [R5900.branchTarget, hpc, BitVec.add_comm]
  rfl

/-- J and JAL. -/
lemma unit_staticJump (hjump : isStaticJump word = true) (hfetch : fetch cpu.pc = some word) :
    R5900.unit guest fetch cpu = R5900.doBranch guest fetch (jumpTarget cpu.pc word)
      (withPc (linked word cpu.pc cpu) (cpu.pc + 4)) := by
  have htarget := jumpTarget_eq cpu.pc word (withPc cpu (cpu.pc + 4)) rfl
  have hset := setLink_withPc cpu 31
  simp only [isStaticJump, Bool.or_eq_true, beq_iff_eq] at hjump
  unfold R5900.unit
  rw [hfetch, Option.bind_some]
  unfold withPc at htarget hset
  rcases hjump with h | h <;>
    simp only [show word.toNat / 2 ^ 26 = _ from h, htarget, hset, linked, isLinkedControl, h,
      controlLinkRegister, isRegisterJump] <;> rfl

/-- JR and JALR. -/
lemma unit_registerJump (hjump : isRegisterJump word = true) (hfetch : fetch cpu.pc = some word) :
    R5900.unit guest fetch cpu = R5900.doBranch guest fetch (cpu.ul (rs word))
      (withPc (linked word cpu.pc cpu) (cpu.pc + 4)) := by
  have hset := setLink_withPc cpu (rd word)
  have hlink : controlLinkRegister word = rd word := if_pos hjump
  simp only [isRegisterJump, Bool.and_eq_true, Bool.or_eq_true, beq_iff_eq] at hjump
  obtain ⟨hprimary, hfunct⟩ := hjump
  unfold R5900.unit
  rw [hfetch, Option.bind_some]
  simp only [show word.toNat / 2 ^ 26 = _ from hprimary, R5900.tblJump, linked, hlink]
  unfold withPc at hset ⊢
  rcases hfunct with h | h <;> simp only [show word.toNat % 64 = _ from h, isLinkedControl,
    hprimary, h]
  · rfl
  · by_cases hrd : rd word = 0
    · simp only [show R5900.rd word = 0 from hrd, hrd]
      rfl
    · simp only [show R5900.rd word = rd word from rfl, if_neg hrd, hset]
      rw [if_pos (by simp [hrd])]
      rfl

end Guest

/-! ### Lowerings -/

section Lowerings

variable {σ μ : Type} {float : FloatUnit} {program : Program} {options : InterpretOptions σ}
  {block : Block} {pc : BitVec 32} {F : Facts U128} {state : StateMap} {cpu : Cpu μ}
  {word : BitVec 32}

lemma lowerBranchCondition_computes (h : Ready block pc state cpu F) :
    Computes float program options block pc F (Lower.lowerBranchCondition state word pc)
      fun id => Facts.known id (bitsOfBool (branchTaken word cpu)) := by
  unfold Lower.lowerBranchCondition
  refine (low64_computes h _).bind fun left => ?_
  have hprimary : ∀ n, (if 0x14 ≤ primary word ∧ primary word ≤ 0x17 then primary word - 0x10
      else primary word) = n → primary word = n ∨ (primary word = n + 0x10 ∧ 4 ≤ n ∧ n ≤ 7) := by
    intro n hn
    split at hn <;> omega
  split <;> rename_i hencoded
  · have hone : primary word = 1 := by have := hprimary _ hencoded; omega
    refine unary_computes h.inf.live (by split <;> rfl) inf_le_right fun v node hop hx => ?_
    by_cases heven : rt word % 2 = 0
    · simp only [evaluate, show node.opcode = .compareSignedLessZero64 from
        hop.trans (if_pos heven), hx, branchTaken, hone, heven]
      rfl
    · simp only [evaluate, show node.opcode = .compareSignedGreaterEqualZero64 from
        hop.trans (if_neg heven), hx, branchTaken, hone, heven]
      rfl
  · refine (low64_computes h.inf _).bind fun right =>
      binary_computes h.inf.inf.live rfl (inf_le_of_left_le inf_le_right) inf_le_right
        fun v node hop hx hy => ?_
    simp only [evaluate, hop, hx, hy, branchTaken]
    rcases hprimary _ hencoded with hp | ⟨hp, -⟩ <;> simp only [hp] <;> rfl
  · refine (low64_computes h.inf _).bind fun right =>
      binary_computes h.inf.inf.live rfl (inf_le_of_left_le inf_le_right) inf_le_right
        fun v node hop hx hy => ?_
    simp only [evaluate, hop, hx, hy, branchTaken]
    rcases hprimary _ hencoded with hp | ⟨hp, -⟩ <;> simp only [hp] <;> rfl
  · refine unary_computes h.inf.live rfl inf_le_right fun v node hop hx => ?_
    simp only [evaluate, hop, hx, branchTaken]
    rcases hprimary _ hencoded with hp | ⟨hp, -⟩ <;> simp only [hp] <;> rfl
  · refine unary_computes h.inf.live rfl inf_le_right fun v node hop hx => ?_
    simp only [evaluate, hop, hx, branchTaken]
    rcases hprimary _ hencoded with hp | ⟨hp, -⟩ <;> simp only [hp] <;> rfl
  · exact Computes.fail

lemma lowerLink_computes (h : Ready block pc state cpu F) :
    Computes float program options block pc F (LiftContext.lowerLink state word pc) fun state' =>
      regs state' (linked word pc cpu) := by
  unfold LiftContext.lowerLink linked
  split
  next hlink =>
    have hwrite : cpu.setUd (controlLinkRegister word) ((pc + 8).setWidth 64) =
        cpu.writeUd (controlLinkRegister word) (bits ((pc + 8).setWidth 64)).lo :=
      (if_neg hlink.2).symm
    rw [hwrite]
    exact (constant64_computes h.live _).bind fun _ => writeLow64_computes h.inf inf_le_right
  next => exact Computes.pure h.regs

lemma advanceCycles_computes (h : Ready block pc state cpu F) (cycles : ℕ) :
    Computes float program options block pc F (Lower.advanceCycles state cycles pc) fun state' =>
      regs state' cpu := by
  unfold Lower.advanceCycles
  split
  · exact Computes.pure h.regs
  · refine (addNode_shows (G := fun _ => F) h.live rfl fun n v hF => (holds_store hF _).1).bind
      fun id => Computes.pure (regs_update_other h.inf.regs ?_)
    rintro slot ⟨⟩
    rfl

lemma makeTransfer_computes (hlive : F ≤ live block pc) (hregs : F ≤ regs state cpu)
    {blockIndices : BitVec 32 → Option ℕ} {targetPc : BitVec 32} (hpc : targetPc = cpu.pc)
    (reason : ExitReason) (check : Bool) :
    Computes float program options block pc F
      (Lower.makeTransfer blockIndices state targetPc reason pc check)
      fun transfer => publishes transfer cpu :=
  (constantAddress_computes hlive _).bind fun _ =>
    Computes.pure (le_inf (inf_le_of_left_le hregs) (hpc ▸ inf_le_right))

end Lowerings

end VitaSX2.RegionIR
