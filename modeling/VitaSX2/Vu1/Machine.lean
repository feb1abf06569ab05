/-
The reference step of VU1 (`ExecuteUniversalReferenceStepImpl`): one pair is
executed, then a branch whose delay slot is over is taken, then a program whose
E-bit delay is over is finished.

The floating-point data, the memory and the flags are an arbitrary type with
arbitrary operations.  The integer registers, the program counter and the two
countdowns are as in the source.
-/
import VitaSX2.Vu1.PairPlan

namespace VitaSX2.Vu1

/-- What a pair does outside the integer registers, and what its lower
instruction reads from there. -/
structure Semantics (D : Type) where
  /-- The data after the pair. -/
  data : D → ViFile → PairPlan → D
  /-- The value that the lower instruction loads into an integer register. -/
  loaded : D → ViFile → PairPlan → BitVec 16
  /-- `VIRegNumber` and `VIOldValue` while `VIBackupCycles` runs and the microcode
  is not assumed to be scheduled. -/
  viBackup : D → ViFile → PairPlan → Option (Fin 16 × BitVec 16)

/-- The part of `VURegs` that a step reads. -/
@[ext]
structure Vu (D : Type) where
  vi : ViFile
  data : D
  tpc : ℕ
  branch : ℕ := 0
  branchpc : ℕ := 0
  delaybranchpc : ℕ := 0
  takedelaybranch : Bool := false
  ebit : ℕ := 0

variable {D : Type}

/-- `ReadViBranchOperand`. -/
def readViBranchOperand (backup : Option (Fin 16 × BitVec 16)) (vi : ViFile) (reg : Fin 16) :
    BitVec 16 :=
  match backup with
  | some (number, old) => if number = reg then old else vi reg
  | none => vi reg

/-- The condition of an immediate branch; the unconditional ones always hold. -/
def branchCondition (read : Fin 16 → BitVec 16) (code : BitVec 32) : LowerKind → Bool
  | .ibeq => read (viIt code) == read (viIs code)
  | .ibne => read (viIt code) != read (viIs code)
  | .ibltz => (read (viIs code)).slt 0
  | .ibgtz => (0 : BitVec 16).slt (read (viIs code))
  | .iblez => (read (viIs code)).sle 0
  | .ibgez => (0 : BitVec 16).sle (read (viIs code))
  | _ => true

/-- `BranchAddress`. -/
def branchAddress (tpc : ℕ) (code : BitVec 32) : ℕ :=
  ((tpc + imm11 code * 8) % vu1ProgSize).toNat

/-- `SetBranch`. -/
def Vu.setBranch (vu : Vu D) (bpc : ℕ) : Vu D :=
  if vu.branch = 1 then { vu with delaybranchpc := bpc, takedelaybranch := true }
  else { vu with branch := 2, branchpc := bpc }

/-- `WriteBranchLink`. -/
def Vu.writeBranchLink (vu : Vu D) (reg : Fin 16) : Vu D :=
  let link := if vu.branch = 1 then (vu.branchpc + 8) / 8 else (vu.tpc + 8) / 8
  { vu with vi := vu.vi.write reg (BitVec.ofNat 16 link) }

/-- The link that a lower instruction writes before it reads its target. -/
def Vu.link (vu : Vu D) (plan : PairPlan) : Vu D :=
  match plan.lowerKind with
  | .bal | .jalr => vu.writeBranchLink (viIt plan.lower)
  | _ => vu

/-- The target of a lower instruction, when it is a branch that is taken. -/
def Vu.takes (semantics : Semantics D) (plan : PairPlan) (vu : Vu D) : Option ℕ :=
  if isIndirectBranch plan.lowerKind then some ((vu.vi (viIs plan.lower)).toNat * 8)
  else if isImmediateBranch plan.lowerKind then
    if branchCondition (readViBranchOperand (semantics.viBackup vu.data vu.vi plan) vu.vi)
        plan.lower plan.lowerKind then
      some (branchAddress vu.tpc plan.lower)
    else none
  else none

/-- `ExecuteLowerNoUpperKnownKind`. -/
def executeLower (semantics : Semantics D) (plan : PairPlan) (vu : Vu D) : Vu D :=
  if isBranch plan.lowerKind then
    match (vu.link plan).takes semantics plan with
    | some target => (vu.link plan).setBranch target
    | none => vu.link plan
  else
    { vu with
      vi := executeLowerVi plan.lower (semantics.loaded vu.data vu.vi plan) vu.vi plan.lowerKind }

/-- Whether the step executes the lower instruction. -/
def PairPlan.executesLower (plan : PairPlan) : Bool :=
  if !plan.execUpper then plan.execLower
  else if plan.immediateLower then false
  else if plan.lowerKind == .none && !plan.lowerDiscardedByUpper then false
  else !plan.lowerDiscardedByUpper

/-- The body of a pair. -/
def executePair (semantics : Semantics D) (plan : PairPlan) (vu : Vu D) : Vu D :=
  let lowered := if plan.executesLower then executeLower semantics plan vu else vu
  { lowered with data := semantics.data vu.data vu.vi plan }

/-- `if (vu->branch > 0 && vu->branch-- == 1)`. -/
def Vu.retireBranch (vu : Vu D) : Vu D :=
  if vu.branch = 1 then
    if vu.takedelaybranch then
      { vu with
        tpc := vu.branchpc, branch := 1, branchpc := vu.delaybranchpc, takedelaybranch := false }
    else { vu with tpc := vu.branchpc, branch := 0 }
  else { vu with branch := vu.branch - 1 }

/-- `UniversalReferenceStepResult`, with the registers where the step has moved. -/
inductive StepResult (D : Type) where
  | invalidEncoding
  | dbitObserver
  | tbitObserver
  | pairCompleted (vu : Vu D)
  | programFinished (vu : Vu D)

/-- `if (vu->ebit > 0 && vu->ebit-- == 1)`. -/
def Vu.retireEbit (vu : Vu D) : StepResult D :=
  if vu.ebit = 1 then .programFinished { vu with ebit := 0 }
  else .pairCompleted { vu with ebit := vu.ebit - 1 }

/-- The pair a step executes. -/
def Vu.pc (vu : Vu D) : ℕ := vu.tpc % vu1ProgSize

/-- The counter and the E-bit countdown that a pair starts with. -/
def Vu.issue (vu : Vu D) (plan : PairPlan) : Vu D :=
  { vu with tpc := vu.pc + 8, ebit := if plan.ebit then 2 else vu.ebit }

/-- `ExecuteUniversalReferenceStepImpl`. -/
def step (semantics : Semantics D) (upperTable : UpperTable) (micro : Micro) (fbrst : BitVec 32)
    (vu : Vu D) : StepResult D :=
  match decodePair upperTable micro vu.pc with
  | none => .invalidEncoding
  | some plan =>
    if plan.dflag && (fbrst &&& 0x400#32 != 0) then .dbitObserver
    else if plan.tflag && (fbrst &&& 0x800#32 != 0) then .tbitObserver
    else (executePair semantics plan (vu.issue plan)).retireBranch.retireEbit

/-! ### What one pair does -/

section Pair

variable {semantics : Semantics D} {plan : PairPlan} {vu : Vu D}

lemma executesLower_eq {upperTable : UpperTable} {pc : ℕ} {upper lower : BitVec 32}
    (h : analyzePair upperTable pc upper lower = some plan) :
    plan.executesLower = plan.execLower := by
  obtain ⟨-, hlower, hnone⟩ := analyzePair_spec h
  unfold PairPlan.executesLower
  cases hexec : plan.execLower
  · cases hupper : plan.execUpper
    · rfl
    · cases himmediate : plan.immediateLower
      · cases hdiscarded : plan.lowerDiscardedByUpper
        · simp [hnone hexec hupper himmediate hdiscarded]
        · simp
      · rfl
  · obtain ⟨himmediate, hdiscarded, lregs, hlregs, -⟩ := hlower hexec
    have hkind : plan.lowerKind ≠ .none := by
      rintro heq
      rw [heq] at hlregs
      cases hlregs
    simp [himmediate, hdiscarded, hkind]

/-- The target of the branch that a pair takes. -/
def Vu.target (semantics : Semantics D) (plan : PairPlan) (vu : Vu D) : Option ℕ :=
  if plan.branches then (vu.link plan).takes semantics plan else none

lemma link_control (vu : Vu D) (plan : PairPlan) :
    vu.link plan = { vu with vi := (vu.link plan).vi } := by
  unfold Vu.link
  split
  all_goals rfl

variable {upperTable : UpperTable} {pc : ℕ} {upper lower : BitVec 32}

/-- The link outside a delay slot. -/
lemma vi_writeBranchLink (h : vu.branch = 0) (reg : Fin 16) :
    (vu.writeBranchLink reg).vi = vu.vi.write reg (BitVec.ofNat 16 ((vu.tpc + 8) / 8)) := by
  rw [Vu.writeBranchLink, h]
  rfl

/-- A pair that takes no branch leaves the counters alone. -/
lemma executePair_of_none (h : analyzePair upperTable pc upper lower = some plan)
    (htarget : vu.target semantics plan = none) :
    executePair semantics plan vu =
      { vu with
        vi := (executePair semantics plan vu).vi
        data := semantics.data vu.data vu.vi plan } := by
  unfold executePair
  dsimp only
  rw [executesLower_eq h]
  split
  next hexec =>
    unfold executeLower
    split
    next hkind =>
      have hbranches : plan.branches = true := by rw [PairPlan.branches, hexec, hkind]; rfl
      rw [Vu.target, if_pos hbranches] at htarget
      rw [htarget]
      dsimp only
      rw [link_control]
    next => rfl
  next => rfl

/-- A branch outside a delay slot is taken after the next pair. -/
lemma executePair_of_some (h : analyzePair upperTable pc upper lower = some plan) {target : ℕ}
    (htarget : vu.target semantics plan = some target) (hbranch : vu.branch = 0) :
    executePair semantics plan vu =
      { vu with
        vi := (executePair semantics plan vu).vi
        data := semantics.data vu.data vu.vi plan
        branch := 2
        branchpc := target } := by
  rw [Vu.target] at htarget
  split at htarget
  next hbranches =>
    rw [PairPlan.branches, Bool.and_eq_true] at hbranches
    have hlink : (vu.link plan).branch ≠ 1 := by
      rw [link_control, hbranch]
      exact zero_ne_one
    unfold executePair
    dsimp only
    rw [executesLower_eq h, if_pos hbranches.1, executeLower, if_pos hbranches.2, htarget]
    dsimp only
    rw [Vu.setBranch, if_neg hlink, link_control]
  next => cases htarget

/-- The integer registers that a pair does not write. -/
lemma vi_executePair_frame (h : analyzePair upperTable pc upper lower = some plan) {reg : Fin 16}
    (hreg : plan.execLower = true → plan.lowerViWrite.getLsbD reg = false) :
    (executePair semantics plan vu).vi reg = vu.vi reg := by
  have hspec := analyzePair_spec h
  unfold executePair
  dsimp only
  rw [executesLower_eq h]
  split
  next hexec =>
    obtain ⟨-, -, lregs, hlregs, hwrite⟩ := hspec.2.1 hexec
    have hbit : lregs.viWrite.getLsbD reg = false := hwrite ▸ hreg hexec
    have hlink : (vu.link plan).vi reg = vu.vi reg := by
      unfold Vu.link
      split
      next hkind =>
        rw [hkind] at hlregs
        cases hlregs
        exact ViFile.write_of_ne (ne_of_viBit hbit)
      next hkind =>
        rw [hkind] at hlregs
        cases hlregs
        exact ViFile.write_of_ne (ne_of_viBit hbit)
      next => rfl
    unfold executeLower
    split
    · split
      · rw [← hlink, Vu.setBranch]
        split <;> rfl
      · exact hlink
    · exact executeLowerVi_frame hlregs hbit
  next => rfl

/-- The link of a branch outside a delay slot. -/
lemma vi_executePair_link (h : analyzePair upperTable pc upper lower = some plan)
    (hexec : plan.execLower = true) (hkind : plan.lowerKind = .bal ∨ plan.lowerKind = .jalr)
    (hbranch : vu.branch = 0) (hreg : viIt plan.lower ≠ 0) :
    (executePair semantics plan vu).vi (viIt plan.lower) = BitVec.ofNat 16 ((vu.tpc + 8) / 8) := by
  have hlink : vu.link plan = vu.writeBranchLink (viIt plan.lower) := by
    rcases hkind with hkind | hkind <;> simp [Vu.link, hkind]
  have hvalue : (vu.writeBranchLink (viIt plan.lower)).vi (viIt plan.lower) =
      BitVec.ofNat 16 ((vu.tpc + 8) / 8) := by
    rw [vi_writeBranchLink hbranch, ViFile.write, if_neg hreg, Function.update_self]
  have hbranchKind : isBranch plan.lowerKind = true := by
    rcases hkind with hkind | hkind <;> rw [hkind] <;> rfl
  unfold executePair
  dsimp only
  rw [executesLower_eq h, if_pos hexec, executeLower, if_pos hbranchKind, hlink]
  split
  · rw [← hvalue, Vu.setBranch]
    split <;> rfl
  · exact hvalue

end Pair

/-! ### Retiring -/

lemma retireBranch_of_zero {vu : Vu D} (h : vu.branch = 0) : vu.retireBranch = vu := by
  obtain ⟨vi, data, tpc, branch, branchpc, delaybranchpc, takedelaybranch, ebit⟩ := vu
  cases h
  rfl

lemma retireBranch_of_one {vu : Vu D} (h : vu.branch = 1) (htake : vu.takedelaybranch = false) :
    vu.retireBranch = { vu with tpc := vu.branchpc, branch := 0 } := by
  rw [Vu.retireBranch, if_pos h, if_neg (by rw [htake]; exact Bool.false_ne_true)]

lemma retireBranch_of_two {vu : Vu D} (h : vu.branch = 2) :
    vu.retireBranch = { vu with branch := 1 } := by
  rw [Vu.retireBranch, if_neg (by omega), h]

lemma retireEbit_of_ne {vu : Vu D} (h : vu.ebit ≠ 1) :
    vu.retireEbit = .pairCompleted { vu with ebit := vu.ebit - 1 } := by
  rw [Vu.retireEbit, if_neg h]

section Step

variable {semantics : Semantics D} {upperTable : UpperTable} {micro : Micro} {fbrst : BitVec 32}
  {plan : PairPlan} {vu : Vu D}

lemma step_eq (hplan : decodePair upperTable micro vu.pc = some plan) (hdflag : plan.dflag = false)
    (htflag : plan.tflag = false) :
    step semantics upperTable micro fbrst vu =
      (executePair semantics plan (vu.issue plan)).retireBranch.retireEbit := by
  rw [step, hplan]
  dsimp only
  rw [hdflag, htflag, Bool.false_and, Bool.false_and, if_neg Bool.false_ne_true,
    if_neg Bool.false_ne_true]

/-- A pair outside a delay slot: the branch that it takes is under way afterwards. -/
lemma step_of_branch_zero (hplan : decodePair upperTable micro vu.pc = some plan)
    (hdflag : plan.dflag = false) (htflag : plan.tflag = false) (hbranch : vu.branch = 0)
    (hebit : (vu.issue plan).ebit ≠ 1) :
    ∃ vu', step semantics upperTable micro fbrst vu = .pairCompleted vu' ∧
      vu'.vi = (executePair semantics plan (vu.issue plan)).vi ∧ vu'.tpc = vu.pc + 8 ∧
      vu'.takedelaybranch = vu.takedelaybranch ∧ vu'.ebit = (vu.issue plan).ebit - 1 ∧
      match (vu.issue plan).target semantics plan with
      | none => vu'.branch = 0
      | some target => vu'.branch = 1 ∧ vu'.branchpc = target := by
  have hissue : (vu.issue plan).branch = 0 := hbranch
  rw [step_eq hplan hdflag htflag]
  cases htarget : (vu.issue plan).target semantics plan with
  | none =>
    have hcontrol := Vu.ext_iff.mp (executePair_of_none hplan htarget)
    generalize executePair semantics plan (vu.issue plan) = executed at hcontrol ⊢
    obtain ⟨-, -, htpc, hkept, -, -, htake, hcount⟩ := hcontrol
    rw [retireBranch_of_zero (hkept.trans hissue), retireEbit_of_ne (hcount.trans_ne hebit)]
    exact ⟨_, rfl, rfl, htpc, htake, by rw [← hcount], hkept.trans hissue⟩
  | some target =>
    have hcontrol := Vu.ext_iff.mp (executePair_of_some hplan htarget hissue)
    generalize executePair semantics plan (vu.issue plan) = executed at hcontrol ⊢
    obtain ⟨-, -, htpc, hset, htaken, -, htake, hcount⟩ := hcontrol
    rw [retireBranch_of_two hset]
    exact ⟨_, retireEbit_of_ne (hcount.trans_ne hebit), rfl, htpc, htake, by rw [← hcount], rfl,
      htaken⟩

/-- A pair without a branch, in a delay slot or not: the branch under way is taken. -/
lemma step_of_not_branches (hplan : decodePair upperTable micro vu.pc = some plan)
    (hdflag : plan.dflag = false) (htflag : plan.tflag = false) (hbranches : plan.branches = false)
    (hbranch : vu.branch = 0 ∨ vu.branch = 1) (htake : vu.takedelaybranch = false) :
    ∃ vu' : Vu D, step semantics upperTable micro fbrst vu = vu'.retireEbit ∧
      vu'.vi = (executePair semantics plan (vu.issue plan)).vi ∧
      vu'.tpc = (if vu.branch = 1 then vu.branchpc else vu.pc + 8) ∧
      vu'.takedelaybranch = false ∧ vu'.ebit = (vu.issue plan).ebit ∧ vu'.branch = 0 := by
  have htarget : (vu.issue plan).target semantics plan = none := by
    rw [Vu.target, hbranches, if_neg Bool.false_ne_true]
  have hcontrol := Vu.ext_iff.mp (executePair_of_none hplan htarget)
  rw [step_eq hplan hdflag htflag]
  generalize executePair semantics plan (vu.issue plan) = executed at hcontrol ⊢
  obtain ⟨-, -, htpc, hkept, hbranchpc, -, hdelay, hcount⟩ := hcontrol
  have hclear : executed.takedelaybranch = false := hdelay.trans htake
  refine ⟨executed.retireBranch, rfl, ?_⟩
  rcases hbranch with hbranch | hbranch
  · rw [retireBranch_of_zero (hkept.trans hbranch), if_neg (by omega)]
    exact ⟨rfl, htpc, hclear, hcount, hkept.trans hbranch⟩
  · rw [retireBranch_of_one (hkept.trans hbranch) hclear, if_pos hbranch]
    exact ⟨rfl, hbranchpc, hclear, hcount, rfl⟩

end Step

end VitaSX2.Vu1
