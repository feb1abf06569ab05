/-
What an integer register does on a path through a loop.

A register that is written by counter updates only changes by the sum of the
updates that are executed.  `AnalyzeLoopCounter` adds up the updates of all blocks
of the loop, so the two agree when what the path leaves out and what it repeats
cancel out.
-/
import VitaSX2.Vu1.CfgRun
import VitaSX2.Vu1.NaturalLoops
import Mathlib.Algebra.BigOperators.Group.List.Basic
import Mathlib.Tactic.Ring

namespace VitaSX2.Vu1

variable {D : Type} {semantics : Semantics D} {upperTable : UpperTable} {micro : Micro}
  {fbrst : BitVec 32} {plan : PairPlan} {vu vu' : Vu D}

/-! ### One pair -/

/-- What an instruction adds to register 0: the post-increments and the pre-decrement
of a store step it through field 16. -/
def zeroStepOf (code : BitVec 32) : LowerKind → ℤ
  | .lqi => if fs code ≠ 0 ∧ viIs code = 0 then 1 else 0
  | .sqi => if ft code ≠ 0 ∧ viIt code = 0 then 1 else 0
  | .sqd => if ft code ≠ 0 ∧ viIt code = 0 then -1 else 0
  | _ => 0

def zeroStep (plan : PairPlan) : ℤ :=
  if plan.execLower then zeroStepOf plan.lower plan.lowerKind else 0

/-- What a pair adds to a register that only counter updates write. -/
def registerStep (reg : Fin 16) (pair : ProgramPair) : ℤ :=
  if reg = 0 then zeroStep pair.plan else (counterUpdate pair reg).getD 0

/-- Only counter updates write the register. -/
def Counts (reg : Fin 16) (pair : ProgramPair) : Prop :=
  reg = 0 ∨ pair.plan.lowerViWrite.getLsbD reg = false ∨ (counterUpdate pair reg).isSome

/-- A step that completes its pair has executed it. -/
lemma vi_of_step (hplan : decodePair upperTable micro vu.pc = some plan)
    (h : step semantics upperTable micro fbrst vu = .pairCompleted vu') :
    vu'.vi = (executePair semantics plan (vu.issue plan)).vi := by
  rw [step, hplan] at h
  dsimp only at h
  split at h
  · cases h
  split at h
  · cases h
  generalize executePair semantics plan (vu.issue plan) = executed at h ⊢
  have hretire : executed.retireBranch.vi = executed.vi := by
    unfold Vu.retireBranch
    split
    · split <;> rfl
    · rfl
  unfold Vu.retireEbit at h
  split at h
  · cases h
  · cases h
    exact hretire

lemma write_zero (vi : ViFile) (reg : Fin 16) (value : BitVec 16) : vi.write reg value 0 = vi 0 := by
  unfold ViFile.write
  split
  next => rfl
  next hreg => exact Function.update_of_ne (Ne.symm hreg) _ _

lemma vi_link_zero (vu : Vu D) (plan : PairPlan) : (vu.link plan).vi 0 = vu.vi 0 := by
  unfold Vu.link
  split
  · exact write_zero _ _ _
  · exact write_zero _ _ _
  · rfl

lemma add_ofInt_zero (x : BitVec 16) : x + BitVec.ofInt 16 0 = x := BitVec.add_zero x

/-- A post-increment or a pre-decrement behind the test of its field. -/
lemma bump_zero (vi : ViFile) (field : BitVec 5) (reg : Fin 16) (change : BitVec 16 → BitVec 16)
    (step : ℤ) (hchange : ∀ value, change value = value + BitVec.ofInt 16 step) :
    (if field = 0 then vi else Function.update vi reg (change (vi reg))) 0 =
      vi 0 + BitVec.ofInt 16 (if field ≠ 0 ∧ reg = 0 then step else 0) := by
  by_cases hfield : field = 0
  · rw [if_pos hfield, if_neg fun h => h.1 hfield, add_ofInt_zero]
  rw [if_neg hfield]
  by_cases hreg : reg = 0
  · rw [if_pos ⟨hfield, hreg⟩, hreg, Function.update_self, hchange]
  · rw [if_neg fun h => hreg h.2, Function.update_of_ne (Ne.symm hreg), add_ofInt_zero]

/-- The stepping instructions are the only ones that change register 0. -/
lemma executeLowerVi_zero (code : BitVec 32) (loaded : BitVec 16) (vi : ViFile) (kind : LowerKind) :
    executeLowerVi code loaded vi kind 0 = vi 0 + BitVec.ofInt 16 (zeroStepOf code kind) := by
  cases kind
  case lqi => exact bump_zero vi (fs code) (viIs code) (· + 1) 1 fun _ => rfl
  case sqi => exact bump_zero vi (ft code) (viIt code) (· + 1) 1 fun _ => rfl
  case sqd =>
    refine bump_zero vi (ft code) (viIt code) (· - 1) (-1) fun value => ?_
    rw [BitVec.sub_eq_add_neg]
    rfl
  case ilw | ilwr =>
    simp only [executeLowerVi, zeroStepOf, add_ofInt_zero]
    split
    · rfl
    · exact write_zero _ _ _
  all_goals simp only [executeLowerVi, zeroStepOf, add_ofInt_zero, write_zero]

/-- A counter update adds its step. -/
lemma executeLowerVi_update {delayed : Bool} {reg : Fin 16} {update : ℤ} (hreg : reg ≠ 0)
    (h : counterUpdate ⟨plan, delayed⟩ reg = some update) (loaded : BitVec 16) (vi : ViFile) :
    plan.execLower = true ∧ isBranch plan.lowerKind = false ∧
      executeLowerVi plan.lower loaded vi plan.lowerKind reg = vi reg + BitVec.ofInt 16 update := by
  unfold counterUpdate at h
  dsimp only at h
  split at h
  · cases h
  next hexec =>
    have hlower : plan.execLower = true := by
      cases hcase : plan.execLower
      · simp [hcase] at hexec
      · rfl
    split at h
    next hregs =>
      have hwrite : ∀ value, vi.write (viIt plan.lower) value reg = value := by
        intro value
        rw [hregs.1, ViFile.write, if_neg hreg, Function.update_self]
      split at h
      next hkind =>
        cases h
        refine ⟨hlower, by rw [hkind]; rfl, ?_⟩
        rw [hkind, executeLowerVi, hwrite, hregs.2, BitVec.ofInt_toInt]
      next hkind =>
        cases h
        refine ⟨hlower, by rw [hkind]; rfl, ?_⟩
        rw [hkind, executeLowerVi, hwrite, hregs.2, BitVec.ofInt_natCast, BitVec.ofNat_toNat,
          BitVec.setWidth_eq]
      next hkind =>
        cases h
        refine ⟨hlower, by rw [hkind]; rfl, ?_⟩
        rw [hkind, executeLowerVi, hwrite, hregs.2, BitVec.ofInt_neg, BitVec.ofInt_natCast,
          BitVec.ofNat_toNat, BitVec.setWidth_eq, BitVec.sub_eq_add_neg]
      next => cases h
    · cases h

/-- The effect of one pair on a register that only counter updates write. -/
lemma vi_executePair_step {pc : ℕ} {upper lower : BitVec 32} {reg : Fin 16} (delayed : Bool)
    (h : analyzePair upperTable pc upper lower = some plan) (hcounts : Counts reg ⟨plan, delayed⟩) :
    (executePair semantics plan vu).vi reg =
      vu.vi reg + BitVec.ofInt 16 (registerStep reg ⟨plan, delayed⟩) := by
  have hvi : (executePair semantics plan vu).vi =
      (if plan.execLower then executeLower semantics plan vu else vu).vi := by
    rw [← executesLower_eq h]
    rfl
  by_cases hreg : reg = 0
  · subst hreg
    rw [registerStep, if_pos rfl, zeroStep, hvi]
    split
    next hexec =>
      unfold executeLower
      split
      next hbranch =>
        -- A branch writes at most its link, and never register 0.
        have hzero : zeroStepOf plan.lower plan.lowerKind = 0 := by
          cases hkind : plan.lowerKind <;> rw [hkind] at hbranch <;> first | rfl | cases hbranch
        rw [hzero, add_ofInt_zero, ← vi_link_zero vu plan]
        split
        · unfold Vu.setBranch
          split <;> rfl
        · rfl
      next => exact executeLowerVi_zero _ _ _ _
    next => exact (add_ofInt_zero _).symm
  · rw [registerStep, if_neg hreg]
    cases hupdate : counterUpdate ⟨plan, delayed⟩ reg with
    | none =>
      rw [Option.getD_none, add_ofInt_zero]
      rcases hcounts with hzero | hbit | hsome
      · exact absurd hzero hreg
      · exact vi_executePair_frame h fun _ => hbit
      · rw [hupdate] at hsome
        cases hsome
    | some update =>
      obtain ⟨hexec, hbranch, hvalue⟩ := executeLowerVi_update hreg hupdate
        (semantics.loaded vu.data vu.vi plan) vu.vi
      rw [hvi, if_pos hexec, executeLower, if_neg (by rw [hbranch]; exact Bool.false_ne_true)]
      exact hvalue

/-! ### Runs -/

/-- The pairs of the micro memory at their addresses. -/
def Decoded (upperTable : UpperTable) (micro : Micro) (pair : ProgramPair) : Prop :=
  decodePair upperTable micro pair.plan.pc = some pair.plan

/-- A run adds to the register what its pairs add. -/
lemma vi_of_run {allowed : Bool → Vu D → Prop} {start : Vu D} {reg : Fin 16}
    {pairs : List ProgramPair} {delayed : Bool}
    (hdecoded : ∀ pair ∈ pairs, Decoded upperTable micro pair) (hcounts : ∀ pair ∈ pairs, Counts reg pair)
    (hrun : Run semantics upperTable micro fbrst allowed start (pairs.map (·.plan.pc))
      (.running vu delayed)) :
    vu.vi reg = start.vi reg + BitVec.ofInt 16 (pairs.map (registerStep reg)).sum := by
  generalize hpcs : pairs.map (·.plan.pc) = pcs at hrun
  generalize houtcome : Outcome.running vu delayed = outcome at hrun
  induction hrun generalizing pairs vu delayed with
  | start =>
    cases houtcome
    rw [List.map_eq_nil_iff] at hpcs
    rw [hpcs]
    exact (add_ofInt_zero _).symm
  | @pair pcs before after slot _ _ hstep ih =>
    cases houtcome
    obtain ⟨front, lasts, rfl, hfront, hlast⟩ := List.map_eq_append_iff.mp hpcs
    obtain ⟨last, rfl, hpc⟩ := List.map_eq_singleton_iff.mp hlast
    have hbefore := ih (fun pair hpair => hdecoded pair (List.mem_append_left _ hpair))
      (fun pair hpair => hcounts pair (List.mem_append_left _ hpair)) hfront rfl
    have hplan : decodePair upperTable micro before.pc = some last.plan :=
      hpc ▸ hdecoded last (by simp)
    rw [vi_of_step hplan hstep, vi_executePair_step last.delayedPair hplan
      (hcounts last (by simp)), List.map_append, List.sum_append, List.map_singleton,
      List.sum_singleton, BitVec.ofInt_add, ← BitVec.add_assoc, ← hbefore]
    rfl
  | finish => cases houtcome

/-! ### What the analysis adds up -/

section Evolution

variable {blocks : List BasicBlock} {members : List ℕ} {reg : Fin 16}

/-- What one block adds to a register. -/
def blockStep (blocks : List BasicBlock) (reg : Fin 16) (index : ℕ) : ℤ :=
  ((blockAt blocks index).pairs.map (registerStep reg)).sum

lemma sum_flatMap_step (reg : Fin 16) (indices : List ℕ) :
    ((indices.flatMap fun index => (blockAt blocks index).pairs).map (registerStep reg)).sum =
      (indices.map (blockStep blocks reg)).sum := by
  induction indices with
  | nil => rfl
  | cons index indices ih =>
    rw [List.flatMap_cons, List.map_append, List.sum_append, ih, List.map_cons, List.sum_cons]
    rfl

lemma registerStep_of_bit {pair : ProgramPair} (hreg : reg ≠ 0)
    (h : pair.plan.lowerViWrite.getLsbD reg = false) : registerStep reg pair = 0 := by
  rw [registerStep, if_neg hreg, counterUpdate, h]
  simp

lemma foldlM_evolvePair {pairs : List ProgramPair} (hreg : reg ≠ 0) {state state' : ℕ × ℤ}
    (h : pairs.foldlM (evolvePair reg) state = some state') :
    (∀ pair ∈ pairs, Counts reg pair) ∧ state'.2 = state.2 + (pairs.map (registerStep reg)).sum ∧
      state.1 ≤ state'.1 ∧
      (state'.1 = state.1 → ∀ pair ∈ pairs, pair.plan.lowerViWrite.getLsbD reg = false) := by
  induction pairs generalizing state with
  | nil =>
    cases h
    exact ⟨fun pair hpair => (List.not_mem_nil hpair).elim, (Int.add_zero _).symm, le_rfl,
      fun _ pair hpair => (List.not_mem_nil hpair).elim⟩
  | cons pair pairs ih =>
    rw [List.foldlM_cons] at h
    obtain ⟨next, hnext, hrest⟩ := Option.bind_eq_some_iff.mp h
    obtain ⟨hcounts, hsum, hle, hzero⟩ := ih hrest
    unfold evolvePair at hnext
    split at hnext
    next hbit =>
      rw [Bool.not_eq_true'] at hbit
      cases hnext
      refine ⟨?_, ?_, hle, fun hsame => ?_⟩
      · exact List.forall_mem_cons.mpr ⟨Or.inr (Or.inl hbit), hcounts⟩
      · rw [hsum, List.map_cons, List.sum_cons, registerStep_of_bit hreg hbit, Int.zero_add]
      · exact List.forall_mem_cons.mpr ⟨hbit, hzero hsame⟩
    next =>
      obtain ⟨update, hupdate, rfl⟩ := Option.map_eq_some_iff.mp hnext
      dsimp only at hsum hle
      refine ⟨?_, ?_, by omega, fun hsame => by omega⟩
      · exact List.forall_mem_cons.mpr ⟨Or.inr (Or.inr (by rw [hupdate]; rfl)), hcounts⟩
      · rw [hsum, List.map_cons, List.sum_cons, registerStep, if_neg hreg, hupdate,
          Option.getD_some, Int.add_assoc]

/-- The step of a register is what the blocks of the loop add to it. -/
lemma registerEvolution_spec {writes : ℕ} {step : ℤ}
    (h : registerEvolution blocks members reg = some (writes, step)) :
    (∀ index ∈ members, ∀ pair ∈ (blockAt blocks index).pairs, Counts reg pair) ∧
      (reg ≠ 0 → step = (members.map (blockStep blocks reg)).sum) ∧ (writes ≠ 0 → reg ≠ 0) ∧
      (reg ≠ 0 → writes = 0 → ∀ index ∈ members, blockStep blocks reg index = 0) := by
  unfold registerEvolution at h
  split at h
  next hreg =>
    cases h
    exact ⟨fun index _ pair _ => Or.inl hreg, fun hne => absurd hreg hne, fun hne => absurd rfl hne,
      fun hne => absurd hreg hne⟩
  next hreg =>
    obtain ⟨hcounts, hsum, -, hzero⟩ := foldlM_evolvePair hreg h
    refine ⟨fun index hindex pair hpair => hcounts pair (List.mem_flatMap.mpr ⟨index, hindex, hpair⟩),
      fun _ => ?_, fun _ => hreg, fun _ hwrites index hindex => ?_⟩
    · rw [← sum_flatMap_step]
      exact hsum.trans (Int.zero_add _)
    · refine List.sum_eq_zero fun value hvalue => ?_
      obtain ⟨pair, hpair, rfl⟩ := List.mem_map.mp hvalue
      exact registerStep_of_bit hreg
        (hzero hwrites pair (List.mem_flatMap.mpr ⟨index, hindex, hpair⟩))

/-- A sum along a path, block by block. -/
lemma sum_path_eq (f : ℕ → ℤ) {path : List ℕ} (hnodup : members.Nodup)
    (hpath : ∀ index ∈ path, index ∈ members) :
    (path.map f).sum = (members.map fun index => (path.count index : ℤ) * f index).sum := by
  induction path with
  | nil =>
    symm
    refine List.sum_eq_zero fun value hvalue => ?_
    obtain ⟨index, -, rfl⟩ := List.mem_map.mp hvalue
    rw [List.count_nil, Nat.cast_zero, Int.zero_mul]
  | cons first path ih =>
    obtain ⟨hfirst, hrest⟩ := List.forall_mem_cons.mp hpath
    have hone : (members.map fun index => if index = first then f index else 0).sum = f first := by
      simp [List.sum_map_ite_eq, List.count_eq_one_of_mem hnodup hfirst]
    rw [List.map_cons, List.sum_cons, ih hrest, ← hone, ← List.sum_map_add]
    refine congrArg List.sum (List.map_congr_left fun index _ => ?_)
    rw [List.count_cons]
    by_cases heq : index = first
    · simp [heq, Int.add_mul, Int.add_comm]
    · simp [heq, Ne.symm heq]

end Evolution

/-! ### Loops -/

section Loops

variable {blocks : List BasicBlock} {loop : NaturalLoop} {analysis : ProgramAnalysis}

/-- The pairs of the blocks are those of the micro memory. -/
lemma decoded_of_scanned {resolutions : IndirectResolutionMap} {startPc pc : ℕ}
    {pending : PendingBlock} (h : Scanned upperTable micro resolutions startPc pc pending) :
    ∀ pair ∈ pending.block.pairs, Decoded upperTable micro pair := by
  have hdecoded : ∀ pc plan, decodePair upperTable micro pc = some plan →
      decodePair upperTable micro plan.pc = some plan := fun pc plan hplan => by
    rw [plan_pc hplan, decodePair_mod, hplan]
  induction h with
  | fallthrough => exact fun pair hpair => (List.not_mem_nil hpair).elim
  | terminator pc plan pending discovered hplan _ hterminator =>
    obtain ⟨delay, hdelay, heq⟩ := Option.map_eq_some_iff.mp hterminator
    cases heq
    refine List.forall_mem_cons.mpr ⟨hdecoded _ _ hplan, ?_⟩
    exact List.forall_mem_singleton.mpr (hdecoded _ _ hdelay)
  | body pc plan rest hplan _ _ ih => exact List.forall_mem_cons.mpr ⟨hdecoded _ _ hplan, ih⟩

lemma decoded_of_analysis {fuel startPc : ℕ}
    (h : analyzeGpuVu1Program upperTable micro fuel startPc = some analysis) (index : ℕ) :
    ∀ pair ∈ (blockAt analysis.blocks index).pairs, Decoded upperTable micro pair := by
  obtain ⟨blocks, hblocks, -, rfl⟩ := analyze_spec h
  obtain ⟨resolutions, inferred, hbuild, -, -⟩ := buildBlocks_spec hblocks
  obtain ⟨leaders, hbuilt⟩ := exists_built hbuild
  change ∀ pair ∈ (blockAt blocks index).pairs, _
  rcases Nat.lt_or_ge index leaders.length with hlt | hge
  · obtain ⟨pending, hscanned, -, hlink, -⟩ := hbuilt.at (List.getElem?_eq_getElem hlt)
    rw [(linkBlock_eq_some hlink).2]
    exact decoded_of_scanned hscanned
  · rw [blockAt, List.getD_eq_getElem?_getD,
      List.getElem?_eq_none (List.Forall₂.length_eq hbuilt ▸ hge)]
    exact fun pair hpair => (List.not_mem_nil hpair).elim

/-- What is known of a loop with a counter. -/
structure HasCounter (blocks : List BasicBlock) (loop : NaturalLoop) : Prop where
  nodup : loop.blocks.Nodup
  counter : ∃ writes, writes ≠ 0 ∧
    registerEvolution blocks loop.blocks loop.counterReg = some (writes, loop.counterStep)
  limit : ∃ step, registerEvolution blocks loop.blocks loop.counterLimitReg = some (0, step)

lemma hasCounter_of_analyze (loop : NaturalLoop) (hnodup : loop.blocks.Nodup)
    (h : (analyzeLoopCounter blocks loop).affineCounter = true) (hfresh : loop.affineCounter = false) :
    HasCounter blocks (analyzeLoopCounter blocks loop) := by
  unfold analyzeLoopCounter at h ⊢
  dsimp only at h ⊢
  split at h
  next =>
    rw [hfresh] at h
    cases h
  next counterReg counterLimitReg counterStep hcounter =>
    obtain ⟨⟨first, second⟩, -, hcounter⟩ := Option.bind_eq_some_iff.mp hcounter
    obtain ⟨⟨firstWrites, firstStep⟩, hfirst, hcounter⟩ := Option.bind_eq_some_iff.mp hcounter
    obtain ⟨⟨secondWrites, secondStep⟩, hsecond, hcounter⟩ := Option.bind_eq_some_iff.mp hcounter
    dsimp only at hcounter
    split at hcounter
    next hcase =>
      cases hcounter
      obtain ⟨hwrites, rfl, -⟩ := hcase
      exact ⟨hnodup, ⟨firstWrites, hwrites, hfirst⟩, ⟨secondStep, hsecond⟩⟩
    next =>
      split at hcounter
      next hcase =>
        cases hcounter
        obtain ⟨hwrites, rfl, -⟩ := hcase
        exact ⟨hnodup, ⟨secondWrites, hwrites, hsecond⟩, ⟨firstStep, hfirst⟩⟩
      next => cases hcounter

/-- The loops of an analysis that are marked affine have a counter. -/
lemma hasCounter_of_loop {fuel : ℕ} {loops : List NaturalLoop}
    (h : findNaturalLoops fuel analysis = some loops) (hloop : loop ∈ loops)
    (haffine : loop.affineCounter = true) : HasCounter analysis.blocks loop := by
  obtain ⟨entry, -, h⟩ := Option.bind_eq_some_iff.mp h
  obtain ⟨dominators, -, h⟩ := Option.bind_eq_some_iff.mp h
  obtain ⟨bases, hbases, rfl⟩ := Option.map_eq_some_iff.mp h
  obtain ⟨⟨base, index⟩, hbase, rfl⟩ := List.mem_map.mp hloop
  have hmem : base ∈ bases := List.mem_of_getElem? (List.mem_zipIdx_iff_getElem?.mp hbase)
  obtain ⟨⟨position, hposition⟩, hget⟩ := List.get_of_mem hmem
  obtain ⟨hlength, hall⟩ := List.forall₂_iff_get.mp (forall₂_of_mapM hbases)
  obtain ⟨members, hmembers, heq⟩ := Option.map_eq_some_iff.mp
    (hall position (hlength ▸ hposition) hposition)
  have hnodup : members.Nodup := by
    obtain ⟨marked, -, rfl⟩ := Option.map_eq_some_iff.mp hmembers
    exact List.nodup_range.filter _
  rw [hget] at heq
  subst heq
  have hcounter := hasCounter_of_analyze ⟨_, _, members, none, [], 0, 0, 0, 0, .none, false, false,
    false⟩ hnodup haffine rfl
  exact ⟨hcounter.nodup, hcounter.counter, hcounter.limit⟩

/-- An execution path once around a loop: from the header through blocks of the loop
over edges of the graph back to the header. -/
structure AroundLoop (semantics : Semantics D) (upperTable : UpperTable) (micro : Micro)
    (fbrst : BitVec 32) (blocks : List BasicBlock) (loop : NaturalLoop) (path : List ℕ)
    (start vu : Vu D) : Prop where
  header : path.head? = some loop.headerBlock
  inside : ∀ index ∈ path, index ∈ loop.blocks
  once : ∀ index ∈ path.tail, index ≠ loop.headerBlock
  edges : (path ++ [loop.headerBlock]).IsChain (Leads blocks)
  run : ∃ delayed, Run semantics upperTable micro fbrst (fun _ _ => True) start
    ((path.flatMap fun index => (blockAt blocks index).pairs).map (·.plan.pc)) (.running vu delayed)

/-- What the blocks that a path repeats add to the counter, less what those that it
leaves out would add. -/
def skew (blocks : List BasicBlock) (loop : NaturalLoop) (path : List ℕ) : ℤ :=
  (loop.blocks.map fun index =>
    ((path.count index : ℤ) - 1) * blockStep blocks loop.counterReg index).sum

lemma ofInt_eq_zero_iff {value : ℤ} : BitVec.ofInt 16 value = 0#16 ↔ (2 ^ 16 : ℤ) ∣ value := by
  rw [← BitVec.toNat_inj, BitVec.toNat_ofInt]
  change (value % (2 ^ 16 : ℕ)).toNat = 0 ↔ _
  omega

end Loops

/-! ### Two loops -/

/-- `IBNE` at 8 repeats the pairs from 0 on while register 3, which pair 0 increments,
differs from register 4. -/
def countMicro : Micro := microOf fun
  | 0 => some 0x10031801#32
  | 2 => some 0x52041ffe#32
  | 7 => some 0x400002ff#32
  | _ => none

/-- Register 3 is increased behind a branch at 0 that skips the increment when
registers 1 and 2 are equal; `IBNE` at 24 repeats the loop. -/
def skipMicro : Micro := microOf fun
  | 0 => some 0x50020802#32
  | 4 => some 0x10031801#32
  | 6 => some 0x52041ffc#32
  | 11 => some 0x400002ff#32
  | _ => none

/-- The loop of a program that has one, with a check of it. -/
def anyLoop (micro : Micro) (check : ProgramAnalysis → NaturalLoop → Bool) : Bool :=
  (analyzeGpuVu1Program (fun _ => none) micro 16 0).any fun analysis =>
    (findNaturalLoops 8 analysis).any fun loops => loops.any (check analysis)

lemma exists_of_anyLoop {micro : Micro} {check : ProgramAnalysis → NaturalLoop → Bool}
    (h : anyLoop micro check = true) :
    ∃ analysis loops loop, analyzeGpuVu1Program (fun _ => none) micro 16 0 = some analysis ∧
      findNaturalLoops 8 analysis = some loops ∧ loop ∈ loops ∧ check analysis loop = true := by
  obtain ⟨analysis, hanalysis, h⟩ := Option.any_eq_true _ _ |>.mp h
  obtain ⟨loops, hloops, h⟩ := Option.any_eq_true _ _ |>.mp h
  obtain ⟨loop, hloop, h⟩ := List.any_eq_true.mp h
  exact ⟨analysis, loops, loop, hanalysis, hloops, hloop, h⟩

/-- Edges as a check. -/
def leads (blocks : List BasicBlock) (source target : ℕ) : Bool :=
  (blockAt blocks source).successors.any fun edge => edge.targetBlock == some target &&
    edge.targetPc == (blockAt blocks target).startPc && !(blockAt blocks source).indirectBranch

lemma leads_of_leads {blocks : List BasicBlock} {source target : ℕ}
    (h : leads blocks source target = true) : Leads blocks source target := by
  obtain ⟨edge, hedge, h⟩ := List.any_eq_true.mp h
  simp only [Bool.and_eq_true, beq_iff_eq, Bool.not_eq_true'] at h
  exact ⟨edge, hedge, h.1.1, h.1.2, fun hindirect => by rw [h.2] at hindirect; cases hindirect⟩

end VitaSX2.Vu1
