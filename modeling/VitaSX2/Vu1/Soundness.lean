/-
The control-flow graph of a complete analysis is sound for the step machine.

A run is always at a pair of a block: before a delay slot no branch is under way and
the registers are those of the analysis; in a delay slot the edge that will be taken
is already decided.  Each step keeps this, over one edge where a block ends.
-/
import VitaSX2.Vu1.Path

namespace VitaSX2.Vu1

variable {D : Type} {semantics : Semantics D} {upperTable : UpperTable} {micro : Micro}
  {fbrst : BitVec 32}

/-- The blocks, the stable resolutions and the closed facts of a complete analysis. -/
structure Stable (upperTable : UpperTable) (micro : Micro) (resolutions : IndirectResolutionMap)
    (leaders : List ℕ) (blocks : List BasicBlock) (facts : ℕ → Option ViState) : Prop where
  built : Built upperTable micro resolutions leaders blocks
  closed : ∀ index, Dataflow.ClosedAt (viAnalysis blocks) ViState.Holds facts index
  covered : ∀ index state, facts index = some state → blockAt blocks index ∈ blocks →
    (blockAt blocks index).indirectBranch = true → 2 ≤ (blockAt blocks index).pairs.length →
    Covered resolutions ((blockAt blocks index).branchPc,
      inferResolution (blockAt blocks index) state)
  resolved : ∀ block ∈ blocks, block.unresolvedIndirect = false
  delay : ∀ block ∈ blocks, block.branchInDelaySlot = false
  exits : ∀ block ∈ blocks, block.hasExternalExit = false

variable {resolutions : IndirectResolutionMap} {leaders : List ℕ} {blocks : List BasicBlock}
  {facts : ℕ → Option ViState}

/-! ### The rest of a block -/

/-- A scan of the rest of a block, after the executed pairs. -/
structure Remaining (upperTable : UpperTable) (micro : Micro) (resolutions : IndirectResolutionMap)
    (leaders : List ℕ) (blocks : List BasicBlock) (block : BasicBlock)
    (executed : List ProgramPair) (pc : ℕ) (rest : PendingBlock) : Prop where
  scanned : Scanned upperTable micro resolutions block.startPc pc rest
  pairs : block.pairs = executed ++ rest.block.pairs
  links : rest.targets.mapM (linkEdge leaders) = some block.successors
  branchPc : block.branchPc = rest.block.branchPc
  indirectBranch : block.indirectBranch = rest.block.indirectBranch
  branchInDelaySlot : block.branchInDelaySlot = rest.block.branchInDelaySlot
  resumePc : block.resumePc = rest.block.resumePc
  hasExternalExit : rest.block.hasExternalExit = true → block.hasExternalExit = true
  mem : block ∈ blocks

/-- Before its first pair the whole block remains. -/
lemma exists_remaining (h : Built upperTable micro resolutions leaders blocks) {index start : ℕ}
    (hindex : leaders[index]? = some start) :
    (blockAt blocks index).startPc = start ∧
      ∃ rest, Remaining upperTable micro resolutions leaders blocks (blockAt blocks index) [] start
        rest ∧ rest.block.pairs ≠ [] := by
  obtain ⟨pending, hscanned, hpairs, hlink, hmem⟩ := h.at hindex
  obtain ⟨hsuccessors, hblock⟩ := linkBlock_eq_some hlink
  have hstart : (blockAt blocks index).startPc = start := by
    rw [hblock]
    exact startPc_of_scanned hscanned
  refine ⟨hstart, pending, ⟨hstart.symm ▸ hscanned, ?_, hsuccessors, ?_, ?_, ?_, ?_, ?_, hmem⟩,
    hpairs⟩
  all_goals
    rw [hblock]
    try rfl
  exact fun hexit => hexit

/-! ### The positions of a run -/

/-- Where the pair in a delay slot leads. -/
def Vu.after (vu : Vu D) : ℕ := if vu.branch = 1 then vu.branchpc % vu1ProgSize else nextPc vu.pc

/-- The registers before a pair of a block, as the analysis knows them. -/
def Known (facts : ℕ → Option ViState) (index : ℕ) (executed : List ProgramPair) (vi : ViFile) :
    Prop :=
  ∃ state, facts index = some state ∧ (executed.foldl applyPairViWrites state).Holds vi

/-- A run is at a pair outside a delay slot.  The countdown of an E-bit is over, or
the pair renews it. -/
structure AtPair (upperTable : UpperTable) (micro : Micro) (resolutions : IndirectResolutionMap)
    (leaders : List ℕ) (blocks : List BasicBlock) (facts : ℕ → Option ViState) (index : ℕ)
    (executed : List ProgramPair) (vu : Vu D) : Prop where
  remaining : ∃ rest, Remaining upperTable micro resolutions leaders blocks (blockAt blocks index)
    executed vu.pc rest ∧ rest.block.pairs ≠ []
  branch : vu.branch = 0
  takedelaybranch : vu.takedelaybranch = false
  ebit : vu.ebit = 0 ∨ vu.ebit = 1 ∧ pairEbit micro vu.pc = true
  known : Known facts index executed vu.vi

/-- A run is in a delay slot, and the block ends after this pair: with the program,
or over an edge. -/
structure AtDelay (upperTable : UpperTable) (micro : Micro) (leaders : List ℕ)
    (blocks : List BasicBlock) (facts : ℕ → Option ViState) (index : ℕ)
    (executed : List ProgramPair) (vu : Vu D) (delay : PairPlan) : Prop where
  pairs : (blockAt blocks index).pairs = executed ++ [⟨delay, true⟩]
  plan : decodePair upperTable micro vu.pc = some delay
  branches : delay.branches = false
  dflag : delay.dflag = false
  tflag : delay.tflag = false
  takedelaybranch : vu.takedelaybranch = false
  branch : vu.branch = 0 ∨ vu.branch = 1
  known : Known facts index executed vu.vi
  leaves : vu.ebit = 1 ∧ delay.ebit = false ∧
      (∃ edge ∈ (blockAt blocks index).successors, edge.kind = .programExit) ∧
      vu.after = (blockAt blocks index).resumePc ∨
    vu.ebit = 0 ∧ (delay.ebit = true → pairEbit micro vu.after = true) ∧
      ∃ target, Leads blocks index target ∧ leaders[target]? = some vu.after

lemma ebit_eq_pairEbit {pc : ℕ} {plan : PairPlan} (h : decodePair upperTable micro pc = some plan) :
    plan.ebit = pairEbit micro pc := by
  unfold decodePair analyzePair at h
  dsimp only at h
  split at h
  · split at h
    · cases h; rfl
    · obtain ⟨_, -, rfl⟩ := Option.map_eq_some_iff.mp h; rfl
  · obtain ⟨_, -, h⟩ := Option.bind_eq_some_iff.mp h
    split at h
    · cases h; rfl
    · split at h
      · cases h; rfl
      · obtain ⟨_, -, rfl⟩ := Option.map_eq_some_iff.mp h; rfl

lemma plan_pc {pc : ℕ} {plan : PairPlan} (h : decodePair upperTable micro pc = some plan) :
    plan.pc = pc % vu1ProgSize :=
  (analyzePair_spec h).1

lemma pc_lt (vu : Vu D) : vu.pc < vu1ProgSize := Nat.mod_lt _ (by decide)

/-- Entering a block over an edge. -/
lemma atPair_of_leads (h : Stable upperTable micro resolutions leaders blocks facts)
    {index target : ℕ} {vu : Vu D} (hleads : Leads blocks index target)
    (htarget : leaders[target]? = some vu.pc) (hbranch : vu.branch = 0)
    (htakedelay : vu.takedelaybranch = false)
    (hebit : vu.ebit = 0 ∨ vu.ebit = 1 ∧ pairEbit micro vu.pc = true)
    (hknown : Known facts index (blockAt blocks index).pairs vu.vi) :
    AtPair upperTable micro resolutions leaders blocks facts target [] vu := by
  obtain ⟨edge, hedge, hindex, -, -⟩ := hleads
  obtain ⟨state, hstate, hholds⟩ := hknown
  have hmem : target ∈ blockTargets blocks index := List.mem_filterMap.mpr ⟨edge, hedge, hindex⟩
  obtain ⟨reached, hreached, hweaker⟩ := h.closed index state hstate target hmem
  exact ⟨(exists_remaining h.built htarget).2, hbranch, htakedelay, hebit, reached, hreached,
    hweaker vu.vi hholds⟩

/-! ### Where a branch leads -/

section Successor

variable {plan delay : PairPlan} {vu : Vu D}

lemma jumpTarget_of_mod {x y : BitVec 16} (h : x.toNat % maxVu1Pairs = y.toNat % maxVu1Pairs) :
    jumpTarget x = jumpTarget y :=
  jumpTarget_congr h

/-- A jump through a register leads to the value that the analysis sees. -/
lemma successorPc_indirect (hregular : Regular semantics micro vu plan)
    (hbranches : plan.branches = true) (hindirect : isIndirectBranch plan.lowerKind = true)
    (hbranch : vu.branch = 0) :
    successorPc semantics plan vu = jumpTarget (vu.vi.read (viIs plan.lower)) := by
  have htarget : (vu.issue plan).target semantics plan =
      some ((((vu.issue plan).link plan).vi (viIs plan.lower)).toNat * 8) := by
    rw [Vu.target, if_pos hbranches, Vu.takes, if_pos hindirect]
  rw [successorPc, htarget]
  change jumpTarget (((vu.issue plan).link plan).vi (viIs plan.lower)) = _
  have hzero := hregular.zero hbranches hindirect
  -- Without a link of its own, the register is read as it is.
  have hread : jumpTarget (vu.vi (viIs plan.lower)) = jumpTarget (vu.vi.read (viIs plan.lower)) := by
    unfold ViFile.read
    split
    next heq =>
      rw [heq]
      exact jumpTarget_of_mod (hzero heq)
    next => rfl
  rw [← hread]
  cases hkind : plan.lowerKind with
  | jr => rw [Vu.link, hkind]; rfl
  | jalr =>
    have hlinked : ((vu.issue plan).link plan).vi =
        vu.vi.write (viIt plan.lower) (BitVec.ofNat 16 ((vu.pc + 8 + 8) / 8)) := by
      have hissue : (vu.issue plan).branch = 0 := hbranch
      rw [Vu.link, hkind]
      exact vi_writeBranchLink hissue _
    rw [hlinked]
    by_cases heq : viIs plan.lower = viIt plan.lower
    · by_cases hnonzero : viIs plan.lower = 0
      · rw [← heq, hnonzero, ViFile.write, if_pos rfl]
      · refine jumpTarget_of_mod ?_
        rw [hregular.link hbranches hkind heq hnonzero, ViFile.write, ← heq, if_neg hnonzero,
          Function.update_self, link_mod, afterDelay_div, Nat.mod_mod]
    · rw [ViFile.write_of_ne heq]
  | _ => rw [hkind] at hindirect; cases hindirect

lemma branchAddress_eq (pc : ℕ) (lower : BitVec 32) :
    branchAddress (pc + 8) lower % vu1ProgSize = branchTarget pc lower := by
  have hlt : branchAddress (pc + 8) lower < vu1ProgSize := by
    rw [branchAddress, Int.toNat_lt (Int.emod_nonneg _ (by decide))]
    exact Int.emod_lt_of_pos _ (by decide)
  rw [Nat.mod_eq_of_lt hlt]
  rfl

/-- An immediate branch leads to its target, or past its delay slot when it is
conditional. -/
lemma successorPc_immediate (hbranches : plan.branches = true)
    (hindirect : isIndirectBranch plan.lowerKind = false) :
    successorPc semantics plan vu = branchTarget vu.pc plan.lower ∨
      isConditionalImmediateBranch plan.lowerKind = true ∧
        successorPc semantics plan vu = afterDelay vu.pc := by
  have himmediate : isImmediateBranch plan.lowerKind = true := by
    rw [PairPlan.branches, isBranch, hindirect, Bool.or_false, Bool.and_eq_true] at hbranches
    exact hbranches.2
  have htpc : ((vu.issue plan).link plan).tpc = vu.pc + 8 := by rw [link_control]; rfl
  rw [successorPc, Vu.target, if_pos hbranches, Vu.takes, if_neg (by rw [hindirect]; simp),
    if_pos himmediate]
  by_cases hconditional : isConditionalImmediateBranch plan.lowerKind = true
  · split
    next target htaken =>
      split at htaken
      · cases htaken
        rw [htpc]
        exact Or.inl (branchAddress_eq _ _)
      · cases htaken
    next => exact Or.inr ⟨hconditional, rfl⟩
  · -- The unconditional branches are always taken.
    have hcondition : ∀ read, branchCondition read plan.lower plan.lowerKind = true := by
      intro read
      cases hkind : plan.lowerKind <;> rw [hkind] at hconditional <;>
        first | rfl | exact absurd rfl hconditional
    rw [if_pos (hcondition _), htpc]
    exact Or.inl (branchAddress_eq _ _)

/-- The successor of a branch without an E-bit is the target of an edge. -/
lemma exists_leads (h : Stable upperTable micro resolutions leaders blocks facts) {index : ℕ}
    {executed : List ProgramPair} {pending : PendingBlock} {discovered : List ℕ}
    (hplan : decodePair upperTable micro vu.pc = some plan)
    (hremaining : Remaining upperTable micro resolutions leaders blocks (blockAt blocks index)
      executed vu.pc pending)
    (hterminator : scanTerminator upperTable micro (blockAt blocks index).startPc resolutions plan =
      some (pending, discovered))
    (hregular : Regular semantics micro vu plan) (hbranch : vu.branch = 0)
    (hbranches : plan.branches = true) (hebit : plan.ebit = false)
    (hknown : Known facts index executed vu.vi) :
    ∃ target, Leads blocks index target ∧
      leaders[target]? = some (successorPc semantics plan vu) := by
  obtain ⟨delay, hdelay, heq⟩ := Option.map_eq_some_iff.mp hterminator
  cases heq
  have hpc : plan.pc = vu.pc := by rw [plan_pc hplan, Vu.pc, Nat.mod_mod]
  have hlinks := hremaining.links
  dsimp only at hlinks
  -- An edge to a target inside the image is one that the block takes.
  have hedge : ∀ kind pc, (kind, pc) ∈ terminatorTargets resolutions plan → kind ≠ .programExit →
      kind ≠ .externalExit → ((blockAt blocks index).indirectBranch = true →
        kind = .resolvedIndirect) →
      ∃ target, Leads blocks index target ∧ leaders[target]? = some pc := by
    intro kind pc hmem hprogram hexternal hkind
    obtain ⟨target, hmem, htarget⟩ := exists_edge hlinks hmem hprogram hexternal
    exact ⟨target, ⟨_, hmem, rfl, (exists_remaining h.built htarget).1.symm, hkind⟩, htarget⟩
  cases hindirect : isIndirectBranch plan.lowerKind with
  | false =>
    have hblock : (blockAt blocks index).indirectBranch = false := by
      rw [hremaining.indirectBranch, hindirect, Bool.and_false]
    have htargets : terminatorTargets resolutions plan =
        (.branchTaken, branchTarget plan.pc plan.lower) ::
          if isConditionalImmediateBranch plan.lowerKind then
            [(.branchNotTaken, afterDelay plan.pc)] else [] := by
      rw [terminatorTargets, hebit, hindirect]
      rfl
    rw [htargets] at hedge
    rcases successorPc_immediate hbranches hindirect with hsuccessor | ⟨hconditional, hsuccessor⟩
    · rw [hsuccessor, ← hpc]
      exact hedge _ _ List.mem_cons_self (fun h => by cases h) (fun h => by cases h)
        fun hcontra => absurd hcontra (by rw [hblock]; simp)
    · rw [hsuccessor, ← hpc]
      rw [if_pos hconditional] at hedge
      exact hedge _ _ (List.mem_cons_of_mem _ List.mem_cons_self) (fun h => by cases h)
        (fun h => by cases h) fun hcontra => absurd hcontra (by rw [hblock]; simp)
  | true =>
    have hblock : (blockAt blocks index).indirectBranch = true := by
      rw [hremaining.indirectBranch, hindirect, hbranches]
      rfl
    have hpairs : (blockAt blocks index).pairs = executed ++ [⟨plan, false⟩, ⟨delay, true⟩] :=
      hremaining.pairs
    have hlength : (blockAt blocks index).pairs.length = executed.length + 2 := by
      rw [hpairs, List.length_append]
      rfl
    obtain ⟨state, hstate, hholds⟩ := hknown
    obtain ⟨current, hcurrent, hcovers, hunresolved⟩ :=
      h.covered index state hstate hremaining.mem hblock (by omega)
    rw [hremaining.branchPc] at hcurrent
    have htargets : terminatorTargets resolutions plan = indirectTargets (resolutions plan.pc) := by
      rw [terminatorTargets, hebit, hindirect]
      rfl
    dsimp only at hcurrent
    rw [htargets, hcurrent] at hlinks hedge
    -- A complete graph has no exit at an indirect branch.
    have hresolved : ¬ (current.targets = [] ∨ current.unresolved = true) := by
      intro hexit
      have hmem : ((.externalExit, 0) : ControlEdgeKind × ℕ) ∈ indirectTargets (some current) := by
        rw [indirectTargets, if_pos hexit]
        exact List.mem_append_right _ List.mem_cons_self
      have hexit := exists_exit hlinks hmem (Or.inr rfl)
      have hblockResolved := h.resolved _ hremaining.mem
      rw [BasicBlock.unresolvedIndirect, hblock, Bool.true_and, List.any_eq_false] at hblockResolved
      exact hblockResolved _ hexit rfl
    -- The inferred targets hold the value that the register has.
    have hvalue := hholds (viIs plan.lower)
    have hbefore : beforeBranch (blockAt blocks index) state =
        executed.foldl applyPairViWrites state := by
      rw [beforeBranch, hlength, hpairs, Nat.add_sub_cancel, List.take_left']
      rfl
    have hlast : (blockAt blocks index).pairs[(blockAt blocks index).pairs.length - 2]? =
        some ⟨plan, false⟩ := by
      rw [hlength, hpairs, Nat.add_sub_cancel, List.getElem?_append_right le_rfl, Nat.sub_self]
      rfl
    have hinferred : inferResolution (blockAt blocks index) state =
        if (executed.foldl applyPairViWrites state (viIs plan.lower)).unknown ∨
            (executed.foldl applyPairViWrites state (viIs plan.lower)).values = [] then
          { unresolved := true }
        else
          { targets := ((executed.foldl applyPairViWrites state (viIs plan.lower)).values.map
              fun value => value * pairBytes % vu1ProgSize).foldl insertKey [] } := by
      rw [inferResolution, hlast]
      dsimp only
      rw [hbefore]
    have hfound : ¬ ((executed.foldl applyPairViWrites state (viIs plan.lower)).unknown ∨
        (executed.foldl applyPairViWrites state (viIs plan.lower)).values = []) := by
      intro hunknown
      rw [hinferred, if_pos hunknown] at hunresolved
      exact hresolved (Or.inr (hunresolved rfl))
    obtain ⟨known, hknown, hmod⟩ := hvalue.resolve_left fun hunknown => hfound (Or.inl hunknown)
    have hmem : successorPc semantics plan vu ∈ current.targets := by
      rw [successorPc_indirect hregular hbranches hindirect hbranch, jumpTarget_congr hmod]
      refine hcovers _ ?_
      dsimp only
      rw [hinferred, if_neg hfound]
      exact mem_foldl_insertKey.mpr (Or.inl (List.mem_map_of_mem hknown))
    refine hedge .resolvedIndirect _ ?_ (fun h => by cases h) (fun h => by cases h) fun _ => rfl
    exact List.mem_append_left _ (List.mem_map_of_mem hmem)

end Successor

end VitaSX2.Vu1
