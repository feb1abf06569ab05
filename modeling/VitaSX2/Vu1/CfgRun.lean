/-
Every run of regular steps follows the control-flow graph of a complete analysis.

The step lemmas move a position of a run by one pair; the run lemma collects the
positions into a path.
-/
import VitaSX2.Vu1.Soundness

namespace VitaSX2.Vu1

variable {D : Type} {semantics : Semantics D} {upperTable : UpperTable} {micro : Micro}
  {fbrst : BitVec 32} {resolutions : IndirectResolutionMap} {leaders : List ℕ}
  {blocks : List BasicBlock} {facts : ℕ → Option ViState} {index : ℕ}
  {executed : List ProgramPair} {vu : Vu D}

/-! ### One step -/

/-- The registers after a pair are known to the analysis. -/
lemma Known.next {vi : ViFile} {plan : PairPlan} {delayed : Bool} {vu' : Vu D}
    (h : Known facts index executed vu.vi) (hplan : decodePair upperTable micro vu.pc = some plan)
    (hbranch : delayed = false → vu.branch = 0)
    (hvi : vi = (executePair semantics plan (vu.issue plan)).vi) (hvu' : vu'.vi = vi) :
    Known facts index (executed ++ [⟨plan, delayed⟩]) vu'.vi := by
  obtain ⟨state, hstate, hholds⟩ := h
  refine ⟨state, hstate, ?_⟩
  rw [List.foldl_append, hvu', hvi]
  exact holds_applyPairViWrites hplan hholds hbranch

lemma pc_of_tpc {vu vu' : Vu D} (h : vu'.tpc = vu.pc + 8) : vu'.pc = nextPc vu.pc := by
  rw [Vu.pc, h]
  rfl

/-- What follows a pair outside a delay slot, once it is done. -/
lemma after_eq_successorPc {plan : PairPlan} {vu' : Vu D} (htpc : vu'.tpc = vu.pc + 8)
    (htarget : match (vu.issue plan).target semantics plan with
      | none => vu'.branch = 0
      | some target => vu'.branch = 1 ∧ vu'.branchpc = target) :
    vu'.after = successorPc semantics plan vu := by
  rw [Vu.after, successorPc]
  split at htarget
  next hnone =>
    rw [hnone, if_neg (by omega), pc_of_tpc htpc, nextPc_nextPc]
  next target hsome =>
    rw [hsome, if_pos htarget.1, htarget.2]

/-- A pair outside a delay slot is completed, and the run is at the next pair of the
block, at the first pair of the next block, or in the delay slot. -/
lemma step_atPair (h : Stable upperTable micro resolutions leaders blocks facts)
    (hat : AtPair upperTable micro resolutions leaders blocks facts index executed vu)
    (hregular : ∀ plan, decodePair upperTable micro vu.pc = some plan →
      Regular semantics micro vu plan) :
    ∃ vu' pair, step semantics upperTable micro fbrst vu = .pairCompleted vu' ∧
      pair.plan.pc = vu.pc ∧
      if opensDelaySlot upperTable micro vu.pc then
        ∃ delay, AtDelay upperTable micro leaders blocks facts index (executed ++ [pair]) vu' delay
      else
        AtPair upperTable micro resolutions leaders blocks facts index (executed ++ [pair]) vu' ∨
          (blockAt blocks index).pairs = executed ++ [pair] ∧ ∃ target,
            Leads blocks index target ∧
            AtPair upperTable micro resolutions leaders blocks facts target [] vu' := by
  obtain ⟨pending, hremaining, hne⟩ := hat.remaining
  have hexits := h.exits _ hremaining.mem
  have hscanned := hremaining.scanned
  generalize hpc : vu.pc = pc at hscanned
  cases hscanned with
  | fallthrough => exact absurd rfl hne
  | terminator _ plan _ discovered hplan hends hterminator =>
    subst hpc
    obtain ⟨delay, hdelay, heq⟩ := Option.map_eq_some_iff.mp hterminator
    have hplanPc : plan.pc = vu.pc := by rw [plan_pc hplan, Vu.pc, Nat.mod_mod]
    have hterminator' := hterminator
    have hremaining' := hremaining
    cases heq
    -- No pair of a complete graph is an observer.
    have hflags : plan.dflag = false ∧ plan.tflag = false ∧ delay.dflag = false ∧
        delay.tflag = false := by
      have hexit := mt hremaining.hasExternalExit (by rw [hexits]; exact Bool.false_ne_true)
      simpa [and_assoc] using hexit
    obtain ⟨hdflag, htflag, hdelayDflag, hdelayTflag⟩ := hflags
    have hopens : opensDelaySlot upperTable micro vu.pc = true := by
      rw [opensDelaySlot, hplan]
      by_contra hplain
      rw [Bool.or_eq_true, not_or, Bool.not_eq_true, Bool.not_eq_true] at hplain
      exact hends hplain
    have hcount : (vu.issue plan).ebit ≠ 1 := by
      change (if plan.ebit then 2 else vu.ebit) ≠ 1
      split
      next => decide
      next hebit =>
        rcases hat.ebit with hzero | ⟨-, hrenewed⟩
        · omega
        · rw [← ebit_eq_pairEbit hplan] at hrenewed
          exact absurd hrenewed hebit
    obtain ⟨vu', hstep, hvi, htpc, htake, hebit', htarget⟩ :=
      step_of_branch_zero hplan hdflag htflag hat.branch hcount
    have hafter := after_eq_successorPc htpc htarget
    have hregular := hregular plan hplan
    refine ⟨vu', ⟨plan, false⟩, hstep, hplanPc, ?_⟩
    rw [if_pos hopens]
    have hpairs : (blockAt blocks index).pairs = executed ++ [⟨plan, false⟩] ++ [⟨delay, true⟩] := by
      rw [hremaining.pairs, List.append_assoc]
      rfl
    have hdelayPlan : decodePair upperTable micro vu'.pc = some delay := by
      rw [pc_of_tpc htpc, ← hplanPc]
      exact hdelay
    have hnobranch : delay.branches = false := by
      rw [← h.delay _ hremaining.mem, hremaining.branchInDelaySlot]
    refine ⟨delay, hpairs, hdelayPlan, hnobranch, hdelayDflag, hdelayTflag,
      htake.trans hat.takedelaybranch, ?_, hat.known.next hplan (fun _ => hat.branch) rfl hvi, ?_⟩
    · split at htarget
      · exact Or.inl htarget
      · exact Or.inr htarget.1
    · have hdelayEbit : delay.ebit = pairEbit micro (nextPc vu.pc) := by
        rw [ebit_eq_pairEbit hdelayPlan, pc_of_tpc htpc]
      cases hebit : plan.ebit with
      | true =>
        have hexit : ((.programExit, 0) : ControlEdgeKind × ℕ) ∈
            terminatorTargets resolutions plan := by
          rw [terminatorTargets, if_pos hebit]
          exact List.mem_cons_self
        refine Or.inl ⟨?_, ?_, ⟨_, exists_exit hremaining.links hexit (Or.inl rfl), rfl⟩, ?_⟩
        · rw [hebit', Vu.issue]
          dsimp only
          rw [if_pos hebit]
        · rw [hdelayEbit]
          exact hregular.exit_delay hebit
        · rw [hafter, hregular.exit_target hebit, hremaining.resumePc]
          dsimp only
          rw [if_pos hebit, hplanPc, nextPc_nextPc]
      | false =>
        have hbranches : plan.branches = true := by
          by_contra hplain
          exact hends ⟨Bool.not_eq_true _ ▸ hplain, hebit⟩
        refine Or.inr ⟨?_, ?_, ?_⟩
        · have hissue : (vu.issue plan).ebit = vu.ebit := by
            rw [Vu.issue]
            dsimp only
            rw [if_neg (by rw [hebit]; exact Bool.false_ne_true)]
          rcases hat.ebit with hzero | ⟨-, hrenewed⟩
          · rw [hebit', hissue, hzero]
          · rw [← ebit_eq_pairEbit hplan, hebit] at hrenewed
            cases hrenewed
        · rw [hdelayEbit, hafter]
          exact hregular.branch_delay hebit hbranches
        · rw [hafter]
          exact exists_leads h hplan hremaining' hterminator' hregular hat.branch hbranches hebit
            hat.known
  | body _ plan rest hplan hplain hrest =>
    subst hpc
    have hplanPc : plan.pc = vu.pc := by rw [plan_pc hplan, Vu.pc, Nat.mod_mod]
    have hexit := mt hremaining.hasExternalExit (by rw [hexits]; exact Bool.false_ne_true)
    have hflags : (plan.dflag = false ∧ plan.tflag = false) ∧
        rest.block.hasExternalExit = false := by simpa using hexit
    have hopens : opensDelaySlot upperTable micro vu.pc = false := by
      rw [opensDelaySlot, hplan]
      dsimp only
      rw [hplain.1, hplain.2]
      rfl
    have hissue : (vu.issue plan).ebit = vu.ebit := by
      rw [Vu.issue]
      dsimp only
      rw [if_neg (by rw [hplain.2]; exact Bool.false_ne_true)]
    have hzero : vu.ebit = 0 := by
      rcases hat.ebit with hzero | ⟨-, hrenewed⟩
      · exact hzero
      · rw [← ebit_eq_pairEbit hplan, hplain.2] at hrenewed
        cases hrenewed
    obtain ⟨vu', hstep, hvi, htpc, htake, hebit', htarget⟩ :=
      step_of_branch_zero hplan hflags.1.1 hflags.1.2 hat.branch (by omega)
    rw [Vu.target, hplain.1, if_neg Bool.false_ne_true] at htarget
    refine ⟨vu', ⟨plan, false⟩, hstep, hplanPc, ?_⟩
    rw [hopens, if_neg Bool.false_ne_true]
    have hclear : vu'.takedelaybranch = false := htake.trans hat.takedelaybranch
    have hebit : vu'.ebit = 0 := by omega
    have hknown : Known facts index (executed ++ [⟨plan, false⟩]) vu'.vi :=
      hat.known.next hplan (fun _ => hat.branch) rfl hvi
    have hnext : Remaining upperTable micro resolutions leaders blocks (blockAt blocks index)
        (executed ++ [⟨plan, false⟩]) vu'.pc rest :=
      { scanned := pc_of_tpc htpc ▸ hrest
        pairs := by rw [hremaining.pairs, List.append_assoc]; rfl
        links := hremaining.links
        branchPc := hremaining.branchPc
        indirectBranch := hremaining.indirectBranch
        branchInDelaySlot := hremaining.branchInDelaySlot
        resumePc := hremaining.resumePc
        hasExternalExit := fun hexit => by rw [hflags.2] at hexit; cases hexit
        mem := hremaining.mem }
    by_cases hlast : rest.block.pairs = []
    · -- Nothing remains: the block ends at a leader.
      have hpairs : (blockAt blocks index).pairs = executed ++ [⟨plan, false⟩] := by
        rw [hnext.pairs, hlast, List.append_nil]
      have hscanned := hnext.scanned
      generalize hpc : vu'.pc = pc at hscanned
      cases hscanned with
      | fallthrough =>
        subst hpc
        obtain ⟨target, hedge, hleader⟩ := exists_edge hnext.links List.mem_cons_self
          (fun h => by cases h) (fun h => by cases h)
        have hleads : Leads blocks index target :=
          ⟨_, hedge, rfl, (exists_remaining h.built hleader).1.symm,
            fun hindirect => by rw [hnext.indirectBranch] at hindirect; cases hindirect⟩
        exact Or.inr ⟨hpairs, target, hleads, atPair_of_leads h hleads hleader htarget hclear
          (Or.inl hebit) (hpairs ▸ hknown)⟩
      | terminator _ _ _ _ _ _ hterminator =>
        obtain ⟨delay, -, heq⟩ := Option.map_eq_some_iff.mp hterminator
        cases heq
        cases hlast
      | body => cases hlast
    · exact Or.inl ⟨⟨rest, hnext, hlast⟩, htarget, hclear, Or.inl hebit, hknown⟩

/-- The pair in a delay slot finishes the program, or is followed by the block of an
edge. -/
lemma step_atDelay (h : Stable upperTable micro resolutions leaders blocks facts)
    {delay : PairPlan}
    (hat : AtDelay upperTable micro leaders blocks facts index executed vu delay) :
    ∃ vu', step semantics upperTable micro fbrst vu = .programFinished vu' ∧
        (∃ edge ∈ (blockAt blocks index).successors, edge.kind = .programExit) ∧
        vu'.pc = (blockAt blocks index).resumePc ∨
      step semantics upperTable micro fbrst vu = .pairCompleted vu' ∧ ∃ target,
        Leads blocks index target ∧
        AtPair upperTable micro resolutions leaders blocks facts target [] vu' := by
  obtain ⟨vu', hstep, hvi, htpc, htake, hebit, hbranch⟩ :=
    step_of_not_branches hat.plan hat.dflag hat.tflag hat.branches hat.branch hat.takedelaybranch
  have hpc : vu'.pc = vu.after := by
    rw [Vu.pc, htpc, Vu.after]
    split <;> rfl
  rcases hat.leaves with ⟨hone, hdelayEbit, hexit, hafter⟩ | ⟨hzero, hrenewed, target, hleads, htarget⟩
  · have hcount : vu'.ebit = 1 := by
      rw [hebit, Vu.issue]
      dsimp only
      rw [hdelayEbit, if_neg Bool.false_ne_true, hone]
    rw [hstep, Vu.retireEbit, if_pos hcount]
    exact ⟨_, Or.inl ⟨rfl, hexit, hpc.trans hafter⟩⟩
  · have hcount : vu'.ebit = 0 ∨ vu'.ebit = 2 ∧ delay.ebit = true := by
      rw [hebit, Vu.issue]
      dsimp only
      split
      next hdelayEbit => exact Or.inr ⟨rfl, hdelayEbit⟩
      next => exact Or.inl hzero
    rw [hstep, retireEbit_of_ne (by omega)]
    refine ⟨_, Or.inr ⟨rfl, target, hleads, ?_⟩⟩
    refine atPair_of_leads h hleads (hpc ▸ htarget) hbranch htake ?_ ?_
    · rcases hcount with hcount | ⟨hcount, hdelayEbit⟩
      · exact Or.inl (by rw [hcount])
      · exact Or.inr ⟨by rw [hcount], hpc ▸ hrenewed hdelayEbit⟩
    · rw [hat.pairs]
      exact hat.known.next hat.plan (fun h => by cases h) rfl hvi

/-! ### Runs -/

lemma pairSequence_snoc (path : List ℕ) (executed : List ProgramPair) (pair : ProgramPair) :
    pairSequence blocks path (executed ++ [pair]) =
      pairSequence blocks path executed ++ [pair.plan.pc] := by
  rw [pairSequence, ← List.append_assoc, List.map_append]
  rfl

/-- A block that has been executed to its end joins the path. -/
lemma pairSequence_leave (path : List ℕ) (index : ℕ) :
    pairSequence blocks (path ++ [index]) [] =
      pairSequence blocks path (blockAt blocks index).pairs := by
  rw [pairSequence, pairSequence, List.flatMap_append, List.append_nil, List.flatMap_singleton]

/-- Where a run is, after the blocks of a path. -/
def Located (upperTable : UpperTable) (micro : Micro) (resolutions : IndirectResolutionMap)
    (leaders : List ℕ) (blocks : List BasicBlock) (facts : ℕ → Option ViState) (entry : ℕ)
    (pcs : List ℕ) (vu : Vu D) (delayed : Bool) : Prop :=
  ∃ path index executed, Path blocks entry path index ∧ pcs = pairSequence blocks path executed ∧
    if delayed then
      ∃ delay, AtDelay upperTable micro leaders blocks facts index executed vu delay
    else AtPair upperTable micro resolutions leaders blocks facts index executed vu

/-- A located run goes on: a completed pair keeps it located, and a finished program
has taken the exit of its block. -/
lemma step_located (h : Stable upperTable micro resolutions leaders blocks facts) {entry : ℕ}
    {pcs : List ℕ} {delayed : Bool}
    (hat : Located upperTable micro resolutions leaders blocks facts entry pcs vu delayed)
    (hregular : RegularStep semantics upperTable micro delayed vu) :
    ∃ vu', step semantics upperTable micro fbrst vu = .programFinished vu' ∧
        FollowsCfg semantics upperTable micro fbrst blocks entry (pcs ++ [vu.pc]) (.finished vu') ∨
      step semantics upperTable micro fbrst vu = .pairCompleted vu' ∧
        Located upperTable micro resolutions leaders blocks facts entry (pcs ++ [vu.pc]) vu'
          (!delayed && opensDelaySlot upperTable micro vu.pc) := by
  obtain ⟨path, index, executed, hpath, rfl, hat⟩ := hat
  cases delayed with
  | false =>
    rw [if_neg Bool.false_ne_true] at hat
    obtain ⟨vu', pair, hstep, hpc, hnext⟩ := step_atPair h hat (hregular rfl)
    refine ⟨vu', Or.inr ⟨hstep, ?_⟩⟩
    rw [← hpc, ← pairSequence_snoc, hpc, Bool.not_false, Bool.true_and]
    cases hopens : opensDelaySlot upperTable micro vu.pc with
    | true =>
      rw [hopens, if_pos rfl] at hnext
      exact ⟨path, index, _, hpath, rfl, hnext⟩
    | false =>
      rw [hopens, if_neg Bool.false_ne_true] at hnext
      rcases hnext with hnext | ⟨hpairs, target, hleads, hnext⟩
      · exact ⟨path, index, _, hpath, rfl, hnext⟩
      · refine ⟨path ++ [index], target, [], hpath.next hleads, ?_, hnext⟩
        rw [pairSequence_leave, hpairs]
  | true =>
    obtain ⟨delay, hat⟩ := hat
    have hpc : delay.pc = vu.pc := by rw [plan_pc hat.plan, Vu.pc, Nat.mod_mod]
    have hwhole : pairSequence blocks path executed ++ [vu.pc] =
        pairSequence blocks path (blockAt blocks index).pairs := by
      rw [hat.pairs, pairSequence_snoc, hpc]
    obtain ⟨vu', ⟨hstep, hexit, hresume⟩ | ⟨hstep, target, hleads, hnext⟩⟩ := step_atDelay h hat
    · exact ⟨vu', Or.inl ⟨hstep, path, index, hpath, hwhole, hexit, hresume⟩⟩
    · refine ⟨vu', Or.inr ⟨hstep, path ++ [index], target, [], hpath.next hleads, ?_, hnext⟩⟩
      rw [pairSequence_leave, hwhole]

lemma proceeds_of_plan {plan : PairPlan} (hplan : decodePair upperTable micro vu.pc = some plan)
    (hdflag : plan.dflag = false) (htflag : plan.tflag = false) :
    Proceeds (step semantics upperTable micro fbrst vu) := by
  rw [step_eq hplan hdflag htflag, Vu.retireEbit]
  split
  · exact ⟨_, Or.inr rfl⟩
  · exact ⟨_, Or.inl rfl⟩

/-- The rest of a block starts with a pair that is no observer. -/
lemma Remaining.exists_plan (h : Stable upperTable micro resolutions leaders blocks facts) {pc : ℕ}
    {rest : PendingBlock}
    (hremaining : Remaining upperTable micro resolutions leaders blocks (blockAt blocks index)
      executed pc rest) (hne : rest.block.pairs ≠ []) :
    ∃ plan, decodePair upperTable micro pc = some plan ∧ plan.dflag = false ∧
      plan.tflag = false := by
  have hexit := mt hremaining.hasExternalExit
    (by rw [h.exits _ hremaining.mem]; exact Bool.false_ne_true)
  have hscanned := hremaining.scanned
  cases hscanned with
  | fallthrough => exact absurd rfl hne
  | terminator _ plan _ _ hplan _ hterminator =>
    obtain ⟨delay, -, heq⟩ := Option.map_eq_some_iff.mp hterminator
    cases heq
    simp only [Bool.or_eq_true, not_or, Bool.not_eq_true, and_assoc] at hexit
    exact ⟨plan, hplan, hexit.1, hexit.2.1⟩
  | body _ plan rest hplan =>
    simp only [Bool.or_eq_true, not_or, Bool.not_eq_true, and_assoc] at hexit
    exact ⟨plan, hplan, hexit.1, hexit.2.1⟩

/-- A located run is inside a block, and its next step executes a pair. -/
lemma Located.follows (h : Stable upperTable micro resolutions leaders blocks facts) {entry : ℕ}
    {pcs : List ℕ} {delayed : Bool}
    (hat : Located upperTable micro resolutions leaders blocks facts entry pcs vu delayed) :
    FollowsCfg semantics upperTable micro fbrst blocks entry pcs (.running vu delayed) := by
  obtain ⟨path, index, executed, hpath, hpcs, hat⟩ := hat
  cases delayed with
  | false =>
    rw [if_neg Bool.false_ne_true] at hat
    obtain ⟨rest, hremaining, hne⟩ := hat.remaining
    obtain ⟨plan, hplan, hdflag, htflag⟩ := hremaining.exists_plan h hne
    exact ⟨path, index, executed, rest.block.pairs, hpath, hremaining.pairs, hne, hpcs,
      proceeds_of_plan hplan hdflag htflag⟩
  | true =>
    obtain ⟨delay, hat⟩ := hat
    exact ⟨path, index, executed, [⟨delay, true⟩], hpath, hat.pairs, List.cons_ne_nil _ _, hpcs,
      proceeds_of_plan hat.plan hat.dflag hat.tflag⟩

/-- A run of regular steps stays located, and ends where an exit is taken. -/
lemma located_of_run (h : Stable upperTable micro resolutions leaders blocks facts) {entry : ℕ}
    {start : Vu D} (hstart : AtPair upperTable micro resolutions leaders blocks facts entry [] start)
    {pcs : List ℕ} {outcome : Outcome D}
    (hrun : Run semantics upperTable micro fbrst (RegularStep semantics upperTable micro) start pcs
      outcome) :
    match outcome with
    | .running vu delayed =>
      Located upperTable micro resolutions leaders blocks facts entry pcs vu delayed
    | .finished vu =>
      FollowsCfg semantics upperTable micro fbrst blocks entry pcs (.finished vu) := by
  induction hrun with
  | start => exact ⟨[], entry, [], .start, rfl, hstart⟩
  | pair _ hregular hstep ih =>
    obtain ⟨vu', ⟨hfinished, -⟩ | ⟨hcompleted, hlocated⟩⟩ := step_located h ih hregular
    · rw [hstep] at hfinished
      cases hfinished
    · rw [hstep] at hcompleted
      cases hcompleted
      exact hlocated
  | finish _ hregular hstep ih =>
    obtain ⟨vu', ⟨hfinished, hfollows⟩ | ⟨hcompleted, -⟩⟩ := step_located h ih hregular
    · rw [hstep] at hfinished
      cases hfinished
      exact hfollows
    · rw [hstep] at hcompleted
      cases hcompleted

/-! ### The analysis -/

/-- The flags of a complete analysis. -/
lemma complete_spec {startPc : ℕ} (h : (summarize startPc blocks).completeCfg = true) :
    (∀ block ∈ blocks, block.unresolvedIndirect = false) ∧
      (∀ block ∈ blocks, block.branchInDelaySlot = false) ∧
        ∀ block ∈ blocks, block.hasExternalExit = false := by
  simpa only [summarize, Bool.and_eq_true, Bool.not_eq_true', List.any_eq_false,
    Bool.not_eq_true, and_assoc] using h

/-- The result of an analysis: the blocks of a stable build, one of which starts at
the start address. -/
lemma analyze_spec {fuel startPc : ℕ} {analysis : ProgramAnalysis}
    (h : analyzeGpuVu1Program upperTable micro fuel startPc = some analysis) :
    ∃ blocks, buildBlocks upperTable micro fuel (startPc % vu1ProgSize) (maxVu1Pairs + 1)
        (fun _ => none) = some blocks ∧
      (∃ block ∈ blocks, block.startPc = startPc % vu1ProgSize) ∧
        analysis = summarize (startPc % vu1ProgSize) blocks := by
  unfold analyzeGpuVu1Program at h
  split at h
  next => cases h
  next =>
    obtain ⟨blocks, hblocks, h⟩ := Option.bind_eq_some_iff.mp h
    split at h
    next hentry =>
      cases h
      obtain ⟨block, hblock, hstart⟩ := List.any_eq_true.mp hentry
      exact ⟨blocks, hblocks, ⟨block, hblock, of_decide_eq_true hstart⟩, rfl⟩
    next => cases h

/-- A complete analysis is stable, and its start block is reached with the registers
of the start. -/
lemma exists_stable {fuel startPc : ℕ}
    (hblocks : buildBlocks upperTable micro fuel (startPc % vu1ProgSize) (maxVu1Pairs + 1)
      (fun _ => none) = some blocks)
    (hentry : ∃ block ∈ blocks, block.startPc = startPc % vu1ProgSize)
    (hcomplete : (summarize (startPc % vu1ProgSize) blocks).completeCfg = true) :
    ∃ resolutions leaders facts entry,
      Stable upperTable micro resolutions leaders blocks facts ∧
        leaders[entry]? = some (startPc % vu1ProgSize) ∧
        Dataflow.ReachedBy ViState.Holds facts entryViState entry := by
  obtain ⟨hresolved, hdelay, hexits⟩ := complete_spec hcomplete
  obtain ⟨resolutions, inferred, hbuild, hinfer, hcovered⟩ := buildBlocks_spec hblocks
  obtain ⟨leaders, hbuilt⟩ := exists_built hbuild
  obtain ⟨block, hblock, hstart⟩ := hentry
  cases hfind : blocks.findIdx? (·.startPc = startPc % vu1ProgSize) with
  | none =>
    rw [List.findIdx?_eq_none_iff] at hfind
    exact absurd hstart (of_decide_eq_false (hfind block hblock))
  | some entry =>
    rw [inferIndirectResolutions, hfind] at hinfer
    obtain ⟨facts, hfacts, rfl⟩ := Option.map_eq_some_iff.mp hinfer
    obtain ⟨hreached, hclosed⟩ := Dataflow.solveFrom_spec (lawfulJoin blocks) hfacts
    obtain ⟨hlt, hpc, -⟩ := List.findIdx?_eq_some_iff_getElem.mp hfind
    have hleader : entry < leaders.length := (List.Forall₂.length_eq hbuilt).symm ▸ hlt
    refine ⟨resolutions, leaders, facts, entry, ⟨hbuilt, hclosed, ?_, hresolved, hdelay, hexits⟩,
      ?_, hreached⟩
    · intro index state hstate hmem hindirect hlength
      refine hcovered _ (List.mem_filterMap.mpr ⟨index, List.mem_range.mpr ?_, ?_⟩)
      · -- An index outside the list has no branch.
        by_contra hout
        rw [blockAt, List.getD_eq_getElem?_getD, List.getElem?_eq_none (Nat.not_lt.mp hout)]
          at hindirect
        cases hindirect
      · rw [inferBlock, hstate]
        exact if_pos ⟨hindirect, hlength⟩
    · have hat := (exists_remaining hbuilt (List.getElem?_eq_getElem hleader)).1
      rw [List.getElem?_eq_getElem hleader, ← hat, blockAt, List.getD_eq_getElem?_getD,
        List.getElem?_eq_getElem hlt]
      exact congrArg some (of_decide_eq_true hpc)

/-- A run of regular steps from the start address follows the graph. -/
lemma follows_of_stable {startPc entry : ℕ}
    (h : Stable upperTable micro resolutions leaders blocks facts)
    (hleader : leaders[entry]? = some (startPc % vu1ProgSize))
    (hreached : Dataflow.ReachedBy ViState.Holds facts entryViState entry) {start : Vu D}
    (hstarts : Starts (startPc % vu1ProgSize) start) {pcs : List ℕ} {outcome : Outcome D}
    (hrun : Run semantics upperTable micro fbrst (RegularStep semantics upperTable micro) start pcs
      outcome) :
    FollowsCfg semantics upperTable micro fbrst blocks entry pcs outcome := by
  obtain ⟨reached, hreached, hweaker⟩ := hreached
  obtain ⟨-, rest, hremaining, hne⟩ := exists_remaining h.built hleader
  have hpc : start.pc = startPc % vu1ProgSize := hstarts.pc.trans (Nat.mod_mod _ _)
  have hat : AtPair upperTable micro resolutions leaders blocks facts entry [] start :=
    { remaining := ⟨rest, hpc ▸ hremaining, hne⟩
      branch := hstarts.branch
      takedelaybranch := hstarts.takedelaybranch
      ebit := Or.inl hstarts.ebit
      known := ⟨reached, hreached, hweaker _ (holds_entryViState _)⟩ }
  have hlocated := located_of_run h hat hrun
  cases outcome with
  | running vu delayed => exact hlocated.follows h
  | finished vu => exact hlocated

/-- The words of an image: no-operations but for the listed lower and upper words. -/
def microOf (words : ℕ → Option (BitVec 32)) : Micro := fun address =>
  ((words (address / 4)).getD (if address / 4 % 2 = 0 then 0x8000033c#32 else 0x000002ff#32)).extractLsb'
    (8 * (address % 4)) 8

/-- The machine without data. -/
def bareSemantics : Semantics Unit where
  data _ _ _ := ()
  loaded _ _ _ := 0
  viBackup _ _ _ := none

/-- A call at 0 of a routine at 40 that returns to 16, where the program ends. -/
def callMicro : Micro := microOf fun
  | 0 => some 0x42010004#32
  | 5 => some 0x400002ff#32
  | 10 => some 0x48000800#32
  | _ => none

/-- A branch from 0 to 24 with an E-bit. -/
def exitBranchMicro : Micro := microOf fun
  | 0 => some 0x40000002#32
  | 1 => some 0x400002ff#32
  | _ => none

end VitaSX2.Vu1
