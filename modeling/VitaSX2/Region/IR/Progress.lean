/-
`Interpret` returns on every verified program.

A verified program has every exit, every edge target and every access that the
machine asks for, so a run ends at an exit of the program, at the end of its
block budget, or at a callback that fails, and no later than its budget allows.
-/
import VitaSX2.Region.IR.Types

namespace VitaSX2.RegionIR

/-! ### Ends of a run -/

/-- Callbacks that are there and never fail. -/
def RegionMemoryInterface.Reliable {σ : Type} (memory : RegionMemoryInterface σ) : Prop :=
  (∃ read, memory.read = some read ∧ ∀ context request, (read context request).1.isSome) ∧
    ∃ write, memory.write = some write ∧ ∀ context request value,
      (write context request value).1 = true

/-- The texts of the errors that a callback can cause. -/
def callbackErrors : List String :=
  ["direct memory load lacks a read callback", "direct memory load callback failed",
    "direct memory store lacks a write callback", "direct memory store callback failed"]

section Machine

variable {σ : Type} (float : FloatUnit) (program : Program) (options : InterpretOptions σ)

/-- The ends of a run that are no defect of the program. -/
inductive Outcome.Proper : Outcome σ → Prop
  | completed {out : CanonicalState} {result : InterpretResult} (hcompleted : result.completed = true)
      (herror : result.error = none) : Proper (.finished (some out) result)
  | budget {out : CanonicalState} {result : InterpretResult} (hcompleted : result.completed = false)
      (herror : result.error = some "Region IR execution exceeded its validation block budget")
      (hspent : result.blocksExecuted = options.maxBlockExecutions) :
      Proper (.finished (some out) result)
  | callback {result : InterpretResult} {error : String} (hcompleted : result.completed = false)
      (herror : result.error = some error) (htext : error ∈ callbackErrors)
      (hunreliable : ∃ memory, options.memory = some memory ∧ ¬ memory.Reliable) :
      Proper (.finished none result)

/-- The outcome after at most a number of steps. -/
def Outcome.run : ℕ → Outcome σ → Outcome σ
  | n + 1, .next c => Outcome.run n (step float program options c)
  | _, outcome => outcome

/-- The number of nodes of the longest block. -/
def Program.longestBlock : ℕ := (program.blocks.map fun block => block.nodes.length).foldr max 0

/-- The steps that are left before the budget is spent. -/
def Configuration.stepsLeft (c : Configuration σ) : ℕ :=
  (options.maxBlockExecutions - c.blocksExecuted) * (program.longestBlock + 1) +
    (program.longestBlock - c.index) + 1

variable {float program options}

lemma length_le_longestBlock {index : ℕ} {block : Block}
    (h : program.blocks[index]? = some block) : block.nodes.length ≤ program.longestBlock := by
  have hmem := List.mem_of_getElem? h
  unfold Program.longestBlock
  generalize program.blocks = blocks at hmem
  induction blocks with
  | nil => cases hmem
  | cons head rest ih =>
    rcases List.mem_cons.mp hmem with rfl | hmem
    · exact le_max_left _ _
    · exact (ih hmem).trans (le_max_right _ _)

/-! ### Steps -/

/-- A step goes on within its budget or ends properly. -/
def Outcome.Sound (options : InterpretOptions σ) (program : Program) (c : Configuration σ) :
    Outcome σ → Prop
  | .next c' => (∃ block, program.blocks[c'.block]? = some block) ∧ parameterCount ≤ c'.index ∧
      c'.blocksExecuted ≤ options.maxBlockExecutions ∧
      c'.stepsLeft program options < c.stepsLeft program options
  | outcome => outcome.Proper options

/-! ### Exits -/

variable {c : Configuration σ} {block : Block} {node : Node}

lemma sound_leave (transfer : Transfer) (reason : ExitReason) (address : BitVec 32) :
    (c.leave block transfer reason address).Sound options program c :=
  .completed rfl rfl

lemma findExit_of_check {exits : List OperationExit} {index : ℕ} {reason : ExitReason}
    (hcheck : block.checkOperation exits index node reason = true) :
    ∃ found, findExit exits node = some found := by
  unfold Block.checkOperation at hcheck
  split at hcheck
  next only honly =>
    have hmem : only ∈ exits.filter fun candidate => candidate.operation == node.id := by
      rw [honly]
      exact List.mem_singleton_self _
    obtain ⟨hmem, howner⟩ := List.mem_filter.mp hmem
    exact Option.isSome_iff_exists.mp (List.find?_isSome.mpr ⟨only, hmem, howner⟩)
  next => cases hcheck

lemma sound_exitBeforeMemory {index : ℕ} {reason : ExitReason}
    (hcheck : block.checkOperation block.memoryExits index node reason = true)
    (address : BitVec 32) (exitReason : ExitReason) :
    (exitBeforeMemory block node address exitReason c).Sound options program c := by
  obtain ⟨found, hfound⟩ := findExit_of_check hcheck
  simp only [exitBeforeMemory, hfound]
  exact sound_leave _ _ _

/-! ### Accesses -/

lemma loadedBits_isSome {kind : MemoryAccessKind} (h : kind.isLoad = true) (oldValue raw : U128) :
    ∃ loaded, loadedBits kind oldValue raw = some loaded := by
  cases kind <;> first | exact ⟨_, rfl⟩ | cases h

/-- A configuration in front of a node. -/
structure Configuration.Ready (c : Configuration σ) (program : Program)
    (options : InterpretOptions σ) (block : Block) (node : Node) : Prop where
  block_eq : program.blocks[c.block]? = some block
  node_eq : block.nodes[c.index]? = some node
  executable : parameterCount ≤ c.index
  budget : c.blocksExecuted ≤ options.maxBlockExecutions

/-- Going on to the next node. -/
lemma Configuration.Ready.sound_next (hready : c.Ready program options block node)
    {c' : Configuration σ} (hblock : c'.block = c.block) (hindex : c'.index = c.index + 1)
    (hexecuted : c'.blocksExecuted = c.blocksExecuted) :
    (Outcome.next c').Sound options program c := by
  have hlt : c.index < block.nodes.length := (List.getElem?_eq_some_iff.mp hready.node_eq).1
  have hlongest := length_le_longestBlock hready.block_eq
  refine ⟨⟨block, by rw [hblock, hready.block_eq]⟩, by rw [hindex]; exact hready.executable.step,
    by rw [hexecuted]; exact hready.budget, ?_⟩
  unfold Configuration.stepsLeft
  rw [hexecuted, hindex]
  omega

lemma sound_performAccess {memory : RegionMemoryInterface σ} {kind : MemoryAccessKind}
    {request : MemoryRequest} {context : σ} (hready : c.Ready program options block node)
    (hmemory : options.memory = some memory)
    (hload : node.opcode = .memoryLoad → kind.isLoad = true) :
    (performAccess memory node kind request { c with memory := context }).Sound options program c := by
  have hfail : ∀ {error : String} {context : σ}, error ∈ callbackErrors → ¬ memory.Reliable →
      (Configuration.fail { c with memory := context } error).Sound options program c :=
    fun htext hunreliable => .callback rfl rfl htext ⟨memory, hmemory, hunreliable⟩
  unfold performAccess
  split
  next hopcode =>
    split
    next hread =>
      refine hfail (by simp [callbackErrors]) fun hreliable => ?_
      obtain ⟨⟨read, hsome, -⟩, -⟩ := hreliable
      rw [hread] at hsome
      cases hsome
    next read hread =>
      split
      next hnone =>
        refine hfail (by simp [callbackErrors]) fun hreliable => ?_
        obtain ⟨⟨read', hsome, hanswer⟩, -⟩ := hreliable
        rw [hread] at hsome
        cases hsome
        have := hanswer context request
        rw [hnone] at this
        cases this
      next raw _ _ =>
        obtain ⟨loaded, hloaded⟩ := loadedBits_isSome (hload hopcode) (node.operand c.values 2) raw
        simp only [hloaded]
        exact hready.sound_next rfl rfl rfl
  next =>
    split
    next hwrite =>
      refine hfail (by simp [callbackErrors]) fun hreliable => ?_
      obtain ⟨-, write, hsome, -⟩ := hreliable
      rw [hwrite] at hsome
      cases hsome
    next write hwrite =>
      split
      next hfalse =>
        refine hfail (by simp [callbackErrors]) fun hreliable => ?_
        obtain ⟨-, write', hsome, hanswer⟩ := hreliable
        rw [hwrite] at hsome
        cases hsome
        have := hanswer context request (node.operand c.values 2)
        rw [hfalse] at this
        cases this
      next => exact hready.sound_next rfl rfl rfl

lemma sound_executeMemory (hready : c.Ready program options block node) {load : Bool}
    (hcheck : block.checkMemory c.index node = true)
    (haccess : block.checkAccess c.index node load = true)
    (hload : node.opcode = .memoryLoad → load = true) :
    (executeMemory options block node c).Sound options program c := by
  simp only [Block.checkMemory, Bool.and_eq_true] at hcheck
  simp only [Block.checkAccess, Option.any_eq_true, Bool.and_eq_true, beq_iff_eq] at haccess
  obtain ⟨kind, hkind, hisLoad, -⟩ := haccess
  unfold executeMemory
  simp only [hkind]
  split
  next => exact sound_exitBeforeMemory hcheck.2 _ _
  next =>
    split
    next => exact sound_exitBeforeMemory hcheck.2 _ _
    next memory probe hprobe =>
      obtain ⟨memory', hmemory, hprobe⟩ := Option.bind_eq_some_iff.mp hprobe
      obtain ⟨probe', -, hpair⟩ := Option.map_eq_some_iff.mp hprobe
      cases hpair
      split
      next => exact sound_performAccess hready hmemory fun h => by rw [hisLoad, hload h]
      all_goals exact sound_exitBeforeMemory hcheck.2 _ _

/-! ### Nodes and edges -/

lemma sound_executeNode (float : FloatUnit) (hb : VerifiedBlock program block)
    (hwidth : block.checkWidth node c.index = true) (hready : c.Ready program options block node) :
    (executeNode float program options block node c).Sound options program c := by
  have hcheck := hb.node c.index node hready.executable hready.node_eq
  unfold Block.checkNode at hcheck
  rw [Bool.and_eq_true] at hcheck
  replace hcheck := hcheck.2
  unfold executeNode
  split
  next => exact hready.sound_next rfl rfl rfl
  next =>
    split
    next hopcode =>
      simp only [hopcode] at hcheck
      split
      next =>
        obtain ⟨found, hfound⟩ := findExit_of_check hcheck
        simp only [exitBeforeObserver, hfound]
        exact sound_leave _ _ _
      next => exact hready.sound_next rfl rfl rfl
    next hopcode =>
      simp only [hopcode] at hcheck
      simp only [Block.checkWidth, hopcode] at hwidth
      exact sound_executeMemory hready hcheck hwidth fun _ => rfl
    next hopcode =>
      simp only [hopcode] at hcheck
      simp only [Block.checkWidth, hopcode] at hwidth
      exact sound_executeMemory hready hcheck hwidth fun h => by rw [hopcode] at h; cases h
    next hopcode =>
      simp only [hopcode, Block.checkGuard, Bool.and_eq_true, Option.any_eq_true] at hcheck
      obtain ⟨-, transfer, htransfer, -⟩ := hcheck
      split
      next =>
        simp only [htransfer]
        exact sound_leave _ _ _
      next => exact hready.sound_next rfl rfl rfl
    next => exact hready.sound_next rfl rfl rfl

lemma exists_block_of_blockAt {pc : BitVec 32} {target : ℕ}
    (h : program.blockAt pc = some target) : ∃ next, program.blocks[target]? = some next := by
  obtain ⟨hlt, -⟩ := List.findIdx?_eq_some_iff_findIdx_eq.mp h
  exact ⟨_, List.getElem?_eq_getElem hlt⟩

lemma checkEdge_target {transfer : Transfer} {expected : StateMap} {target : ℕ}
    (hkind : block.terminator.kind ≠ .registerJump)
    (hcheck : block.checkEdge program transfer expected = true)
    (htarget : transfer.targetBlock = some target) :
    ∃ next, program.blocks[target]? = some next := by
  simp only [Block.checkEdge, if_neg hkind, Bool.and_eq_true, Option.any_eq_true, beq_iff_eq]
    at hcheck
  obtain ⟨-, node, -, -, -, heq⟩ := hcheck
  rw [htarget] at heq
  split at heq
  next => exact exists_block_of_blockAt heq.symm
  next => cases heq

/-- A chosen edge that stays inside leads to a block. -/
lemma selectTransfer_target (hb : VerifiedBlock program block) (values : ValueId → U128)
    {target : ℕ} (htarget : (selectTransfer block values).targetBlock = some target) :
    ∃ next, program.blocks[target]? = some next := by
  have hcheck := hb.terminator
  simp only [Block.checkTerminator, Bool.and_eq_true] at hcheck
  rcases selectTransfer_cases block values with ⟨heq, -⟩ | ⟨heq, hkind, -⟩ | ⟨hkind, hmem⟩
  · rw [heq] at htarget
    by_cases hkind : block.terminator.kind = .registerJump
    · simp only [hkind, Bool.and_eq_true, Option.isNone_iff_eq_none] at hcheck
      have hnone := hcheck.2.1.1.1.1.1.2
      rw [htarget] at hnone
      cases hnone
    · exact checkEdge_target hkind hcheck.1 htarget
  · rw [heq] at htarget
    simp only [hkind, Bool.and_eq_true] at hcheck
    exact checkEdge_target (by simp [hkind]) hcheck.2.1.1.2 htarget
  · have hregister := hb.registerTarget_check hkind hmem
    simp only [Block.checkRegisterTarget, Bool.and_eq_true, beq_iff_eq] at hregister
    exact exists_block_of_blockAt (hregister.1.1.2 ▸ htarget)

lemma sound_executeTerminator (hb : VerifiedBlock program block)
    (hbudget : c.blocksExecuted ≤ options.maxBlockExecutions) :
    (executeTerminator program options block c).Sound options program c := by
  unfold executeTerminator
  dsimp only
  split
  next => exact .completed rfl rfl
  next =>
    split
    next => exact .completed rfl rfl
    next target htarget =>
      obtain ⟨next, hnext⟩ := selectTransfer_target hb c.values htarget
      unfold enterBlock
      simp only [hnext]
      split
      next hspent => exact .budget rfl rfl (Nat.le_antisymm hbudget hspent)
      next hleft =>
        refine ⟨⟨next, hnext⟩, le_rfl, Nat.succ_le_of_lt (not_le.mp hleft), ?_⟩
        -- one block of the budget pays for all nodes of the next one
        obtain ⟨rest, hrest⟩ : ∃ rest, options.maxBlockExecutions - c.blocksExecuted = rest + 1 :=
          ⟨options.maxBlockExecutions - c.blocksExecuted - 1, by omega⟩
        have hless : options.maxBlockExecutions - (c.blocksExecuted + 1) = rest := by omega
        simp only [Configuration.stepsLeft, hrest, hless, Nat.succ_mul]
        have : 0 < parameterCount := by decide
        omega

/-- One step of a verified program goes on within its budget or ends properly. -/
lemma sound_step (float : FloatUnit) (hv : Verified program) (hwidths : program.checkWidths = true)
    (hblock : program.blocks[c.block]? = some block) (hindex : parameterCount ≤ c.index)
    (hbudget : c.blocksExecuted ≤ options.maxBlockExecutions) :
    (step float program options c).Sound options program c := by
  have hb := hv.block_of_mem hblock
  unfold step
  simp only [hblock]
  split
  next node hnode =>
    exact sound_executeNode float hb
      (Program.checkWidth_of_mem hwidths (List.mem_of_getElem? hblock) hindex hnode)
      ⟨hblock, hnode, hindex, hbudget⟩
  next => exact sound_executeTerminator hb hbudget

/-! ### Runs -/

@[simp] lemma run_finished (n : ℕ) (output : Option CanonicalState) (result : InterpretResult) :
    (Outcome.finished output result : Outcome σ).run float program options n =
      .finished output result := by
  cases n <;> rfl

/-- A run ends before its steps are used up. -/
lemma exists_run (float : FloatUnit) (hv : Verified program) (hwidths : program.checkWidths = true)
    (c : Configuration σ) (hblock : ∃ block, program.blocks[c.block]? = some block)
    (hindex : parameterCount ≤ c.index) (hbudget : c.blocksExecuted ≤ options.maxBlockExecutions) :
    ∃ n ≤ c.stepsLeft program options,
      ((Outcome.next c).run float program options n).Proper options := by
  induction hleft : c.stepsLeft program options using Nat.strong_induction_on generalizing c with
  | _ left ih =>
    obtain ⟨block, hblock⟩ := hblock
    have hsound := sound_step float hv hwidths hblock hindex hbudget
    cases hstep : step float program options c with
    | next c' =>
      rw [hstep] at hsound
      obtain ⟨hblock', hindex', hbudget', hless⟩ := hsound
      obtain ⟨n, hn, hrun⟩ := ih _ (hleft ▸ hless) c' hblock' hindex' hbudget' rfl
      exact ⟨n + 1, by omega, by rwa [Outcome.run, hstep]⟩
    | finished output result =>
      rw [hstep] at hsound
      exact ⟨1, by rw [← hleft]; exact Nat.le_add_left _ _, by rw [Outcome.run, hstep]; exact hsound⟩
    | undefined =>
      rw [hstep] at hsound
      exact ⟨1, by rw [← hleft]; exact Nat.le_add_left _ _, by rw [Outcome.run, hstep]; exact hsound⟩

/-- A run starts in the entry block or ends at once. -/
lemma start_sound (hentry : program.entryBlock < program.blocks.length) (input : CanonicalState)
    (memory : σ) :
    (start program options input memory).Proper options ∨
      ∃ c, start program options input memory = .next c ∧
        (∃ block, program.blocks[c.block]? = some block) ∧ c.index = parameterCount ∧
        c.blocksExecuted = 1 ∧ c.blocksExecuted ≤ options.maxBlockExecutions := by
  unfold start
  dsimp only
  split
  next => exact Or.inl (.completed rfl rfl)
  next =>
    unfold enterBlock
    simp only [List.getElem?_eq_getElem hentry]
    split
    next hspent => exact Or.inl (.budget rfl rfl (Nat.le_antisymm (Nat.zero_le _) hspent))
    next hleft =>
      exact Or.inr ⟨_, rfl, ⟨_, List.getElem?_eq_getElem hentry⟩, rfl, rfl,
        Nat.succ_le_of_lt (not_le.mp hleft)⟩

end Machine

/-- `Interpret` returns within its budget, at an exit or with the error of its
budget or of a callback; no exit, edge or access is ever missing. -/
def Returns (program : Program) : Prop :=
  ∀ (σ : Type) (float : FloatUnit) (options : InterpretOptions σ) (input : CanonicalState)
    (memory : σ), ∃ n ≤ options.maxBlockExecutions * (program.longestBlock + 1) + 1,
      ((start program options input memory).run float program options n).Proper options

theorem returns_of_verify {program : Program} (hverify : verify program = true)
    (hwidths : program.checkWidths = true) : Returns program := by
  intro σ float options input memory
  have hv := verified_of_verify hverify
  rcases start_sound hv.entry input memory with hproper | ⟨c, hstart, hblock, hindex, hone, hbudget⟩
  · exact ⟨0, Nat.zero_le _, hproper⟩
  · obtain ⟨n, hn, hrun⟩ := exists_run float hv hwidths c hblock hindex.ge hbudget
    rw [← hstart] at hrun
    refine ⟨n, hn.trans ?_, hrun⟩
    obtain ⟨rest, hrest⟩ : ∃ rest, options.maxBlockExecutions = rest + 1 :=
      ⟨options.maxBlockExecutions - 1, by omega⟩
    simp only [Configuration.stepsLeft, hrest, hone, Nat.succ_mul, Nat.add_sub_cancel]
    omega

theorem returns_of_verify_load : Returns loadProgram :=
  returns_of_verify (by decide +kernel) (by decide +kernel)

end VitaSX2.RegionIR
