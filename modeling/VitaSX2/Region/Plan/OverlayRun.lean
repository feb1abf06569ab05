/-
The dirty words of every exit site are enough: the entry state with them stored
over it is the state `Interpret` publishes there.

Two things are needed that `Verify` does not ask for.  The entry state has to
hold the constants of the zero register and of the first vector register, which
`Interpret` forces and the plan never stores.  In front of the delay slot of a
likely branch every instruction that can leave has to start before the slot, as
the lifter emits them: otherwise an exit publishes values of a skipped slot.
-/
import VitaSX2.Region.IR.Lift
import VitaSX2.Region.Plan.ExtensionRun
import VitaSX2.Region.Plan.Overlay

namespace VitaSX2.RegionExecution

open RegionIR

/-! ### Exits of an operation -/

section Exits

variable {block : Block} {node : Node} {index : ℕ} {reason : ExitReason}

/-- The one exit of an operation is the one that is found. -/
lemma checkOperation_unique {exits : List OperationExit} {found other : OperationExit}
    (hcheck : block.checkOperation exits index node reason = true)
    (hfound : findExit exits node = some found) (hother : other ∈ exits)
    (howner : other.operation = node.id) :
    found = other ∧ block.checkExit index node other.transfer reason = true := by
  unfold Block.checkOperation at hcheck
  split at hcheck
  next only honly =>
    have hmem : other ∈ exits.filter fun candidate => candidate.operation == node.id :=
      List.mem_filter.mpr ⟨hother, by simp [howner]⟩
    rw [honly, List.mem_singleton] at hmem
    subst hmem
    have hhead := @List.head?_filter _ (fun candidate : OperationExit =>
      candidate.operation == node.id) exits
    rw [honly, List.head?_cons] at hhead
    refine ⟨Option.some.inj ?_, hcheck⟩
    rw [← hfound, findExit, ← hhead]
  next => cases hcheck

end Exits

section Sites

variable {σ : Type} {float : FloatUnit} {program : Program} {options : InterpretOptions σ}
  {table : OriginTable} {entry : CanonicalState} {block : Block} {c : Configuration σ}

/-- The words of a published slot. -/
lemma OriginInvariant.overlay_word (hinv : OriginInvariant table entry block c)
    (hv : Verified program) (hfix : OriginFixpoint program table)
    (hentry : HoldsConstants entry) {index limit : ℕ} {state : StateMap}
    (hblock : program.blocks[index]? = some block) (hlimit : limit ≤ c.index)
    (hstate : PublishedAt block c.values limit state) {slot : StateSlot} {word : ℕ}
    (hword : word < slot.wordCount) :
    (publishedSlot slot (c.values (state (.slot slot)))).word word =
      overlay table entry c.values state slot word := by
  have hknown := hinv.known_published hv hfix hblock hlimit hstate slot
  unfold overlay
  cases hslot : constantSlot slot with
  | some constant =>
    -- a slot that does not vary is its own parameter
    rw [publishedSlot_constant hslot]
    obtain ⟨bound, advance, -, -, rfl, -⟩ := hstate
    have hcycle : slot ≠ .cycle := fun heq => by
      rw [heq] at hslot
      cases hslot
    rw [Block.withCycle_of_ne hcycle, (hv.block_of_mem hblock).stateAt_constant bound hslot,
      hinv.constant slot constant hslot, hentry slot constant hslot, ite_self]
  | none =>
    rw [word_publishedSlot hslot hword]
    split
    next => rfl
    next hclean =>
      have hgpr : slot ≠ .gpr 0 := fun heq => by
        rw [heq] at hslot
        cases hslot
      have horigin : table (state (.slot slot)) word = some (slot, word) := by
        simpa [dirtyWord, hgpr] using hclean
      exact hknown word _ horigin

/-- The slots of the state at the entry of a block. -/
lemma OriginInvariant.entry_slot (hinv : OriginInvariant table entry block c)
    (hindex : c.index = parameterCount) (slot : StateSlot) :
    c.current.slot slot = publishedSlot slot (c.values (block.parameters (.slot slot))) := by
  have hentered := hinv.entered hindex slot
  cases hslot : constantSlot slot with
  | some constant =>
    rw [publishedSlot_constant hslot, ← hentered, hinv.constant slot constant hslot]
  | none =>
    unfold publishedSlot
    rw [hslot, hentered]
    exact (c.current.fits slot).symm

/-- Every exit site publishes a state of its block. -/
lemma AtSite.published {site : ExitSite} {out : CanonicalState} {state : StateMap}
    (hsite : AtSite float program options c site out) (hv : Verified program)
    (hexits : ∀ block ∈ program.blocks, block.exitsPrecedeDelaySlot = true)
    (hblock : program.blocks[c.block]? = some block)
    (hinv : OriginInvariant table entry block c) (hstate : site.state program = some state) :
    ∃ limit ≤ c.index, PublishedAt block c.values limit state ∧
      ∀ slot, out.slot slot = publishedSlot slot (c.values (state (.slot slot))) := by
  have hb := hv.block_of_mem hblock
  have hexits := hexits block (List.mem_of_getElem? hblock)
  have hstop : ∀ {node : Node} {out : CanonicalState} {result : InterpretResult},
      block.nodes[c.index]? = some node →
      step float program options c = .finished (some out) result →
      annulled block c.values node = false ∧ ExitCase block c node out := by
    intro node out result hnode hstep
    unfold step at hstep
    simp only [hblock, hnode] at hstep
    exact executeNode_exit hstep
  have hend : ∀ {out : CanonicalState}, block.nodes[c.index]? = none →
      (step float program options c).state = some out →
      out = materialize c.values (selectTransfer block c.values) := by
    intro out hend hout
    unfold step at hout
    simp only [hblock, hend] at hout
    exact executeTerminator_state hout
  cases hsite with
  | blockEntry hindex =>
    simp only [ExitSite.state, hblock, Option.map_some] at hstate
    cases hstate
    refine ⟨0, Nat.zero_le _, ⟨0, none, le_rfl, fun _ => Nat.zero_le _, ?_, fun _ h => by cases h⟩,
      hinv.entry_slot hindex⟩
    exact (Block.stateAt_of_le (Nat.zero_le _)).symm
  | guarded hblock' hnode hopcode hstep =>
    rw [hblock] at hblock'
    cases hblock'
    obtain ⟨hannulled, hcase⟩ := hstop hnode hstep
    have hcheck := hb.node _ _ hinv.index hnode
    simp only [Block.checkNode, hopcode, Block.checkGuard, Bool.and_eq_true,
      Option.any_eq_true] at hcheck
    obtain ⟨-, -, transfer, htransfer, hexit⟩ := hcheck
    simp only [ExitSite.state, hblock, Option.bind_some, htransfer, Option.map_some] at hstate
    cases hstate
    refine ⟨c.index, le_rfl, hb.publishedAt_exit hexits hinv.index hnode
      (by simp [Node.canExit, hopcode]) hannulled hexit, fun slot => ?_⟩
    cases hcase with
    | guarded transfer' _ htransfer' hout =>
      rw [htransfer] at htransfer'
      cases htransfer'
      rw [hout]
      rfl
    | observer _ hother => simp [hopcode] at hother
    | memory _ hother => simp [hopcode] at hother
  | @observer block' node ordinal found out result hblock' hnode hopcode hget howner hstep =>
    rw [hblock] at hblock'
    cases hblock'
    obtain ⟨hannulled, hcase⟩ := hstop hnode hstep
    have hcheck := hb.node _ _ hinv.index hnode
    simp only [Block.checkNode, hopcode, Bool.and_eq_true] at hcheck
    simp only [ExitSite.state, hblock, Option.bind_some, hget, Option.map_some] at hstate
    cases hstate
    cases hcase with
    | guarded _ hother => simp [hopcode] at hother
    | observer found' _ hfound hout =>
      obtain ⟨rfl, hexit⟩ :=
        checkOperation_unique hcheck.2 hfound (List.mem_of_getElem? hget) howner
      refine ⟨c.index, le_rfl, hb.publishedAt_exit hexits hinv.index hnode
        (by simp [Node.canExit, hopcode]) hannulled hexit, fun slot => ?_⟩
      rw [hout]
      rfl
    | memory _ hother => simp [hopcode] at hother
  | @memory block' node ordinal found out result hblock' hnode hopcode hget howner hstep =>
    rw [hblock] at hblock'
    cases hblock'
    obtain ⟨hannulled, hcase⟩ := hstop hnode hstep
    have hcheck := hb.node _ _ hinv.index hnode
    have hoperation : block.checkOperation block.memoryExits c.index node .memoryObserver = true := by
      rcases hopcode with hopcode | hopcode <;>
        · simp only [Block.checkNode, hopcode, Block.checkMemory, Bool.and_eq_true] at hcheck
          exact hcheck.2.2
    have hcan : node.canExit = true := by rcases hopcode with hopcode | hopcode <;>
      simp [Node.canExit, hopcode]
    simp only [ExitSite.state, hblock, Option.bind_some, hget, Option.map_some] at hstate
    cases hstate
    cases hcase with
    | guarded _ hother => simp [hother] at hopcode
    | observer _ hother => simp [hother] at hopcode
    | memory found' _ hfound hout =>
      obtain ⟨rfl, hexit⟩ :=
        checkOperation_unique hoperation hfound (List.mem_of_getElem? hget) howner
      refine ⟨c.index, le_rfl,
        hb.publishedAt_exit hexits hinv.index hnode hcan hannulled hexit, fun slot => ?_⟩
      rw [hout]
      rfl
  | @taken block' out hblock' hnone hbranch hout =>
    rw [hblock] at hblock'
    cases hblock'
    simp only [ExitSite.state, hblock, Option.map_some] at hstate
    cases hstate
    have hmap : (selectTransfer block c.values).state = block.terminator.taken.state := by
      rcases selectTransfer_cases block c.values with ⟨heq, -⟩ | ⟨-, hkind, hzero⟩ | ⟨hkind, hmem⟩
      · rw [heq]
      · exact absurd hzero (hbranch hkind)
      · rw [hb.registerTarget_state hkind hmem, hb.taken_state]
    refine ⟨_, List.getElem?_eq_none_iff.mp hnone, hmap ▸ hb.publishedAt_selectTransfer c.values,
      fun slot => ?_⟩
    rw [hend hnone hout, ← hmap]
    rfl
  | @notTaken block' out hblock' hnone hbranch hcondition hout =>
    rw [hblock] at hblock'
    cases hblock'
    simp only [ExitSite.state, hblock, Option.bind_some, hbranch, if_true] at hstate
    cases hstate
    have hselect : selectTransfer block c.values = block.terminator.notTaken := by
      simp [selectTransfer, hbranch, hcondition]
    refine ⟨_, List.getElem?_eq_none_iff.mp hnone, hb.publishedAt_notTaken c.values hbranch,
      fun slot => ?_⟩
    rw [hend hnone hout, hselect]
    rfl

end Sites

/-! ### All exit sites -/

/-- The canonical origins of a verified program, for all its runs. -/
theorem overlayExact_of_verify {program : Program} (h : verify program = true)
    (hexits : ∀ block ∈ program.blocks, block.exitsPrecedeDelaySlot = true) :
    ∃ table, canonicalOrigins program = some table ∧
      ∀ entry, HoldsConstants entry → OverlayExact program table entry := by
  have hv := verified_of_verify h
  obtain ⟨table, htable, hfix⟩ := exists_canonicalOrigins hv
  refine ⟨table, htable, fun entry hentry σ float options memory c site out state hreaches hsite
    hstate slot word hword => ?_⟩
  obtain ⟨block, hblock, hinv⟩ := originInvariant_of_reaches hv hfix hentry hreaches
  obtain ⟨limit, hlimit, hpublished, hout⟩ := hsite.published hv hexits hblock hinv hstate
  rw [hout]
  exact hinv.overlay_word hv hfix hentry hblock hlimit hpublished hword

theorem overlayExact_increment :
    ∃ table, canonicalOrigins incrementProgram = some table ∧
      ∀ entry, HoldsConstants entry → OverlayExact incrementProgram table entry :=
  overlayExact_of_verify (by decide +kernel) (by decide +kernel)

/-- An entry state from the values of its slots. -/
def entryOf (value : StateSlot → U128) : CanonicalState where
  slot slot := slot.truncate (value slot)
  pc := 0
  fits slot := slot.truncate_truncate (value slot)

/-- No event is due and one block may be entered. -/
def quietOptions : InterpretOptions Unit := ⟨BitVec.allOnes 64, 1, none⟩

/-- A unit whose operations no integer instruction uses. -/
def unusedFloat : FloatUnit where
  add a _ := a
  sub a _ := a
  mul a _ := a
  div a _ := a
  sqrt a := a
  equal a b := a == b
  less _ _ := false
  lessEqual a b := a == b
  ofSigned a := a
  toSigned a := a

/-! ### Entry states with another zero register -/

section Entered

variable {program : Program}

/-- No word of the zero register is ever stored, so an entry state with another
value is not made the one `Interpret` has. -/
lemma not_overlayExact_of_entry {block : Block}
    (hblock : program.blocks[program.entryBlock]? = some block) {table : OriginTable}
    {entry : CanonicalState} (hentry : (entry.slot (.gpr 0)).word 0 ≠ 0) :
    ¬ OverlayExact program table entry := by
  intro hexact
  obtain ⟨c, hstart⟩ : ∃ c, start program quietOptions entry () = .next c := by
    simp [start, eventDue, enterBlock, quietOptions, hblock]
  obtain ⟨entered, hentered, hindex, hposition, hcurrent, -⟩ := start_cases hstart
  have hword := hexact Unit unusedFloat quietOptions () c (.blockEntry c.block) c.current
    entered.parameters (.init hstart) (.blockEntry hposition)
    (by simp [ExitSite.state, hindex, hentered]) (.gpr 0) 0 (by decide)
  rw [hcurrent] at hword
  exact hentry (hword.symm.trans rfl)

end Entered

/-! ### Exits behind a skipped delay slot -/

/-- `addi v1, a0, 1` in front of `bnel zero, zero` with `addiu a1, zero, 1` in its
delay slot. -/
def skippedSlotRaw : RawBlock :=
  ⟨0x1000, [⟨0x1000, 0x20830001, false⟩], .conditionalBranch, 0x1004, 0x54000002,
    ⟨0x1008, 0x24050001, true⟩, 0, .regionBoundary⟩

def skippedSlotContext : LiftContext :=
  ⟨⟨2, 0, false, false, true, 8, 64, 0⟩, id, fun _ => none, [], fun _ => true⟩

open Lower in
/-- The block with the nodes of its body behind those of its delay slot. -/
def lowerSkippedSlot (context : LiftContext) (raw : RawBlock) : Lower Terminator := do
  let entered := parameterMap 0
  let condition ← lowerBranchCondition entered raw.branchOpcode raw.branchPc
  let delayed ← lowerNonBranch context.options entered raw.delay.opcode raw.delay.pc
    ⟨entered, raw.branchPc, 0⟩
  let (after, _) ← context.lowerBody raw.body delayed 0
  let rawCost := context.rawCycleCost raw.source
  let takenState ← advanceCycles after (context.scaledCost raw rawCost) raw.delay.pc
  let notTakenState ← advanceCycles entered
    (context.scaledCost raw
      (rawCost - rawRecompilerCycles context.options raw.delay.opcode)) raw.branchPc
  let taken ← makeTransfer context.blockIndices takenState
    (branchTarget raw.branchPc raw.branchOpcode) .regionBoundary raw.delay.pc true
  let notTaken ← makeTransfer context.blockIndices notTakenState (raw.branchPc + 8)
    .regionBoundary raw.branchPc true
  return ⟨.branch, true, condition, taken, notTaken, [], raw.branchPc, raw.delay.pc⟩

def skippedSlotProgram : Program :=
  let built := (lowerSkippedSlot skippedSlotContext skippedSlotRaw
    ⟨allocateParameters 0 0x1000, [], [], parameterCount⟩).get (by decide +kernel)
  { sourceSpans := [⟨0x1000, [0x20830001, 0x54000002, 0x24050001]⟩]
    directCalls := []
    vu0OverflowClamp := true
    maxDirectCalls := 0
    entryBlock := 0
    valueCount := built.2.nextValue
    blocks := [
      { pc := 0x1000
        parameters := parameterMap 0
        nodes := built.2.nodes
        source := skippedSlotRaw.source
        guardedExits := built.2.guardedExits
        memoryExits := []
        observerExits := []
        terminator := built.1 }] }

/-- The addition overflows, and the upper half of `a1` is not zero. -/
def overflowEntry : CanonicalState :=
  normalize <| entryOf fun slot =>
    match slot with
    | .gpr 4 => ⟨0x7fffffff, 0⟩
    | .gpr 5 => ⟨0, 1⟩
    | _ => 0

/-- Without internal edges no parameter loses its origins. -/
lemma canonicalOrigins_of_no_edges {program : Program}
    (h : ∀ block ∈ program.blocks, block.terminator.internalTransfers = []) :
    canonicalOrigins program =
      some (program.nodes.foldl (deriveNode program) (initialOrigins program)) := by
  have hincoming : ∀ index, incoming program index = [] := fun index =>
    List.flatMap_eq_nil_iff.mpr fun block hblock => by rw [h block hblock, List.filter_nil]
  have hlane : ∀ table lane, invalidateLane program (table, false) lane = (table, false) := by
    intro table lane
    simp [invalidateLane, hincoming]
  have hfold : ∀ (lanes : List ParameterLane) (table : OriginTable),
      lanes.foldl (invalidateLane program) (table, false) = (table, false) := by
    intro lanes
    induction lanes with
    | nil => exact fun _ => rfl
    | cons lane rest ih =>
      intro table
      rw [List.foldl_cons, hlane]
      exact ih table
  unfold canonicalOrigins Settle.settle originPass
  rw [hfold]
  rfl

/-- The run stands at the overflow exit, which leaves `a1` with an upper half of zero. -/
def leavesSkippedSlot (c : Configuration Unit) : Bool :=
  c.block == 0 && c.index == 168 &&
    match step unusedFloat skippedSlotProgram quietOptions c with
    | .finished (some out) _ => (out.slot (.gpr 5)).word 2 == 0
    | _ => false

/-- The exit of the addition publishes the register of the skipped slot, whose
upper words count as entry words. -/
lemma not_overlayExact_skippedSlot {table : OriginTable}
    (htable : canonicalOrigins skippedSlotProgram = some table) :
    ¬ OverlayExact skippedSlotProgram table overflowEntry := by
  intro hexact
  rw [canonicalOrigins_of_no_edges (by decide +kernel)] at htable
  have htable := Option.some.inj htable
  have hclean : table 161 2 = some (.gpr 5, 2) := by
    rw [← htable]
    decide +kernel
  have hrun : ((runFor unusedFloat skippedSlotProgram quietOptions overflowEntry () 14).any
      leavesSkippedSlot) = true := by decide +kernel
  obtain ⟨c, hc, hleaves⟩ := (Option.any_eq_true _ _).mp hrun
  unfold leavesSkippedSlot at hleaves
  rw [Bool.and_eq_true, Bool.and_eq_true, beq_iff_eq, beq_iff_eq] at hleaves
  obtain ⟨⟨hblock, hindex⟩, hleaves⟩ := hleaves
  have hsite : ((skippedSlotProgram.blocks[0]?).any fun block =>
      ((block.nodes[168]?).any fun node => node.opcode == .exitIfTrue && node.immediate == 0) &&
        (block.guardedExits[0]?).any fun exit => exit.state (.slot (.gpr 5)) == 161) = true := by
    decide +kernel
  obtain ⟨block, hget, hparts⟩ := (Option.any_eq_true _ _).mp hsite
  obtain ⟨hnodes, hexits⟩ := (Bool.and_eq_true _ _).mp hparts
  obtain ⟨node, hnode, hguard⟩ := (Option.any_eq_true _ _).mp hnodes
  obtain ⟨exit, hexit, hregister⟩ := (Option.any_eq_true _ _).mp hexits
  simp only [Bool.and_eq_true, beq_iff_eq] at hguard hregister
  rw [← hblock] at hget
  rw [← hindex] at hnode
  split at hleaves
  next out result hstep =>
    have hword := hexact Unit unusedFloat quietOptions () c (.guarded c.block node.immediate) out
      exit.state (reaches_runFor hc) (.guarded hget hnode hguard.1 hstep)
      (by simp [ExitSite.state, hget, hguard.2, hexit]) (.gpr 5) 2 (by decide)
    have hkept : dirtyWord table exit.state (.gpr 5) 2 = false := by
      simp [dirtyWord, hregister, hclean]
    rw [overlay, hkept, if_neg (by simp)] at hword
    have hentry : (overflowEntry.slot (.gpr 5)).word 2 = 1 := by decide
    rw [hentry, beq_iff_eq.mp hleaves] at hword
    cases hword
  next => cases hleaves

theorem not_overlayExact_of_verify :
    (verify incrementProgram = true ∧
      ∀ table, canonicalOrigins incrementProgram = some table →
        ¬ OverlayExact incrementProgram table (entryOf fun _ => ⟨1, 0⟩)) ∧
    (verify skippedSlotProgram = true ∧ HoldsConstants overflowEntry ∧
      ∀ table, canonicalOrigins skippedSlotProgram = some table →
        ¬ OverlayExact skippedSlotProgram table overflowEntry) := by
  refine ⟨⟨by decide +kernel, fun table _ => ?_⟩, by decide +kernel, fun slot constant hslot => ?_,
    fun table htable => not_overlayExact_skippedSlot htable⟩
  · have hentry : (incrementProgram.blocks[incrementProgram.entryBlock]?).isSome = true := by
      decide +kernel
    obtain ⟨block, hblock⟩ := Option.isSome_iff_exists.mp hentry
    exact not_overlayExact_of_entry hblock (by decide)
  · exact publishedSlot_constant hslot

end VitaSX2.RegionExecution
