/-
A lifted program against the interpreter: whatever the run of the region publishes,
the interpreter comes to it.
-/
import VitaSX2.Region.Guest.LowerBlock
import VitaSX2.Region.IR.Run

namespace VitaSX2.RegionIR

open R5900 (Cpu GuestMemory)
open StraightLine

/-! ### Parameters -/

lemma StateField.exists_getElem? (field : StateField) : StateField.all[field.index]? = some field := by
  obtain ⟨i, hi⟩ := List.mem_iff_getElem?.mp (StateField.mem_all field)
  rwa [StateField.index_of_getElem? hi]

lemma StateField.index_lt (field : StateField) : field.index < parameterCount :=
  length_all ▸ (List.getElem?_eq_some_iff.mp field.exists_getElem?).1

lemma parameterMap_injective (base : ValueId) : Function.Injective (parameterMap base) := by
  intro field other h
  have hindex : field.index = other.index := Nat.add_left_cancel h
  exact Option.some.inj (field.exists_getElem?.symm.trans (hindex ▸ other.exists_getElem?))

/-- The parameters of a block that is entered hold the registers. -/
lemma holds_assignParameters {μ : Type} {cpu : Cpu μ} {state : CanonicalState}
    (h : ∀ slot value, registerSlot cpu slot = some value → state.slot slot = value) {base n : ℕ}
    (hn : base + parameterCount ≤ n) (memoryEffect : U128) (values : ValueId → U128) :
    (regs (parameterMap base) cpu).holds n
      (assignParameters (parameterMap base) state memoryEffect values) := by
  intro slot value hslot
  refine ⟨?_, ?_⟩
  · have := (StateField.slot slot).index_lt
    show base + (StateField.slot slot).index < n
    omega
  · rw [assignParameters_field (parameterMap_injective base)]
    exact h slot value hslot

/-! ### Memory at an edge -/

section Edge

variable {σ : Type} {program : Program} {options : InterpretOptions σ}

lemma enterBlock_memory {target : ℕ} {memoryEffect : U128} {c c' : Configuration σ}
    (h : enterBlock program options target memoryEffect c = .next c') : c'.memory = c.memory := by
  unfold enterBlock at h
  split at h
  next => cases h
  next =>
    split at h
    next => cases h
    next =>
      cases h
      rfl

lemma executeTerminator_memory {block : Block} {c c' : Configuration σ}
    (h : executeTerminator program options block c = .next c') : c'.memory = c.memory := by
  unfold executeTerminator at h
  dsimp only at h
  split at h
  · cases h
  · split at h
    · cases h
    · have hkept := enterBlock_memory h
      exact hkept

lemma start_memory {input : CanonicalState} {memory : σ} {c : Configuration σ}
    (h : start program options input memory = .next c) : c.memory = memory := by
  unfold start at h
  dsimp only at h
  split at h
  · cases h
  · have hkept := enterBlock_memory h
    exact hkept

end Edge

/-! ### Lowered blocks -/

/-- A block of a program and the lowering it comes from. -/
structure Lowered (context : LiftContext) (raw : RawBlock) (base : ValueId) (block : Block)
    (b b' : Builder) : Prop where
  lower : context.lowerBlock raw base b = some (block.terminator, b')
  start : b.nodes = allocateParameters base raw.pc
  exits : b.memoryExits = []
  fresh : base + parameterCount ≤ b.nextValue
  nodes : block.nodes = b'.nodes
  guardedExits : block.guardedExits = b'.guardedExits
  memoryExits : block.memoryExits = b'.memoryExits
  parameters : block.parameters = parameterMap base

section Follow

variable {σ μ : Type} {guest : GuestMemory μ} {fetch : BitVec 32 → Option (BitVec 32)}
  {R : σ → μ → Prop} {input : Cpu μ} {float : FloatUnit} {program : Program}
  {options : InterpretOptions σ} {context : LiftContext} {raw : RawBlock} {base : ValueId}
  {block : Block} {b b' : Builder}
  (hmemory : ∀ interface, options.memory = some interface → Represents guest R interface)
include hmemory

/-- The nodes behind the parameters lead to a transfer. -/
lemma Lowered.run (h : Lowered context raw base block b b') (hfetched : raw.Fetched fetch)
    {c : Configuration σ} (hc : At guest fetch R input (parameterMap base) raw.pc b.nextValue c) :
    Ends (Halts guest fetch R input) (Leads guest fetch R input context.blockIndices block b'.nextValue)
      ((emitter float program options block).run (block.nodes.drop parameterCount) c) := by
  have hok : (emitter float program options block).Ok b := by
    intro entry hentry
    rw [h.exits] at hentry
    cases hentry
  have hemitted : (emitter float program options block).Emitted Body (Halts guest fetch R input) b b'
      (At guest fetch R input (parameterMap base) raw.pc)
      (Leads guest fetch R input context.blockIndices block) :=
    lowerBlock_emitted hmemory hfetched hok h.lower
  obtain ⟨new, hnodes, -, hrun⟩ := hemitted.emits
  have hnew : block.nodes.drop parameterCount = new := by
    rw [h.nodes, show b'.nodes = b.nodes ++ new from hnodes, h.start,
      ← length_allocateParameters base raw.pc, List.drop_left]
  rw [hnew]
  exact hrun ⟨h.guardedExits ▸ List.prefix_rfl, h.memoryExits ▸ List.prefix_rfl⟩ c hc

variable (guest fetch R input float program options context) in
/-- A configuration inside a block: the nodes before it led there from the interpreter's state. -/
def Inside (c : Configuration σ) : Prop :=
  ∃ raw base block b b', program.blocks[c.block]? = some block ∧ raw.Fetched fetch ∧
    Lowered context raw base block b b' ∧ parameterCount ≤ c.index ∧
    ∃ c₀, At guest fetch R input (parameterMap base) raw.pc b.nextValue c₀ ∧
      (emitter float program options block).run
        ((block.nodes.drop parameterCount).take (c.index - parameterCount)) c₀ = .ok c

variable (fetch context program) in
/-- Every address of a block of the program leads to a lowered block. -/
def LowersAll : Prop :=
  ∀ pc target, context.blockIndices pc = some target →
    ∃ raw base block b b', program.blocks[target]? = some block ∧ raw.pc = pc ∧ raw.Fetched fetch ∧
      Lowered context raw base block b b'

omit hmemory in
lemma inside_of_entered (hall : LowersAll fetch program context) {cpu : Cpu μ} {target : ℕ}
    (htarget : context.blockIndices cpu.pc = some target) (hruns : ComesTo guest fetch input cpu)
    (hzero : cpu.gpr 0 = 0) {c : Configuration σ} (hblock : c.block = target)
    (hindex : c.index = parameterCount) {state : CanonicalState}
    (hstate : ∀ slot value, registerSlot cpu slot = some value → state.slot slot = value)
    {memoryEffect : U128} {values : ValueId → U128}
    (hvalues : ∀ next, program.blocks[target]? = some next →
      c.values = assignParameters next.parameters state memoryEffect values)
    (hR : R c.memory cpu.memory) :
    Inside guest fetch R input float program options context c := by
  obtain ⟨raw, base, block, b, b', hget, hpc, hfetched, hlowered⟩ := hall _ _ htarget
  refine ⟨raw, base, block, b, b', hblock ▸ hget, hfetched, hlowered, hindex.ge, c, ?_, ?_⟩
  · refine ⟨cpu, ⟨hruns, hpc.symm, hzero⟩, ?_, hR⟩
    rw [hvalues block hget, hlowered.parameters]
    exact holds_assignParameters hstate hlowered.fresh memoryEffect values
  · rw [hindex, Nat.sub_self]
    rfl

/-- A step of the region, or the state it publishes. -/
lemma inside_step (hall : LowersAll fetch program context) {c : Configuration σ}
    (h : Inside guest fetch R input float program options context c) :
    (∀ c', step float program options c = .next c' →
      Inside guest fetch R input float program options context c') ∧
    ∀ out result, step float program options c = .finished (some out) result →
      ∃ cpu, ComesTo guest fetch input cpu ∧ Matches out cpu ∧ R c.memory cpu.memory := by
  obtain ⟨raw, base, block, b, b', hget, hfetched, hlowered, hindex, c₀, hc₀, hrun⟩ := h
  have hends : Ends (Halts guest fetch R input)
      (Leads guest fetch R input context.blockIndices block b'.nextValue)
      ((emitter float program options block).run (block.nodes.drop parameterCount) c₀) :=
    hlowered.run hmemory hfetched hc₀
  cases hnode : block.nodes[c.index]? with
  | some node =>
    have hstep : step float program options c = executeNode float program options block node c := by
      rw [step, hget]
      simp only [hnode]
    have hnode' : (block.nodes.drop parameterCount)[c.index - parameterCount]? = some node := by
      rw [List.getElem?_drop, Nat.add_sub_cancel' hindex, hnode]
    have hsucc := (emitter float program options block).run_take_succ hnode' c₀
    rw [hrun] at hsucc
    rw [hstep]
    refine ⟨fun c' hnext => ?_, fun out result hfinished => ?_⟩
    · have hkept : c'.block = c.block ∧ c'.index = c.index + 1 := by
        obtain ⟨_, hget', hcase⟩ := step_cases (hstep.trans hnext)
        cases hcase with
        | skipped _ _ _ hb hi _ => exact ⟨hb, hi⟩
        | executed _ _ _ _ _ hb hi _ => exact ⟨hb, hi⟩
        | edge _ _ hend =>
          rw [hget, Option.some.injEq] at hget'
          rw [← hget', hnode] at hend
          cases hend
      refine ⟨raw, base, block, b, b', hkept.1 ▸ hget, hfetched, hlowered, by omega, c₀, hc₀, ?_⟩
      rw [hkept.2, Nat.sub_add_comm hindex, hsucc]
      exact congrArg (Outcome.except c) hnext
    · have herror : (emitter float program options block).run
          (block.nodes.drop parameterCount) c₀ = .error (c, some out) :=
        (emitter float program options block).run_eq_error
          (hsucc.trans (congrArg (Outcome.except c) hfinished))
      rw [herror] at hends
      exact hends out rfl
  | none =>
    have hstep : step float program options c = executeTerminator program options block c := by
      rw [step, hget]
      simp only [hnode]
    have hall' : (block.nodes.drop parameterCount).take (c.index - parameterCount) =
        block.nodes.drop parameterCount := by
      refine List.take_of_length_le ?_
      have := List.getElem?_eq_none_iff.mp hnode
      rw [List.length_drop]
      omega
    rw [hall'] at hrun
    rw [hrun] at hends
    obtain ⟨cpu, ⟨⟨hruns, hzero⟩, hroutes⟩, hpublishes, hR⟩ := hends
    have hmatches := matches_of_publishes hzero hpublishes
    rw [hstep]
    refine ⟨fun c' hnext => ?_, fun out result hfinished => ?_⟩
    · obtain ⟨target, next, htarget, hnextBlock, hb, hi, -, hv⟩ := executeTerminator_next hnext
      have henter : ∀ other, program.blocks[target]? = some other →
          c'.values = assignParameters other.parameters
            (materialize c.values (selectTransfer block c.values))
            (c.values ((selectTransfer block c.values).state .memoryEffect)) c.values := by
        intro other hother
        rw [hnextBlock, Option.some.injEq] at hother
        exact hother ▸ hv
      exact inside_of_entered hall (hroutes target htarget) hruns hzero hb hi hmatches.slots henter
        (executeTerminator_memory hnext ▸ hR)
    · have hout := executeTerminator_state (congrArg Outcome.state hfinished)
      exact ⟨cpu, hruns, hout ▸ hmatches, hR⟩

variable (float program input) in
include float program input in
/-- The blocks of a lowering, from an index on. -/
lemma lowered_of_lowerBlocks {raws : List RawBlock} {index nextValue last : ℕ} {blocks : List Block}
    (hfetched : ∀ raw ∈ raws, raw.Fetched fetch) (hfresh : (index + raws.length) * parameterCount ≤
      nextValue) (h : context.lowerBlocks raws index nextValue = some (blocks, last)) {i : ℕ}
    (hraw : raws[i]? = some raw) : ∃ base block b b', blocks[i]? = some block ∧
      Lowered context raw base block b b' := by
  induction raws generalizing index nextValue blocks last i with
  | nil => cases hraw
  | cons first rest ih =>
    obtain ⟨⟨terminator, built⟩, hlower, h⟩ := Option.bind_eq_some_iff.mp h
    obtain ⟨⟨others, next⟩, hrest, h⟩ := Option.bind_eq_some_iff.mp h
    cases h
    rw [List.forall_mem_cons] at hfetched
    rw [List.length_cons, Nat.add_mul, Nat.add_mul] at hfresh
    cases i with
    | zero =>
      cases hraw
      refine ⟨index * parameterCount, _, _, built, rfl, hlower, rfl, rfl, ?_, rfl, rfl, rfl, rfl⟩
      show _ ≤ nextValue
      omega
    | succ i =>
      let bare : Block := ⟨first.pc, parameterMap 0, [], [], [], [], [], terminator⟩
      have hemitted : (emitter float program options bare).Emitted Body (Halts guest fetch R input) _
          built _ (Leads guest fetch R input context.blockIndices bare) :=
        lowerBlock_emitted hmemory hfetched.1 (fun entry hentry => by cases hentry) hlower
      have hle : nextValue ≤ built.nextValue := hemitted.le
      refine ih hfetched.2 ?_ hrest hraw
      rw [Nat.add_mul, Nat.add_mul]
      omega

variable (float input) in
include float input in
lemma lowersAll_of_lowerProgram {lift : LiftOptions} {quotient : ℕ → ℕ}
    {schedulerTest : BitVec 32 → Bool} {spans : List SourceSpan}
    {directCalls : List DirectCallContract} {entryPc : BitVec 32} {raws : List RawBlock}
    (hfetched : ∀ raw ∈ raws, raw.Fetched fetch)
    (h : lowerProgram lift quotient schedulerTest spans directCalls entryPc raws = some program) :
    ∃ context : LiftContext, LowersAll fetch program context ∧
      context.blockIndices entryPc = some program.entryBlock := by
  obtain ⟨entry, hentry, h⟩ := Option.bind_eq_some_iff.mp h
  obtain ⟨⟨blocks, count⟩, hblocks, h⟩ := Option.bind_eq_some_iff.mp h
  have hall := fun i raw (hraw : raws[i]? = some raw) =>
    lowered_of_lowerBlocks input float program hmemory hfetched (by rw [zero_add]) hblocks hraw
  cases h
  refine ⟨⟨lift, quotient, fun pc => raws.findIdx? fun raw => raw.pc == pc, directCalls,
    schedulerTest⟩, fun pc target htarget => ?_, hentry⟩
  obtain ⟨hlt, hpc, -⟩ := List.findIdx?_eq_some_iff_getElem.mp htarget
  obtain ⟨base, block, b, b', hget, hlowered⟩ := hall _ _ (List.getElem?_eq_getElem hlt)
  exact ⟨_, base, block, b, b', hget, beq_iff_eq.mp hpc, hfetched _ (List.getElem_mem hlt), hlowered⟩

end Follow

/-! `ori v0, zero, 5` in front of a system call. -/

def oriBlock : RawBlock :=
  ⟨0x1000, [⟨0x1000, 0x34020005, false⟩], .none, 0, 0, ⟨0, 0, true⟩, 0x1004, .exceptionObserver⟩

def oriProgram : Program :=
  (lowerProgram ⟨2, 0, false, false, true, 8, 64, 0⟩ id (fun _ => true)
    [⟨0x1000, [0x34020005, 0x0000000c]⟩] [] 0x1000 [oriBlock]).get (by decide +kernel)

def oriFetch (pc : BitVec 32) : Option (BitVec 32) := if pc = 0x1000 then some 0x34020005 else none

/-- A memory that reads as zero. -/
def emptyMemory : GuestMemory Unit :=
  ⟨fun _ m => (0, m), fun _ m => (0, m), fun _ m => (0, m), fun _ m => (0, m), fun _ m => (0, m),
    fun _ _ m => m, fun _ _ m => m, fun _ _ m => m, fun _ _ m => m, fun _ _ m => m⟩

/-- No instruction of the program is one of the floating-point unit. -/
def noFloat : FloatUnit :=
  ⟨fun _ _ => 0, fun _ _ => 0, fun _ _ => 0, fun _ _ => 0, fun _ => 0, fun _ _ => false,
    fun _ _ => false, fun _ _ => false, fun _ => 0, fun _ => 0⟩

def noEvents : InterpretOptions Unit := ⟨BitVec.allOnes 64, 1, none⟩

def zeroCpu : Cpu Unit := ⟨fun _ => 0, 0, 0, 0, 0x1000, ()⟩

def zeroState : CanonicalState := ⟨fun _ => 0, 0x1000, fun slot => by cases slot <;> rfl⟩

lemma matches_zeroState : Matches zeroState zeroCpu := by
  refine ⟨fun slot value h => ?_, rfl⟩
  cases slot <;> simp only [registerSlot, Option.some.injEq, reduceCtorEq] at h <;> subst h <;> rfl

end VitaSX2.RegionIR
