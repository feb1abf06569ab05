/-
The dirty words of the exit sites.

At an exit the backend stores only the words of the published state that the
plan marks dirty and keeps the words of the entry state for the others.  The
invariant of a run says that a word with an origin still holds the entry word,
for every value the running block has defined and not skipped.
-/
import VitaSX2.Region.IR.Publish
import VitaSX2.Region.Plan.Origins

namespace VitaSX2.RegionExecution

open RegionIR

/-! ### Exit sites -/

inductive ExitSite
  | blockEntry (block : ℕ)
  | guarded (block ordinal : ℕ)
  | observer (block ordinal : ℕ)
  | memory (block ordinal : ℕ)
  | taken (block : ℕ)
  | notTaken (block : ℕ)
deriving DecidableEq, Repr

/-- The state map of `ResolveExitContract`. -/
def ExitSite.state (program : Program) : ExitSite → Option StateMap
  | .blockEntry index => (program.blocks[index]?).map Block.parameters
  | .guarded index ordinal =>
    (program.blocks[index]?).bind fun block => (block.guardedExits[ordinal]?).map Transfer.state
  | .observer index ordinal =>
    (program.blocks[index]?).bind fun block =>
      (block.observerExits[ordinal]?).map fun exit => exit.transfer.state
  | .memory index ordinal =>
    (program.blocks[index]?).bind fun block =>
      (block.memoryExits[ordinal]?).map fun exit => exit.transfer.state
  | .taken index => (program.blocks[index]?).map fun block => block.terminator.taken.state
  | .notTaken index =>
    (program.blocks[index]?).bind fun block =>
      if block.terminator.kind = .branch then some block.terminator.notTaken.state else none

/-- `record_dirty`: the words of a slot that no longer are entry words; the zero
register is never dirty. -/
def dirtyWord (table : OriginTable) (state : StateMap) (slot : StateSlot) (word : ℕ) : Bool :=
  slot != .gpr 0 && table (state (.slot slot)) word != some (slot, word)

/-- A word of the entry state with the dirty words stored over it. -/
def overlay (table : OriginTable) (entry : CanonicalState) (values : ValueId → U128)
    (state : StateMap) (slot : StateSlot) (word : ℕ) : BitVec 32 :=
  if dirtyWord table state slot word then (values (state (.slot slot))).word word
  else (entry.slot slot).word word

section Sites

variable {σ : Type} (float : FloatUnit) (program : Program) (options : InterpretOptions σ)

/-- The run is at an exit site, where `Interpret` has the given state. -/
inductive AtSite (c : Configuration σ) : ExitSite → CanonicalState → Prop
  | blockEntry (hindex : c.index = parameterCount) : AtSite c (.blockEntry c.block) c.current
  | guarded {block : Block} {node : Node} {out : CanonicalState} {result : InterpretResult}
      (hblock : program.blocks[c.block]? = some block)
      (hnode : block.nodes[c.index]? = some node) (hopcode : node.opcode = .exitIfTrue)
      (hstep : step float program options c = .finished (some out) result) :
      AtSite c (.guarded c.block node.immediate) out
  | observer {block : Block} {node : Node} {ordinal : ℕ} {found : OperationExit}
      {out : CanonicalState} {result : InterpretResult}
      (hblock : program.blocks[c.block]? = some block)
      (hnode : block.nodes[c.index]? = some node) (hopcode : node.opcode = .vu0RequireIdle)
      (hexit : block.observerExits[ordinal]? = some found) (howner : found.operation = node.id)
      (hstep : step float program options c = .finished (some out) result) :
      AtSite c (.observer c.block ordinal) out
  | memory {block : Block} {node : Node} {ordinal : ℕ} {found : OperationExit}
      {out : CanonicalState} {result : InterpretResult}
      (hblock : program.blocks[c.block]? = some block)
      (hnode : block.nodes[c.index]? = some node)
      (hopcode : node.opcode = .memoryLoad ∨ node.opcode = .memoryStore)
      (hexit : block.memoryExits[ordinal]? = some found) (howner : found.operation = node.id)
      (hstep : step float program options c = .finished (some out) result) :
      AtSite c (.memory c.block ordinal) out
  | taken {block : Block} {out : CanonicalState}
      (hblock : program.blocks[c.block]? = some block) (hend : block.nodes[c.index]? = none)
      (hbranch : block.terminator.kind = .branch →
        (c.values block.terminator.condition).lo ≠ 0)
      (hout : (step float program options c).state = some out) :
      AtSite c (.taken c.block) out
  | notTaken {block : Block} {out : CanonicalState}
      (hblock : program.blocks[c.block]? = some block) (hend : block.nodes[c.index]? = none)
      (hbranch : block.terminator.kind = .branch)
      (hcondition : (c.values block.terminator.condition).lo = 0)
      (hout : (step float program options c).state = some out) :
      AtSite c (.notTaken c.block) out

end Sites

/-- At every exit site of every run from the entry state, the entry state with
the dirty words stored over it is the state `Interpret` has. -/
def OverlayExact (program : Program) (table : OriginTable) (entry : CanonicalState) : Prop :=
  ∀ (σ : Type) (float : FloatUnit) (options : InterpretOptions σ) (memory : σ)
    (c : Configuration σ) (site : ExitSite) (out : CanonicalState) (state : StateMap),
    Reaches float program options entry memory c → AtSite float program options c site out →
    site.state program = some state →
    ∀ (slot : StateSlot) (word : ℕ), word < slot.wordCount →
      (out.slot slot).word word = overlay table entry c.values state slot word

/-! ### Words -/

lemma bits32_word_zero (x : BitVec 32) : (bits32 x).word 0 = x := by
  simp only [bits32, bits, U128.word]
  ext i hi
  have hwide : i < 64 := by omega
  simp [hwide, BitVec.getLsbD_eq_getElem hi]

lemma signExtend_word_zero (x : BitVec 32) : (bits (x.signExtend 64)).word 0 = x := by
  simp only [bits, U128.word]
  ext i hi
  have hwide : i < 64 := by omega
  simp [hwide, hi, BitVec.getElem_signExtend]

lemma setWidth_eq_word (value : U128) : value.lo.setWidth 32 = value.word 0 := by
  simp only [U128.word]
  ext i hi
  simp

lemma word_of_lo_eq {a b : U128} (h : a.lo = b.lo) {word : ℕ} (hword : word < 2) :
    a.word word = b.word word := by
  obtain rfl | rfl : word = 0 ∨ word = 1 := by omega
  all_goals simp [U128.word, h]

lemma word_of_hi_eq {a b : U128} (h : a.hi = b.hi) {word : ℕ} (hword : 2 ≤ word) :
    a.word word = b.word word := by
  unfold U128.word
  split
  · omega
  · omega
  · rw [h]
  · rw [h]

/-- The upper half as the lower half of another value. -/
lemma word_of_hi_eq_lo {a b : U128} (h : a.lo = b.hi) {word : ℕ} (hword : word < 2) :
    a.word word = b.word (2 + word) := by
  obtain rfl | rfl : word = 0 ∨ word = 1 := by omega
  all_goals simp [U128.word, h]

lemma word_of_lo_eq_hi {a b : U128} (h : a.hi = b.lo) {word : ℕ} (hword : word < 2) :
    a.word (2 + word) = b.word word := by
  obtain rfl | rfl : word = 0 ∨ word = 1 := by omega
  all_goals simp [U128.word, h]

lemma word_of_hi_eq_hi {a b : U128} (h : a.hi = b.hi) {word : ℕ} :
    a.word (2 + word) = b.word (2 + word) := word_of_hi_eq h (Nat.le_add_right _ _)

/-- Publishing a slot keeps its words unless they do not vary. -/
lemma word_publishedSlot {slot : StateSlot} {value : U128} {word : ℕ}
    (hslot : constantSlot slot = none) (hword : word < slot.wordCount) :
    (publishedSlot slot value).word word = value.word word := by
  unfold publishedSlot
  rw [hslot]
  simp only [StateSlot.truncate]
  split
  next => rfl
  next h => exact @word_of_lo_eq (bits value.lo) value rfl _ (h ▸ hword)
  next h4 h2 =>
    have hzero : word = 0 := by
      cases slot <;> simp_all [StateSlot.wordCount]
    rw [hzero, bits32_word_zero]

/-! ### Derived origins -/

/-- The words of a value with an origin are words of the entry state. -/
def Known (table : OriginTable) (entry : CanonicalState) (value : ValueId) (bits : U128) : Prop :=
  ∀ (word : ℕ) (origin : Origin), table value word = some origin →
    bits.word word = (entry.slot origin.1).word origin.2

section Derive

variable {float : FloatUnit} {program : Program} {table : OriginTable} {entry : CanonicalState}
  {values : ValueId → U128} {node : Node}

lemma operandWord_sound
    (h : ∀ value ∈ node.operands, Known table entry value (values value)) {operand word : ℕ}
    {origin : Origin} (horigin : operandWord table node operand word = some origin) :
    (node.operand values operand).word word = (entry.slot origin.1).word origin.2 := by
  unfold operandWord at horigin
  unfold Node.operand
  cases hvalue : node.operands[operand]? with
  | none => simp [hvalue] at horigin
  | some value =>
    rw [hvalue] at horigin
    exact h value (List.mem_of_getElem? hvalue) word origin horigin

/-- Copied words keep their origins when the result holds them. -/
lemma copyWords_sound
    (h : ∀ value ∈ node.operands, Known table entry value (values value))
    {operand sourceFirst destinationFirst count word : ℕ} {rest : WordOrigins} {result : U128}
    {origin : Origin}
    (hcopy : ∀ k < count,
      result.word (destinationFirst + k) = (node.operand values operand).word (sourceFirst + k))
    (hrest : rest word = some origin → result.word word = (entry.slot origin.1).word origin.2)
    (horigin : copyWords table node operand sourceFirst destinationFirst count rest word =
      some origin) : result.word word = (entry.slot origin.1).word origin.2 := by
  unfold copyWords at horigin
  split at horigin
  next hin =>
    have hword := hcopy (word - destinationFirst) (by omega)
    rw [Nat.add_sub_cancel' hin.1] at hword
    rw [hword]
    exact operandWord_sound h horigin
  next => exact hrest horigin

/-- A word of the first operand in the low word of the result. -/
lemma copyLow_sound (h : ∀ value ∈ node.operands, Known table entry value (values value))
    {result : U128} (hresult : result.word 0 = (node.operand values 0).word 0) :
    ∀ (word : ℕ) (origin : Origin),
      copyWords table node 0 0 0 1 invalidOrigins word = some origin →
      result.word word = (entry.slot origin.1).word origin.2 := by
  intro word origin horigin
  refine copyWords_sound h (fun k hk => ?_) (fun hrest => by cases hrest) horigin
  obtain rfl : k = 0 := by omega
  exact hresult

/-- The conjunction or disjunction of a value with itself. -/
lemma copySame_sound (h : ∀ value ∈ node.operands, Known table entry value (values value))
    {count : ℕ} {result : U128}
    (hresult : node.operand values 1 = node.operand values 0 →
      ∀ word < count, result.word word = (node.operand values 0).word word) :
    ∀ (word : ℕ) (origin : Origin),
      (if node.operands.length = 2 ∧ node.operands[0]? = node.operands[1]? then
          copyWords table node 0 0 0 count invalidOrigins
        else invalidOrigins) word = some origin →
      result.word word = (entry.slot origin.1).word origin.2 := by
  intro word origin horigin
  split at horigin
  next hsame =>
    have heq : node.operand values 1 = node.operand values 0 := by
      unfold Node.operand
      rw [hsame.2]
    refine copyWords_sound h (fun k hk => ?_) (fun hrest => by cases hrest) horigin
    rw [Nat.zero_add]
    exact hresult heq k hk
  next => cases horigin

/-- The origins derived for a node are right about the bits the node holds. -/
lemma derive_known (hoperands : ∀ value ∈ node.operands, Known table entry value (values value))
    (hload : node.opcode = .memoryLoadValue →
      Known table entry node.id (node.operand values 0))
    (hderived : table node.id = deriveOrigins program table node)
    (htype : ∃ signature ∈ signatures node.opcode, node.type = signature.2) {result : U128}
    (hresult : NodeResult float program values node result) :
    Known table entry node.id result := by
  by_cases hmemory : node.opcode = .memoryLoad
  · intro word origin horigin
    rw [hderived] at horigin
    simp only [deriveOrigins, hmemory] at horigin
    cases horigin
  obtain rfl := hresult.eq_evaluate hmemory
  by_cases hvalue : node.opcode = .memoryLoadValue
  · have hknown := hload hvalue
    simpa only [evaluate, hvalue] using hknown
  intro word origin horigin
  obtain ⟨origins, horigins⟩ : ∃ origins, origins = deriveOrigins program table node := ⟨_, rfl⟩
  rw [hderived, ← horigins] at horigin
  have hlow : (bits32 ((node.operand values 0).lo.setWidth 32)).word 0 =
      (node.operand values 0).word 0 := by rw [bits32_word_zero, setWidth_eq_word]
  obtain ⟨signature, hsignature, htype⟩ := htype
  unfold deriveOrigins at horigins
  split at horigins <;> subst horigins
  next hop => exact copyLow_sound hoperands (by simpa only [evaluate, hop] using hlow) _ _ horigin
  next hop => exact copyLow_sound hoperands (by simpa only [evaluate, hop] using hlow) _ _ horigin
  next hop => exact copyLow_sound hoperands (by simpa only [evaluate, hop] using hlow) _ _ horigin
  next hop => exact copyLow_sound hoperands (by simpa only [evaluate, hop] using hlow) _ _ horigin
  next hop =>
    refine copyLow_sound hoperands ?_ _ _ horigin
    simp only [evaluate, hop, signExtend_word_zero, setWidth_eq_word]
  next hop => exact copyLow_sound hoperands (by simpa only [evaluate, hop] using hlow) _ _ horigin
  next hop =>
    simp only [evaluate, hop]
    refine copyWords_sound hoperands (fun k hk => ?_) (fun hrest => by cases hrest) horigin
    rw [Nat.zero_add]
    exact word_of_lo_eq (by rfl) hk
  next hop =>
    simp only [evaluate, hop]
    refine copyWords_sound hoperands (fun k hk => ?_) (fun hrest => by cases hrest) horigin
    rw [Nat.zero_add]
    exact word_of_hi_eq_lo (by rfl) hk
  next hop =>
    simp only [evaluate, hop]
    refine copyWords_sound hoperands (fun k _ => word_of_hi_eq_hi (by rfl)) (fun hrest => ?_) horigin
    refine copyWords_sound hoperands (fun k hk => ?_) (fun hrest => by cases hrest) hrest
    rw [Nat.zero_add]
    exact word_of_lo_eq (by rfl) hk
  next hop =>
    simp only [evaluate, hop]
    refine copyWords_sound hoperands (fun k hk => ?_) (fun hrest => ?_) horigin
    · rw [Nat.zero_add]
      exact word_of_lo_eq_hi (by rfl) hk
    · refine copyWords_sound hoperands (fun k hk => ?_) (fun hrest => by cases hrest) hrest
      rw [Nat.zero_add]
      exact word_of_lo_eq (by rfl) hk
  next hop =>
    simp only [evaluate, hop]
    dsimp only at horigin
    split at horigin
    next hsame =>
      by_cases hcondition : (node.operand values 0).lo ≠ 0
      · rw [if_pos hcondition, ← operandWord_sound hoperands horigin]
        exact word_of_lo_eq (by rfl) hsame.1
      · rw [if_neg hcondition, ← operandWord_sound hoperands (hsame.2 ▸ horigin)]
        exact word_of_lo_eq (by rfl) hsame.1
    next => cases horigin
  next hop =>
    simp only [evaluate, hop]
    refine copyWords_sound hoperands (fun k hk => ?_) (fun hrest => ?_) horigin
    · rw [Nat.zero_add]
      exact word_of_lo_eq_hi (by rfl) hk
    · refine copyWords_sound hoperands (fun k hk => ?_) (fun hrest => by cases hrest) hrest
      rw [Nat.zero_add]
      exact word_of_lo_eq (by rfl) hk
  next hop =>
    simp only [evaluate, hop]
    refine copyWords_sound hoperands (fun k _ => word_of_hi_eq_hi (by rfl)) (fun hrest => ?_) horigin
    refine copyWords_sound hoperands (fun k hk => ?_) (fun hrest => by cases hrest) hrest
    rw [Nat.zero_add]
    exact word_of_hi_eq_lo (by rfl) hk
  next hop =>
    simp only [evaluate, hop]
    exact copyWords_sound hoperands (fun k _ => rfl) (fun hrest => by cases hrest) horigin
  next hop => exact absurd hop hvalue
  next hop =>
    simp only [hop, signatures, List.mem_singleton] at hsignature
    rw [htype, hsignature] at horigin
    refine copySame_sound hoperands (fun heq w hw => ?_) _ _ horigin
    obtain rfl : w = 0 := by simpa [valueWordCount] using hw
    simp only [evaluate, hop, heq, BitVec.and_self]
    exact hlow
  next hop =>
    simp only [hop, signatures, List.mem_singleton] at hsignature
    rw [htype, hsignature] at horigin
    refine copySame_sound hoperands (fun heq w hw => ?_) _ _ horigin
    simp only [evaluate, hop, heq, BitVec.and_self]
    exact word_of_lo_eq (by rfl) hw
  next hop =>
    simp only [hop, signatures, List.mem_singleton] at hsignature
    rw [htype, hsignature] at horigin
    refine copySame_sound hoperands (fun heq w hw => ?_) _ _ horigin
    simp only [evaluate, hop, heq, BitVec.or_self]
    exact word_of_lo_eq (by rfl) hw
  next hop =>
    refine copySame_sound hoperands (fun heq w _ => ?_) _ _ horigin
    simp only [evaluate, hop, heq, BitVec.and_self]
  next hop =>
    refine copySame_sound hoperands (fun heq w _ => ?_) _ _ horigin
    simp only [evaluate, hop, heq, BitVec.or_self]
  next => cases horigin

end Derive

/-! ### Runs -/

section Run

variable {σ : Type} {float : FloatUnit} {program : Program} {options : InterpretOptions σ}
  {table : OriginTable} {entry : CanonicalState} {memory : σ}

/-- The zero register and the constant vector hold their constants. -/
def HoldsConstants (entry : CanonicalState) : Prop :=
  ∀ slot constant, constantSlot slot = some constant → entry.slot slot = constant

/-- The delay slot of a block is executed, or the position is in front of it. -/
def Live (block : Block) (values : ValueId → U128) (position : ℕ) : Prop :=
  position < block.firstNode block.terminator.delaySlotPc ∨ annulling block values = false

/-- What holds of the running block: known values, the upper halves of scalar
loads, the constants, and at its entry the state its parameters hold. -/
structure OriginInvariant (table : OriginTable) (entry : CanonicalState) (block : Block)
    (c : Configuration σ) : Prop where
  index : parameterCount ≤ c.index
  known : ∀ (position : ℕ) (node : Node), position < c.index →
    block.nodes[position]? = some node → Live block c.values position →
    Known table entry node.id (c.values node.id)
  load : ∀ (position : ℕ) (node : Node) (kind : MemoryAccessKind), position < c.index →
    block.nodes[position]? = some node → Live block c.values position →
    node.opcode = .memoryLoad → node.accessKind = some kind → kind.valueType = .i128 →
    kind ≠ .load128 → (c.values node.id).hi = (node.operand c.values 2).hi
  constant : ∀ slot constant, constantSlot slot = some constant →
    c.values (block.parameters (.slot slot)) = constant
  entered : c.index = parameterCount →
    ∀ slot, c.values (block.parameters (.slot slot)) = c.current.slot slot

lemma loadedBits_hi {kind : MemoryAccessKind} {oldValue raw result : U128}
    (h : loadedBits kind oldValue raw = some result) (htype : kind.valueType = .i128)
    (hkind : kind ≠ .load128) : result.hi = oldValue.hi := by
  cases kind <;> simp_all [loadedBits, MemoryAccessKind.valueType] <;> rw [← h]

lemma publishedSlot_constant {slot : StateSlot} {constant value : U128}
    (hslot : constantSlot slot = some constant) : publishedSlot slot value = constant := by
  unfold publishedSlot
  rw [hslot]

section Steps

variable (hv : Verified program) (hfix : OriginFixpoint program table)
include hv hfix

/-- The parameters at the entry of a block. -/
lemma originInvariant_entered {index : ℕ} {block : Block} {c : Configuration σ}
    (hblock : program.blocks[index]? = some block)
    {state : CanonicalState} {memoryEffect : U128} {values : ValueId → U128}
    (hindex : c.index = parameterCount) (hcurrent : c.current = state)
    (hvalues : c.values = assignParameters block.parameters state memoryEffect values)
    (hconstant : HoldsConstants state)
    (hwords : ∀ slot word, word < slot.wordCount →
      (∀ p ∈ incoming program index, table (p.state (.slot slot)) word = some (slot, word)) →
      (state.slot slot).word word = (entry.slot slot).word word) :
    OriginInvariant table entry block c := by
  have hinj := hv.parameters_injective hblock
  have hb := hv.block_of_mem hblock
  have hparameter : ∀ slot, c.values (block.parameters (.slot slot)) = state.slot slot :=
    fun slot => by rw [hvalues, assignParameters_field hinj]; rfl
  refine ⟨hindex.ge, fun position node hposition hnode _ word origin horigin => ?_,
    fun position node kind hposition hnode _ hopcode => ?_,
    fun slot constant hslot => (hparameter slot).trans (hconstant slot constant hslot),
    fun _ slot => (hparameter slot).trans (by rw [hcurrent])⟩
  · have hlt : position < StateField.all.length := by rw [length_all, ← hindex]; exact hposition
    obtain ⟨node', hnode', hid, -⟩ := hb.parameterAt (List.getElem?_eq_getElem hlt)
    rw [hnode] at hnode'
    cases hnode'
    rw [hid] at horigin ⊢
    obtain ⟨slot, hfield, rfl, hword, hincoming⟩ :=
      hfix.parameter index block hblock _ word origin horigin
    rw [hfield, hparameter]
    exact hwords slot word hword hincoming
  · have hparameter := (hb.lt_parameterCount_iff hnode).mp (hindex ▸ hposition)
    rw [hparameter] at hopcode
    cases hopcode

/-- A published value is known. -/
lemma OriginInvariant.known_published {index : ℕ} {block : Block} {c : Configuration σ}
    (hinv : OriginInvariant table entry block c)
    (hblock : program.blocks[index]? = some block) {limit : ℕ} {state : StateMap}
    (hlimit : limit ≤ c.index) (hstate : PublishedAt block c.values limit state)
    (slot : StateSlot) :
    Known table entry (state (.slot slot)) (c.values (state (.slot slot))) := by
  obtain ⟨bound, advance, hbound, hskipped, rfl, hadvance⟩ := hstate
  by_cases hcycle : slot = .cycle ∧ advance ≠ none
  · -- a cycle advance has no origin
    obtain ⟨rfl, hsome⟩ := hcycle
    obtain ⟨value, rfl⟩ := Option.ne_none_iff_exists'.mp hsome
    obtain ⟨node, hmem, hid, hopcode⟩ := hadvance value rfl
    intro word origin horigin
    have hderived := hfix.derived node
      (List.mem_flatMap.mpr ⟨block, List.mem_of_getElem? hblock, hmem⟩) (by simp [hopcode])
    simp only [Block.withCycle, Function.update_self] at horigin
    rw [← hid, hderived] at horigin
    simp only [deriveOrigins, hopcode] at horigin
    cases horigin
  · have hstate : Block.withCycle (block.stateAt bound) advance (.slot slot) =
        block.stateAt bound (.slot slot) := by
      by_cases hslot : slot = .cycle
      · have hnone : advance = none := by_contra fun h => hcycle ⟨hslot, h⟩
        rw [hnone]
        rfl
      · exact Block.withCycle_of_ne hslot
    rw [hstate]
    obtain ⟨position, node, hnode, hid, hposition⟩ :=
      (hv.block_of_mem hblock).stateAt_defined bound slot
    rw [← hid]
    refine hinv.known position node ?_ hnode ?_
    · have hindex := hinv.index
      omega
    · cases hannulling : annulling block c.values with
      | false => exact Or.inr hannulling
      | true =>
        have hfirst := block.parameterCount_le_firstNode block.terminator.delaySlotPc
        have hle := hskipped hannulling
        exact Or.inl (by omega)

omit hv hfix in
/-- A skipped node is behind the first node of the delay slot. -/
lemma OriginInvariant.skip {block : Block} {c c' : Configuration σ} {node : Node}
    (hinv : OriginInvariant table entry block c)
    (hnode : block.nodes[c.index]? = some node)
    (hannulled : annulled block c.values node = true) (hindex : c'.index = c.index + 1)
    (hvalues : c'.values = c.values) : OriginInvariant table entry block c' := by
  have hlast : ¬ Live block c.values c.index := by
    rw [annulled_eq, Bool.and_eq_true, Bool.and_eq_true, beq_iff_eq] at hannulled
    obtain ⟨⟨hannulling, -⟩, hpc⟩ := hannulled
    rintro (hlt | hoff)
    · exact Block.sourcePc_ne_of_lt_firstNode hinv.index hnode hlt hpc
    · rw [hannulling] at hoff
      cases hoff
  have hold : ∀ position, position < c'.index → Live block c.values position →
      position < c.index := by
    intro position hposition hlive
    rcases Nat.lt_or_eq_of_le (Nat.le_of_lt_succ (hindex ▸ hposition)) with hlt | rfl
    · exact hlt
    · exact absurd hlive hlast
  refine ⟨by have := hinv.index; omega, ?_, ?_, ?_, fun hentry => ?_⟩
  · intro position n hposition hn hlive
    rw [hvalues] at hlive ⊢
    exact hinv.known position n (hold position hposition hlive) hn hlive
  · intro position n kind hposition hn hlive
    rw [hvalues] at hlive ⊢
    exact hinv.load position n kind (hold position hposition hlive) hn hlive
  · rw [hvalues]
    exact hinv.constant
  · have := hinv.index
    omega

omit hfix in
/-- The operands of a live node are known. -/
lemma OriginInvariant.known_operand {index : ℕ} {block : Block} {c : Configuration σ}
    (hinv : OriginInvariant table entry block c) (hblock : program.blocks[index]? = some block)
    {position : ℕ} {node : Node} (hposition : parameterCount ≤ position)
    (hle : position ≤ c.index) (hnode : block.nodes[position]? = some node)
    (hlive : Live block c.values position) :
    ∀ value ∈ node.operands, Known table entry value (c.values value) := by
  intro value hvalue
  obtain ⟨n, hn⟩ := (hv.block_of_mem hblock).operand_definition hposition hnode hvalue
  obtain ⟨j, hj, hget, rfl⟩ := Block.definition_eq_some hn
  refine hinv.known j n (by omega) hget ?_
  rcases hlive with hlt | hoff
  · exact Or.inl (by omega)
  · exact Or.inr hoff

/-- The value of a scalar load keeps the upper words it loads over. -/
lemma OriginInvariant.known_load {index : ℕ} {block : Block} {c : Configuration σ}
    (hinv : OriginInvariant table entry block c) (hblock : program.blocks[index]? = some block)
    {node : Node} (hnode : block.nodes[c.index]? = some node)
    (hlive : Live block c.values c.index) (hopcode : node.opcode = .memoryLoadValue) :
    Known table entry node.id (node.operand c.values 0) := by
  have hb := hv.block_of_mem hblock
  obtain ⟨load, j, kind, heffect, hj, hget, hload, -, hkind, htype⟩ :=
    hb.load_of_value hinv.index hnode hopcode
  have hj' : parameterCount ≤ j := by
    refine not_lt.mp fun hlt => ?_
    have hparameter := (hb.lt_parameterCount_iff hget).mp hlt
    rw [hload] at hparameter
    cases hparameter
  have hlive' : Live block c.values j := hlive.imp_left fun hlt => hj.trans hlt
  have hvalue : node.operand c.values 0 = c.values load.id := by
    unfold Node.operand
    rw [heffect]
  intro word origin horigin
  rw [hfix.derived node (mem_nodes hblock hnode) (by simp [hopcode])] at horigin
  simp only [deriveOrigins, hopcode, loadOrigins, heffect, Option.bind_some,
    definition_of_mem hv (mem_nodes hblock hget)] at horigin
  split at horigin
  next hscalar =>
    obtain ⟨-, -, htype', hquad, hword⟩ := hscalar
    have hhi := hinv.load j load kind hj hget hlive' hload hkind (htype ▸ htype')
      fun heq => hquad (by rw [hkind, heq])
    rw [hvalue, word_of_hi_eq hhi (by omega)]
    exact operandWord_sound (hinv.known_operand hv hblock hj' hj.le hget hlive') horigin
  next => cases horigin

/-- An executed node keeps the invariant. -/
lemma OriginInvariant.execute {index : ℕ} {block : Block} {c c' : Configuration σ} {node : Node}
    {result : U128} (hinv : OriginInvariant table entry block c)
    (hblock : program.blocks[index]? = some block) (hnode : block.nodes[c.index]? = some node)
    (hresult : NodeResult float program c.values node result) (hindex : c'.index = c.index + 1)
    (hvalues : c'.values = Function.update c.values node.id result) :
    OriginInvariant table entry block c' := by
  have hb := hv.block_of_mem hblock
  have hself : c'.values node.id = result := by rw [hvalues, Function.update_self]
  have hkeep : ∀ (j : ℕ) (n : Node), block.nodes[j]? = some n → j ≠ c.index →
      c'.values n.id = c.values n.id := by
    intro j n hn hne
    rw [hvalues]
    refine Function.update_of_ne (fun heq => hne ?_) _ _
    exact hv.position_eq hblock hn hnode heq
  -- the predicate of a branch is not computed behind the delay slot
  have hlive : ∀ position ≤ c.index, Live block c'.values position →
      Live block c.values position := by
    rintro position hposition (hlt | hoff)
    · exact Or.inl hlt
    · by_cases hkind : block.terminator.kind = .branch
      · obtain ⟨j, n, hn, hid, hj⟩ := hb.condition_lt_firstNode hkind
        by_cases heq : j = c.index
        · exact Or.inl (by omega)
        · refine Or.inr ?_
          unfold annulling at hoff ⊢
          rwa [← hid, hkeep j n hn heq, hid] at hoff
      · exact Or.inr (by simp [annulling, hkind])
  have hparameter : ∀ field, c'.values (block.parameters field) =
      c.values (block.parameters field) := by
    intro field
    rw [hvalues]
    exact Function.update_of_ne (hv.parameter_ne hblock hblock hinv.index hnode field) _ _
  have hoperands : ∀ (j : ℕ) (n : Node), parameterCount ≤ j → j ≤ c.index →
      block.nodes[j]? = some n → n.operand c'.values 2 = n.operand c.values 2 := by
    intro j n hj hle hn
    unfold Node.operand
    cases hvalue : n.operands[2]? with
    | none => rfl
    | some value =>
      obtain ⟨m, hm⟩ := hb.operand_definition hj hn (List.mem_of_getElem? hvalue)
      obtain ⟨k, hk, hget, rfl⟩ := Block.definition_eq_some hm
      exact hkeep k m hget (by omega)
  refine ⟨by have := hinv.index; omega, ?_, ?_, ?_, fun hentry => ?_⟩
  · intro position n hposition hn hlive'
    have hlive := hlive position (by omega) hlive'
    by_cases heq : position = c.index
    · subst heq
      rw [hnode] at hn
      cases hn
      rw [hself]
      obtain ⟨signature, hsignature, htype, -⟩ := hb.signature hinv.index hnode
      exact derive_known (hinv.known_operand hv hblock hinv.index le_rfl hnode hlive)
        (hinv.known_load hv hfix hblock hnode hlive)
        (hfix.derived node (mem_nodes hblock hnode) (hb.opcode_ne_parameter hinv.index hnode))
        ⟨signature, hsignature, htype⟩ hresult
    · rw [hkeep position n hn heq]
      exact hinv.known position n (by omega) hn hlive
  · intro position n kind hposition hn hlive' hopcode hkind htype hquad
    have hlive := hlive position (by omega) hlive'
    have hn' : parameterCount ≤ position := by
      refine not_lt.mp fun hlt => ?_
      rw [(hb.lt_parameterCount_iff hn).mp hlt] at hopcode
      cases hopcode
    rw [hoperands position n hn' (by omega) hn]
    by_cases heq : position = c.index
    · subst heq
      rw [hnode] at hn
      cases hn
      rw [hself]
      rw [NodeResult, if_pos hopcode] at hresult
      obtain ⟨kind', raw, hkind', hloaded⟩ := hresult
      rw [hkind] at hkind'
      cases hkind'
      exact loadedBits_hi hloaded htype hquad
    · rw [hkeep position n hn heq]
      exact hinv.load position n kind (by omega) hn hlive hopcode hkind htype hquad
  · intro slot constant hslot
    rw [hparameter]
    exact hinv.constant slot constant hslot
  · have := hinv.index
    omega

/-- The invariant holds at every configuration of a run. -/
lemma originInvariant_of_reaches (hentry : HoldsConstants entry) {c : Configuration σ}
    (h : Reaches float program options entry memory c) :
    ∃ block, program.blocks[c.block]? = some block ∧ OriginInvariant table entry block c := by
  induction h with
  | init hstart =>
    obtain ⟨block, hblock, hentryBlock, hindex, hcurrent, hvalues⟩ := start_cases hstart
    refine ⟨block, hentryBlock ▸ hblock, originInvariant_entered hv hfix hblock hindex hcurrent
      hvalues (fun slot constant hslot => publishedSlot_constant hslot)
      fun slot word hword _ => ?_⟩
    cases hslot : constantSlot slot with
    | none => exact word_publishedSlot hslot hword
    | some constant =>
      rw [hentry slot constant hslot]
      exact congrArg (fun value => U128.word value word) (publishedSlot_constant hslot)
  | @tail c c' _ hstep ih =>
    obtain ⟨block, hblock, hinv⟩ := ih
    obtain ⟨block', hblock', hcase⟩ := step_cases hstep
    rw [hblock] at hblock'
    cases hblock'
    cases hcase with
    | skipped node hnode hannulled hb hi hvalues =>
      exact ⟨block, hb ▸ hblock, hinv.skip hnode hannulled hi hvalues⟩
    | executed node result hnode hannulled hresult hb hi hvalues =>
      exact ⟨block, hb ▸ hblock, hinv.execute hv hfix hblock hnode hresult hi hvalues⟩
    | edge target next hend htarget hnext hb hi hcurrent hvalues =>
      refine ⟨next, hb ▸ hnext, originInvariant_entered hv hfix hnext hi hcurrent hvalues
        (fun slot constant hslot => publishedSlot_constant hslot) fun slot word hword horigin => ?_⟩
      cases hslot : constantSlot slot with
      | none =>
        have hmem : selectTransfer block c.values ∈ incoming program target :=
          List.mem_flatMap.mpr ⟨block, List.mem_of_getElem? hblock,
            List.mem_filter.mpr ⟨selectTransfer_mem htarget, by simp [htarget]⟩⟩
        have hpublished := (hv.block_of_mem hblock).publishedAt_selectTransfer c.values
        have hlength := List.getElem?_eq_none_iff.mp hend
        rw [← hinv.known_published hv hfix hblock hlength hpublished slot word _
          (horigin _ hmem)]
        exact word_publishedSlot hslot hword
      | some constant =>
        rw [hentry slot constant hslot]
        exact congrArg (fun value => U128.word value word) (publishedSlot_constant hslot)

end Steps

end Run

end VitaSX2.RegionExecution
