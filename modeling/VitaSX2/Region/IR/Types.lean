/-
The values of a verified program have the width of their types.

Every node stores bits that fit its type, whatever the memory interface answers,
so the casts with which `Interpret` narrows a value to its slot lose nothing.
-/
import VitaSX2.Region.IR.Lift
import VitaSX2.Region.IR.Publish

namespace VitaSX2.RegionIR

/-! ### Values of a type -/

/-- The bits a value of a type can have; a memory effect carries what was loaded. -/
def ValueType.Fits : ValueType → U128 → Prop
  | .void, value => value = 0
  | .i1, value => value = bits (value.lo &&& 1)
  | .i32, value | .f32Bits, value | .address, value => value = bits32 (value.lo.setWidth 32)
  | .i64, value | .cycle, value => value = bits value.lo
  | .i128, _ | .vuF32x4Bits, _ | .memoryEffect, _ => True

namespace ValueType

lemma fits_zero (type : ValueType) : type.Fits 0 := by
  cases type <;> trivial

lemma fits_bits32 {type : ValueType} (word : BitVec 32)
    (h : type = .i32 ∨ type = .f32Bits ∨ type = .address) : type.Fits (bits32 word) := by
  rcases h with rfl | rfl | rfl <;> simp [Fits, bits32]

lemma fits_bits {type : ValueType} (lo : BitVec 64) (h : type = .i64 ∨ type = .cycle) :
    type.Fits (bits lo) := by
  rcases h with rfl | rfl <;> rfl

lemma fits_i64_bits32 (word : BitVec 32) : ValueType.Fits .i64 (bits32 word) := rfl

lemma fits_bitsOfBool (condition : Bool) : ValueType.Fits .i1 (bitsOfBool condition) := by
  cases condition <;> rfl

lemma fits_i1_bits32 (word : BitVec 32) : ValueType.Fits .i1 (bits32 (word >>> 31 &&& 1)) := by
  simp only [Fits, bits32, bits_lo]
  congr 1
  ext i hi
  simp only [BitVec.getElem_and, BitVec.getElem_setWidth]
  cases h : decide (i = 0) <;> simp_all

end ValueType

/-! ### Checks of widths -/

/-- A memory node moves the way of its access, to or from a register of its type. -/
def Block.checkAccess (block : Block) (index : ℕ) (node : Node) (load : Bool) : Bool :=
  node.accessKind.any fun kind =>
    kind.isLoad == load &&
      (node.operands[2]?).any fun value => block.requireOperand index value kind.valueType

/-- The checks of `Verify` on the width of a constant and on the access of a memory node. -/
def Block.checkWidth (block : Block) (node : Node) (index : ℕ) : Bool :=
  match node.opcode with
  | .constantI1 => decide (node.literal ≤ 1)
  | .constantI32 | .constantAddress => decide (node.literal ≤ 0xffffffff#64)
  | .memoryLoad => block.checkAccess index node true
  | .memoryStore => block.checkAccess index node false
  | _ => true

def Program.checkWidths (program : Program) : Bool :=
  program.blocks.all fun block =>
    (block.nodes.zipIdx.drop parameterCount).all fun entry => block.checkWidth entry.1 entry.2

lemma Program.checkWidth_of_mem {program : Program} (h : program.checkWidths = true)
    {block : Block} (hblock : block ∈ program.blocks) {index : ℕ} {node : Node}
    (hindex : parameterCount ≤ index) (hnode : block.nodes[index]? = some node) :
    block.checkWidth node index = true := by
  simp only [Program.checkWidths, List.all_eq_true] at h
  refine h block hblock (node, index) (List.mem_iff_getElem?.mpr ⟨index - parameterCount, ?_⟩)
  rw [List.getElem?_drop, Nat.add_sub_cancel' hindex, List.getElem?_zipIdx, hnode]
  simp

/-! ### Evaluated nodes -/

/-- A constant fits its type when it is no wider. -/
def Node.literalFits (node : Node) : Prop :=
  match node.opcode with
  | .constantI1 => node.literal ≤ 1
  | .constantI32 | .constantAddress => node.literal ≤ 0xffffffff#64
  | _ => True

lemma bits_literal_word {literal : BitVec 64} (h : literal ≤ 0xffffffff#64) :
    bits literal = bits32 (literal.setWidth 32) := by
  have hlt : literal.toNat < 2 ^ 32 := Nat.lt_succ_of_le (BitVec.le_def.mp h)
  simp only [bits32]
  congr 1
  apply BitVec.eq_of_toNat_eq
  rw [BitVec.toNat_setWidth, BitVec.toNat_setWidth, Nat.mod_eq_of_lt hlt,
    Nat.mod_eq_of_lt (by omega)]

lemma bits_literal_bit {literal : BitVec 64} (h : literal ≤ 1) :
    literal = 0 ∨ literal = 1 := by
  have hle : literal.toNat ≤ 1 := BitVec.le_def.mp h
  rcases Nat.le_one_iff_eq_zero_or_eq_one.mp hle with h | h
  · exact Or.inl (BitVec.eq_of_toNat_eq h)
  · exact Or.inr (BitVec.eq_of_toNat_eq h)

/-- What a node stores fits its type, if it does not pass on an operand. -/
lemma evaluate_fits (float : FloatUnit) (clamp : Bool) (values : ValueId → U128) {node : Node}
    {inputs : List ValueType} (hsignature : (inputs, node.type) ∈ signatures node.opcode)
    (hliteral : node.literalFits) (hvalue : node.opcode ≠ .memoryLoadValue)
    (hidle : node.opcode ≠ .vu0RequireIdle) :
    node.type.Fits (evaluate float clamp values node) := by
  obtain ⟨id, opcode, type, operands, immediate, literal, pc⟩ := node
  cases opcode <;>
    simp only [signatures, List.mem_cons, List.not_mem_nil, or_false, Prod.mk.injEq]
      at hsignature <;>
    first
    | exact absurd rfl hvalue
    | exact absurd rfl hidle
    | skip
  case constantI1 =>
    obtain ⟨-, rfl⟩ := hsignature
    show ValueType.Fits .i1 (bits literal)
    rcases bits_literal_bit hliteral with rfl | rfl <;> rfl
  case constantI32 | constantAddress =>
    obtain ⟨-, rfl⟩ := hsignature
    show ValueType.Fits _ (bits literal)
    rw [bits_literal_word hliteral]
    exact ValueType.fits_bits32 _ (by simp)
  case zeroExtend32To64 =>
    rcases hsignature with ⟨-, rfl⟩ | ⟨-, rfl⟩ <;> exact ValueType.fits_i64_bits32 _
  case memoryLoad | memoryStore =>
    rcases hsignature with ⟨-, rfl⟩ | ⟨-, rfl⟩ | ⟨-, rfl⟩ <;> trivial
  -- The type is settled first: it says which form the result has.
  all_goals
    have htype := hsignature.2
    first
    | (have h : type = .i32 := htype; exact ValueType.fits_bits32 _ (Or.inl h))
    | (have h : type = .f32Bits := htype; exact ValueType.fits_bits32 _ (Or.inr (Or.inl h)))
    | (have h : type = .address := htype; exact ValueType.fits_bits32 _ (Or.inr (Or.inr h)))
    | (have h : type = .i64 := htype; exact ValueType.fits_bits _ (Or.inl h))
    | (have h : type = .cycle := htype; exact ValueType.fits_bits _ (Or.inr h))
    | (subst htype; first
        | trivial
        | exact ValueType.fits_bitsOfBool _
        | exact ValueType.fits_i1_bits32 _)

lemma loadedBits_fits {kind : MemoryAccessKind} {oldValue raw loaded : U128}
    (hold : kind.valueType.Fits oldValue) (h : loadedBits kind oldValue raw = some loaded) :
    kind.valueType.Fits loaded := by
  cases kind <;> simp only [loadedBits, Option.some.injEq, reduceCtorEq] at h <;>
    first
    | trivial
    | skip
  case loadF32Bits =>
    have hhi : oldValue.hi = 0 := congrArg U128.hi hold
    rw [← h]
    simp only [MemoryAccessKind.valueType, ValueType.Fits, bits32, bits, hhi]
    simp

/-! ### Typed value tables -/

/-- The type of the bits a node stores; a load keeps what it loaded under its own name. -/
def Node.storedType (node : Node) : ValueType :=
  if node.opcode = .memoryLoad then (node.accessKind.map MemoryAccessKind.valueType).getD .i128
  else node.type

/-- Every value of the program fits its type. -/
def WellTyped (program : Program) (values : ValueId → U128) : Prop :=
  ∀ node ∈ program.nodes, node.storedType.Fits (values node.id)

namespace VerifiedBlock

variable {program : Program} {block : Block} (hb : VerifiedBlock program block)
include hb

lemma storedType_eq {index : ℕ} {node : Node} (hnode : block.nodes[index]? = some node)
    (htype : node.type ≠ .memoryEffect) : node.storedType = node.type := by
  refine if_neg fun hload => htype ?_
  have hindex : parameterCount ≤ index := by
    by_contra hlt
    have := (hb.lt_parameterCount_iff hnode).mp (not_le.mp hlt)
    rw [hload] at this
    cases this
  obtain ⟨signature, hmem, htype, -⟩ := hb.signature hindex hnode
  rw [hload] at hmem
  simp only [signatures, List.mem_cons, List.not_mem_nil, or_false] at hmem
  rcases hmem with rfl | rfl | rfl <;> exact htype

/-- The value of an operand fits the type that is required of it. -/
lemma operand_fits {i index : ℕ} (hblock : program.blocks[i]? = some block)
    {values : ValueId → U128} (hv : WellTyped program values) {value : ValueId} {type : ValueType}
    (hrequire : block.requireOperand index value type = true) (hload : type ≠ .memoryEffect) :
    type.Fits (values value) := by
  obtain ⟨operand, hdefinition, htype⟩ := (Option.any_eq_true _ _).mp hrequire
  obtain ⟨position, -, hget, rfl⟩ := Block.definition_eq_some hdefinition
  rw [beq_iff_eq] at htype
  subst htype
  rw [← hb.storedType_eq hget hload]
  exact hv operand (mem_nodes hblock hget)

end VerifiedBlock

/-- The operands that a signature asks for. -/
lemma required_operand {block : Block} {node : Node} {index : ℕ} {inputs : List ValueType}
    (hlength : node.operands.length = inputs.length)
    (hoperands : ∀ operand ∈ node.operands.zip inputs,
      block.requireOperand index operand.1 operand.2 = true)
    {position : ℕ} {type : ValueType} (htype : inputs[position]? = some type) :
    ∃ value, node.operands[position]? = some value ∧
      block.requireOperand index value type = true := by
  obtain ⟨hlt, rfl⟩ := List.getElem?_eq_some_iff.mp htype
  refine ⟨node.operands[position], List.getElem?_eq_getElem _, hoperands (_, _) ?_⟩
  exact List.mem_iff_getElem.mpr ⟨position, by simp [hlength, hlt], by simp⟩

/-- A slot of a canonical state fits the type of its parameter. -/
lemma slot_fits (state : CanonicalState) (slot : StateSlot) :
    (StateField.slot slot).type.Fits (state.slot slot) := by
  have hfits := state.fits slot
  cases slot <;> first | trivial | exact hfits.symm

lemma field_fits (state : CanonicalState) (memoryEffect : U128) (field : StateField) :
    field.type.Fits (state.field memoryEffect field) := by
  cases field with
  | slot slot => exact slot_fits state slot
  | memoryEffect => trivial

section Preservation

variable {σ : Type} {float : FloatUnit} {program : Program} {options : InterpretOptions σ}
  {values : ValueId → U128} (hv : Verified program) (hwidths : program.checkWidths = true)
include hv hwidths

/-- An executed node stores bits that fit its type. -/
lemma nodeResult_fits (htyped : WellTyped program values) {i index : ℕ} {block : Block}
    {node : Node} (hblock : program.blocks[i]? = some block) (hindex : parameterCount ≤ index)
    (hnode : block.nodes[index]? = some node) {result : U128}
    (hresult : NodeResult float program values node result) : node.storedType.Fits result := by
  have hb := hv.block_of_mem hblock
  have hwidth := Program.checkWidth_of_mem hwidths (List.mem_of_getElem? hblock) hindex hnode
  obtain ⟨signature, hmem, htype, hlength, hoperands⟩ := hb.signature hindex hnode
  by_cases hload : node.opcode = .memoryLoad
  · rw [NodeResult, if_pos hload] at hresult
    obtain ⟨kind, raw, hkind, hloaded⟩ := hresult
    simp only [Block.checkWidth, hload, Block.checkAccess, hkind, Option.any_some,
      Bool.and_eq_true, Option.any_eq_true] at hwidth
    obtain ⟨-, value, hvalue, hrequire⟩ := hwidth
    rw [Node.storedType, if_pos hload, hkind, Option.map_some, Option.getD_some]
    refine loadedBits_fits ?_ hloaded
    rw [Node.operand, hvalue]
    exact hb.operand_fits hblock htyped hrequire (by cases kind <;> simp [MemoryAccessKind.valueType])
  · rw [Node.storedType, if_neg hload]
    rw [hresult.eq_evaluate hload]
    by_cases hvalue : node.opcode = .memoryLoadValue
    · obtain ⟨load, j, kind, hoperand, -, hget, hloadOpcode, -, hkind, htype⟩ :=
        hb.load_of_value hindex hnode hvalue
      have hfits := htyped load (mem_nodes hblock hget)
      rw [Node.storedType, if_pos hloadOpcode, hkind, Option.map_some, Option.getD_some] at hfits
      simpa only [evaluate, hvalue, Node.operand, hoperand, htype] using hfits
    · by_cases hidle : node.opcode = .vu0RequireIdle
      · rw [hidle] at hmem
        have hsecond : signature.1[1]? = some node.type ∧ node.type ≠ .memoryEffect := by
          simp only [signatures, List.mem_cons, List.not_mem_nil, or_false] at hmem
          rcases hmem with rfl | rfl | rfl <;> simp [htype]
        obtain ⟨value, hget, hrequire⟩ := required_operand hlength hoperands hsecond.1
        simpa only [evaluate, hidle, Node.operand, hget] using
          hb.operand_fits hblock htyped hrequire hsecond.2
      · refine @evaluate_fits _ _ _ node signature.1 (by rwa [htype]) ?_ hvalue hidle
        unfold Node.literalFits
        unfold Block.checkWidth at hwidth
        split <;> simp_all

omit hwidths in
/-- The parameters of a block fit their types. -/
lemma wellTyped_assign {i : ℕ} {block : Block} (hblock : program.blocks[i]? = some block)
    (htyped : WellTyped program values) (state : CanonicalState) (memoryEffect : U128) :
    WellTyped program (assignParameters block.parameters state memoryEffect values) := by
  intro node hnode
  by_cases hfield : ∃ field, block.parameters field = node.id
  · obtain ⟨field, hid⟩ := hfield
    obtain ⟨index, parameter, -, -, hget, hparameter, hopcode, htype, -⟩ :=
      (hv.block_of_mem hblock).parameter field
    obtain rfl := hv.node_eq hnode (mem_nodes hblock hget) (hid.symm.trans hparameter.symm)
    rw [← hid, assignParameters_field (hv.parameters_injective hblock), Node.storedType, hopcode,
      if_neg (by simp), htype]
    exact field_fits state memoryEffect field
  · rw [assignParameters_other fun field h => hfield ⟨field, h⟩]
    exact htyped node hnode

/-- The invariant of a run: every value fits its type. -/
lemma wellTyped_step {c c' : Configuration σ} (hindex : parameterCount ≤ c.index)
    (htyped : WellTyped program c.values) (hstep : step float program options c = .next c') :
    parameterCount ≤ c'.index ∧ WellTyped program c'.values := by
  obtain ⟨block, hblock, hcase⟩ := step_cases hstep
  cases hcase with
  | skipped node hnode hannulled hsame hnext hvalues =>
    exact ⟨by omega, by rwa [hvalues]⟩
  | executed node result hnode hannulled hresult hsame hnext hvalues =>
    refine ⟨by omega, fun other hother => ?_⟩
    rw [hvalues]
    by_cases hid : other.id = node.id
    · obtain rfl := hv.node_eq hother (mem_nodes hblock hnode) hid
      rw [Function.update_self]
      exact nodeResult_fits hv hwidths htyped hblock hindex hnode hresult
    · rw [Function.update_of_ne hid]
      exact htyped other hother
  | edge target next hend htarget hnext hsame hfirst hcurrent hvalues =>
    refine ⟨hfirst.ge, ?_⟩
    rw [hvalues]
    exact wellTyped_assign hv hnext htyped _ _

lemma wellTyped_of_reaches {input : CanonicalState} {memory : σ} {c : Configuration σ}
    (hreaches : Reaches float program options input memory c) :
    parameterCount ≤ c.index ∧ WellTyped program c.values := by
  refine hreaches.induct (P := fun c => parameterCount ≤ c.index ∧ WellTyped program c.values)
    (fun c hstart => ?_) (fun c c' h hstep => wellTyped_step hv hwidths h.1 h.2 hstep)
  obtain ⟨entry, hentry, -, hindex, -, hvalues⟩ := start_cases hstart
  refine ⟨hindex.ge, ?_⟩
  rw [hvalues]
  exact wellTyped_assign hv hentry (fun node _ => ValueType.fits_zero _) _ _

end Preservation

/-! ### Published values -/

/-- A binding takes a value of the type of its slot. -/
lemma boundSlot_type {node : Node} {slot : StateSlot} {signature : List ValueType × ValueType}
    (hslot : node.boundSlot = some slot) (hmem : signature ∈ signatures node.opcode) :
    signature.1[0]? = some (StateField.slot slot).type := by
  unfold Node.boundSlot at hslot
  split at hslot <;>
    simp only [*, signatures, List.mem_cons, List.not_mem_nil, or_false] at hmem <;>
    first
    | (cases hslot; subst hmem; rfl)
    | (split at hslot <;> cases hslot <;> subst hmem <;> rfl)
    | cases hslot

/-- A memory node is the memory effect behind it. -/
lemma publish_memoryEffect_cases (state : StateMap) (node : Node) :
    publish state node .memoryEffect = state .memoryEffect ∨
      (node.opcode = .memoryLoad ∨ node.opcode = .memoryStore) ∧
        publish state node .memoryEffect = node.id := by
  unfold publish
  split
  next h => exact Or.inr ⟨h, Function.update_self _ _ _⟩
  next =>
    cases node.boundSlot <;> cases node.operands[0]? <;> exact Or.inl rfl

/-- What a block publishes to another block or to its surroundings. -/
inductive Block.Publishes (block : Block) : Transfer → Prop
  | guarded {node : Node} {transfer : Transfer} (hmem : node ∈ block.nodes)
      (hopcode : node.opcode = .exitIfTrue)
      (hexit : block.guardedExits[node.immediate]? = some transfer) : Publishes block transfer
  | observer {node : Node} {found : OperationExit} (hmem : node ∈ block.nodes)
      (hopcode : node.opcode = .vu0RequireIdle)
      (hexit : findExit block.observerExits node = some found) : Publishes block found.transfer
  | memory {node : Node} {found : OperationExit} (hmem : node ∈ block.nodes)
      (hopcode : node.opcode = .memoryLoad ∨ node.opcode = .memoryStore)
      (hexit : findExit block.memoryExits node = some found) : Publishes block found.transfer
  | edge (values : ValueId → U128) : Publishes block (selectTransfer block values)

namespace VerifiedBlock

variable {program : Program} {block : Block} (hb : VerifiedBlock program block)
include hb

/-- Every field of a published state is a value of its type. -/
lemma stateAt_typed (index : ℕ) (field : StateField) :
    ∃ node ∈ block.nodes, node.id = block.stateAt index field ∧ node.type = field.type := by
  induction index generalizing field with
  | zero =>
    obtain ⟨_, node, -, -, hnode, hid, -, htype, -⟩ := hb.parameter field
    exact ⟨node, List.mem_of_getElem? hnode, by rw [hid, Block.stateAt_of_le (Nat.zero_le _)],
      htype⟩
  | succ index ih =>
    by_cases hindex : parameterCount ≤ index
    · cases hget : block.nodes[index]? with
      | none =>
        have hlength : block.nodes.length ≤ index := List.getElem?_eq_none_iff.mp hget
        rw [Block.stateAt_of_length_le (Nat.le_succ_of_le hlength),
          ← Block.stateAt_of_length_le hlength]
        exact ih field
      | some last =>
        obtain ⟨signature, hmem, htype, hlength, hoperands⟩ := hb.signature hindex hget
        rw [Block.stateAt_succ hindex hget]
        cases field with
        | memoryEffect =>
          rcases publish_memoryEffect_cases (block.stateAt index) last with heq | ⟨hload, heq⟩
          · rw [heq]
            exact ih _
          · refine ⟨last, List.mem_of_getElem? hget, heq.symm, ?_⟩
            rw [htype]
            rcases hload with h | h <;> rw [h] at hmem <;>
              simp only [signatures, List.mem_cons, List.not_mem_nil, or_false] at hmem <;>
              rcases hmem with rfl | rfl | rfl <;> rfl
        | slot slot =>
          rcases @Block.publish_slot_cases (block.stateAt index) last slot with heq | ⟨hslot, hvalue⟩
          · rw [heq]
            exact ih _
          · obtain ⟨value, hvalue', hrequire⟩ :=
              required_operand hlength hoperands (boundSlot_type hslot hmem)
            rw [hvalue] at hvalue'
            cases hvalue'
            obtain ⟨node, hdefinition, htype⟩ := (Option.any_eq_true _ _).mp hrequire
            obtain ⟨position, -, hnode, hid⟩ := Block.definition_eq_some hdefinition
            exact ⟨node, List.mem_of_getElem? hnode, hid, by simpa using htype⟩
    · rw [Block.stateAt_of_le (by omega), ← Block.stateAt_of_le (by omega : index ≤ _)]
      exact ih field

lemma withCycle_typed {state : StateMap} {pc : BitVec 32}
    (hstate : ∀ field, ∃ node ∈ block.nodes, node.id = state field ∧ node.type = field.type)
    (field : StateField) : ∃ node ∈ block.nodes,
      node.id = Block.withCycle state (block.cycleAdvance pc) field ∧ node.type = field.type := by
  cases hadvance : block.cycleAdvance pc with
  | none => exact hstate field
  | some value =>
    by_cases hfield : field = .slot .cycle
    · obtain ⟨node, hmem, hid, hopcode⟩ := Block.cycleAdvance_eq_some hadvance
      obtain ⟨index, hget⟩ := List.mem_iff_getElem?.mp hmem
      have hindex : parameterCount ≤ index := by
        by_contra hlt
        have := (hb.lt_parameterCount_iff hget).mp (not_le.mp hlt)
        rw [hopcode] at this
        cases this
      obtain ⟨signature, hsignature, htype, -⟩ := hb.signature hindex hget
      rw [hopcode] at hsignature
      obtain rfl := List.mem_singleton.mp hsignature
      exact ⟨node, hmem, by simp [Block.withCycle, hfield, hid], by rw [htype, hfield]; rfl⟩
    · simp only [Block.withCycle, Function.update_of_ne hfield]
      exact hstate field

lemma checkExit_typed {index : ℕ} {node : Node} {transfer : Transfer} {reason : ExitReason}
    (hcheck : block.checkExit index node transfer reason = true) (field : StateField) :
    ∃ n ∈ block.nodes, n.id = transfer.state field ∧ n.type = field.type := by
  unfold Block.checkExit at hcheck
  split at hcheck
  next => cases hcheck
  next state resumePc hexit =>
    simp only [Bool.and_eq_true, mapsEqual_iff] at hcheck
    rw [hcheck.1.1.1.1.1]
    unfold Block.exitState at hexit
    split at hexit
    next => cases hexit
    next =>
      split at hexit
      next =>
        split at hexit
        next =>
          cases hexit
          exact hb.stateAt_typed _ field
        next => cases hexit
      next =>
        cases hexit
        exact hb.stateAt_typed _ field

lemma checkOperation_typed {exits : List OperationExit} {index : ℕ} {node : Node}
    {reason : ExitReason} {found : OperationExit}
    (hcheck : block.checkOperation exits index node reason = true)
    (hfound : findExit exits node = some found) (field : StateField) :
    ∃ n ∈ block.nodes, n.id = found.transfer.state field ∧ n.type = field.type := by
  unfold Block.checkOperation at hcheck
  split at hcheck
  next only honly =>
    unfold findExit at hfound
    have hmem : found ∈ exits.filter fun candidate => candidate.operation == node.id :=
      List.mem_filter.mpr ⟨List.mem_of_find?_eq_some hfound, by simpa using List.find?_some hfound⟩
    rw [honly, List.mem_singleton] at hmem
    rw [hmem]
    exact hb.checkExit_typed hcheck field
  next => cases hcheck

lemma primaryExpected_typed (field : StateField) :
    ∃ n ∈ block.nodes, n.id = block.primaryExpected field ∧ n.type = field.type :=
  hb.withCycle_typed (hb.stateAt_typed _) field

/-- Every field of a published transfer is a value of its type. -/
lemma publishes_typed {transfer : Transfer} (h : block.Publishes transfer) (field : StateField) :
    ∃ n ∈ block.nodes, n.id = transfer.state field ∧ n.type = field.type := by
  have hcheck : ∀ {node : Node}, node ∈ block.nodes → node.opcode ≠ .parameter →
      ∃ index, block.checkNode node index = true := by
    intro node hmem hopcode
    obtain ⟨index, hget⟩ := List.mem_iff_getElem?.mp hmem
    refine ⟨index, hb.node index node ?_ hget⟩
    by_contra hlt
    exact hopcode ((hb.lt_parameterCount_iff hget).mp (not_le.mp hlt))
  cases h with
  | guarded hmem hopcode hexit =>
    obtain ⟨index, hnode⟩ := hcheck hmem (by simp [hopcode])
    simp only [Block.checkNode, hopcode, Block.checkGuard, hexit, Option.any_some,
      Bool.and_eq_true] at hnode
    exact hb.checkExit_typed hnode.2.2 field
  | observer hmem hopcode hexit =>
    obtain ⟨index, hnode⟩ := hcheck hmem (by simp [hopcode])
    simp only [Block.checkNode, hopcode, Bool.and_eq_true] at hnode
    exact hb.checkOperation_typed hnode.2 hexit field
  | memory hmem hopcode hexit =>
    rcases hopcode with hopcode | hopcode
    all_goals
      obtain ⟨index, hnode⟩ := hcheck hmem (by simp [hopcode])
      simp only [Block.checkNode, hopcode, Block.checkMemory, Bool.and_eq_true] at hnode
      exact hb.checkOperation_typed hnode.2.2 hexit field
  | edge values =>
    rcases selectTransfer_cases block values with ⟨heq, -⟩ | ⟨heq, hkind, -⟩ | ⟨hkind, hmem⟩
    · rw [heq, hb.taken_state]
      exact hb.primaryExpected_typed field
    · rw [heq, hb.notTaken_state hkind]
      unfold Block.notTakenExpected
      split
      · exact hb.withCycle_typed (hb.stateAt_typed _) field
      · exact hb.primaryExpected_typed field
    · rw [hb.registerTarget_state hkind hmem]
      exact hb.primaryExpected_typed field

end VerifiedBlock

/-- A value of the type of a slot is no wider than the slot. -/
lemma truncate_of_fits {slot : StateSlot} {value : U128}
    (h : (StateField.slot slot).type.Fits value) : slot.truncate value = value := by
  cases slot <;> first | rfl | exact h.symm

/-- Whatever the memory interface answers, every value fits its type, and what a
block publishes goes into the slots without being cut. -/
def TypeSound (program : Program) : Prop :=
  ∀ (σ : Type) (float : FloatUnit) (options : InterpretOptions σ) (input : CanonicalState)
    (memory : σ) (c : Configuration σ), Reaches float program options input memory c →
    (∀ node ∈ program.nodes, node.storedType.Fits (c.values node.id)) ∧
      ∀ block transfer, program.blocks[c.block]? = some block → block.Publishes transfer →
        ∀ slot, slot.truncate (c.values (transfer.state (.slot slot))) =
          c.values (transfer.state (.slot slot))

theorem typeSound_of_verify {program : Program} (hverify : verify program = true)
    (hwidths : program.checkWidths = true) : TypeSound program := by
  intro σ float options input memory c hreaches
  have hv := verified_of_verify hverify
  have htyped := (wellTyped_of_reaches hv hwidths hreaches).2
  refine ⟨htyped, fun block transfer hblock hpublishes slot => truncate_of_fits ?_⟩
  have hb := hv.block_of_mem hblock
  obtain ⟨node, hmem, hid, htype⟩ := hb.publishes_typed hpublishes (.slot slot)
  obtain ⟨index, hget⟩ := List.mem_iff_getElem?.mp hmem
  rw [← hid, ← htype,
    ← hb.storedType_eq hget (by rw [htype]; cases slot <;> simp [StateField.type])]
  exact htyped node (mem_nodes hblock hget)

/-- `lw v0, 4(v1)` in front of a system call. -/
def loadProgram : Program :=
  (lowerProgram ⟨2, 0, false, false, true, 8, 64, 0⟩ id (fun _ => true)
    [⟨0x1000, [0x8c620004, 0x0000000c]⟩] [] 0x1000
    [⟨0x1000, [⟨0x1000, 0x8c620004, false⟩], .none, 0, 0, ⟨0, 0, true⟩, 0x1004,
      .exceptionObserver⟩]).get (by decide +kernel)

theorem typeSound_of_verify_load : TypeSound loadProgram :=
  typeSound_of_verify (by decide +kernel) (by decide +kernel)

end VitaSX2.RegionIR
