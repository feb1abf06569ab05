/-
The extension facts hold throughout every run.

The invariant speaks of all values at once: a value whose assumptions the entry
state meets satisfies its fact, whether it has been defined yet or not, since
zero is both extensions of itself.
-/
import VitaSX2.Region.IR.Lift
import VitaSX2.Region.Plan.Extension

namespace VitaSX2.RegionExecution

open RegionIR

/-! ### Extended values -/

namespace Low32Extension

lemma Holds.of_lo_eq {e : Low32Extension} {a b : U128} (ha : e.Holds a) (h : b.lo = a.lo) :
    e.Holds b := by
  cases e
  case none => trivial
  all_goals simpa [Holds, U128.word, h] using ha

lemma holds_of_lo_eq_zero {e : Low32Extension} {a : U128} (h : a.lo = 0) : e.Holds a := by
  cases e <;> simp [Holds, U128.word, h]

lemma sign_holds_signExtend {n : ℕ} (hn : n ≤ 32) (x : BitVec n) (hi : BitVec 64) :
    sign.Holds ⟨x.signExtend 64, hi⟩ := by
  have hword : (((x.signExtend 64).extractLsb' 0 32).signExtend 64) = x.signExtend 64 := by
    ext i h
    simp only [BitVec.getElem_signExtend, BitVec.msb_eq_getLsbD_last, BitVec.getLsbD_extractLsb',
      BitVec.getElem_extractLsb', BitVec.getLsbD_signExtend]
    grind
  simp only [Holds, U128.word, hword]

lemma zero_holds_setWidth {n : ℕ} (hn : n ≤ 32) (x : BitVec n) (hi : BitVec 64) :
    zero.Holds ⟨x.setWidth 64, hi⟩ := by
  simp only [Holds, U128.word]
  ext i h
  simp only [BitVec.getElem_extractLsb', BitVec.getLsbD_setWidth]
  grind

end Low32Extension

lemma loadExtension_holds {kind : MemoryAccessKind} {oldValue raw result : U128}
    (h : loadedBits kind oldValue raw = some result) : (loadExtension kind).Holds result := by
  cases kind <;> simp only [loadedBits, Option.some.injEq] at h <;> try cases h
  all_goals simp only [loadExtension]
  case loadS8 => exact Low32Extension.sign_holds_signExtend (by omega) _ _
  case loadS16 => exact Low32Extension.sign_holds_signExtend (by omega) _ _
  case loadS32 => exact Low32Extension.sign_holds_signExtend (by omega) _ _
  case loadU8 => exact Low32Extension.zero_holds_setWidth (by omega) _ _
  case loadU16 => exact Low32Extension.zero_holds_setWidth (by omega) _ _
  case loadU32 => exact Low32Extension.zero_holds_setWidth (by omega) _ _
  all_goals trivial

/-- Publishing a slot of two words or more keeps the fact of its value. -/
lemma holds_publishedSlot {e : Low32Extension} {slot : StateSlot} {value : U128}
    (hwords : 2 ≤ slot.wordCount) (h : e.Holds value) : e.Holds (publishedSlot slot value) := by
  unfold publishedSlot
  split
  next constant hconstant =>
    refine Low32Extension.holds_of_lo_eq_zero ?_
    cases slot <;> simp only [constantSlot] at hconstant <;> try cases hconstant
    all_goals
      split at hconstant
      · cases hconstant
        rfl
      · cases hconstant
  next =>
    refine h.of_lo_eq ?_
    cases slot <;> first | rfl | exact absurd hwords (by simp [StateSlot.wordCount])

/-! ### Runs -/

section Run

variable {σ : Type} {float : FloatUnit} {program : Program} {options : InterpretOptions σ}
  {table : ExtensionTable} {input : CanonicalState} {memory : σ}

/-- The entry state satisfies the recorded predicate of a slot. -/
def EntryPredicate (program : Program) (table : ExtensionTable) (input : CanonicalState)
    (slot : StateSlot) : Prop :=
  ∀ entry, program.blocks[program.entryBlock]? = some entry →
    (table.extension (entry.parameters (.slot slot))).Holds (input.slot slot)

/-- The entry state meets every assumption of a fact. -/
def Assumed (program : Program) (table : ExtensionTable) (input : CanonicalState)
    (value : ValueId) : Prop :=
  ∀ slot, table.guards value slot = true → EntryPredicate program table input slot

/-- Values satisfy their facts, and loads hold what their access leaves. -/
structure ExtensionInvariant (program : Program) (table : ExtensionTable)
    (input : CanonicalState) (values : ValueId → U128) : Prop where
  fact : ∀ value, Assumed program table input value →
    (table.extension value).Holds (values value)
  load : ∀ node ∈ program.nodes, node.opcode = .memoryLoad →
    ∀ kind, node.accessKind = some kind → (loadExtension kind).Holds (values node.id)

/-- An operand whose fact was used satisfies it. -/
lemma operandFact_holds {values : ValueId → U128} {node : Node} {index : ℕ}
    (h : ∀ value, Assumed program table input value → (table.extension value).Holds (values value))
    (hassumed : ∀ slot, (operandFact table node index).2 slot = true →
      EntryPredicate program table input slot) :
    (operandFact table node index).1.Holds (node.operand values index) := by
  unfold operandFact at hassumed ⊢
  unfold Node.operand
  cases hvalue : node.operands[index]? with
  | some value =>
    rw [hvalue] at hassumed
    exact h value hassumed
  | none => trivial

/-- The fact derived for a node holds of the bits the node evaluates to. -/
lemma derive_holds {values : ValueId → U128}
    (hinv : ExtensionInvariant program table input values) {node : Node} {result : U128}
    (hresult : NodeResult float program values node result)
    (hassumed : ∀ slot, (deriveLow32Extension program table node).2 slot = true →
      EntryPredicate program table input slot) :
    (deriveLow32Extension program table node).1.Holds result := by
  by_cases hload : node.opcode = .memoryLoad
  · simp only [deriveLow32Extension, hload]
    trivial
  obtain rfl := hresult.eq_evaluate hload
  unfold deriveLow32Extension at hassumed ⊢
  split
  next hop =>
    simp only [evaluate, hop]
    exact Low32Extension.sign_holds_signExtend (by omega) _ _
  next hop =>
    simp only [evaluate, hop]
    exact Low32Extension.zero_holds_setWidth (by omega) _ _
  next hop =>
    simp only [evaluate, hop] at hassumed ⊢
    exact (operandFact_holds hinv.fact hassumed).of_lo_eq rfl
  next hop =>
    simp only [evaluate, hop] at hassumed ⊢
    exact (operandFact_holds hinv.fact hassumed).of_lo_eq rfl
  next hop =>
    simp only [evaluate, hop] at hassumed ⊢
    exact (operandFact_holds hinv.fact hassumed).of_lo_eq rfl
  next hop =>
    simp only [evaluate, hop] at hassumed ⊢
    by_cases hagree : (operandFact table node 1).1 = .none ∨
        (operandFact table node 1).1 ≠ (operandFact table node 2).1
    · simp only [hagree, if_true]
      trivial
    · simp only [hagree, if_false] at hassumed ⊢
      have hsame : (operandFact table node 1).1 = (operandFact table node 2).1 :=
        not_not.mp (not_or.mp hagree).2
      split
      next hcondition =>
        refine (operandFact_holds hinv.fact fun slot hslot => hassumed slot ?_).of_lo_eq rfl
        simp [StateMask.union, hslot]
      next hcondition =>
        rw [hsame]
        refine (operandFact_holds hinv.fact fun slot hslot => hassumed slot ?_).of_lo_eq rfl
        simp [StateMask.union, hslot]
  next hop =>
    -- The value of a load is the bits its effect node holds.
    simp only [evaluate, hop]
    split
    next effect hoperands =>
      split
      next load hfound =>
        split
        next hloadop =>
          split
          next kind hkind =>
            have hid : load.id = effect := by simpa using List.find?_some hfound
            have hheld := hinv.load load (List.mem_of_find?_eq_some hfound) hloadop kind hkind
            simpa [Node.operand, hoperands, hid] using hheld
          next => trivial
        next => trivial
      next => trivial
    next => trivial
  next => trivial

section Steps

variable (hv : Verified program) (ht : JustifiedTable program table)
include hv ht

/-- An executed node keeps the invariant. -/
lemma ExtensionInvariant.execute {values : ValueId → U128}
    (hinv : ExtensionInvariant program table input values) {index position : ℕ} {block : Block}
    {node : Node} {result : U128} (hblock : program.blocks[index]? = some block)
    (hposition : parameterCount ≤ position) (hnode : block.nodes[position]? = some node)
    (hresult : NodeResult float program values node result) :
    ExtensionInvariant program table input (Function.update values node.id result) := by
  have hmem : node ∈ program.nodes := mem_nodes hblock hnode
  refine ⟨fun value hassumed => ?_, fun load hload hop kind hkind => ?_⟩
  · by_cases heq : value = node.id
    · subst heq
      rw [Function.update_self]
      by_cases hfact : table.extension node.id = .none
      · rw [hfact]
        trivial
      · cases ht node.id hfact with
        | derived node' hmem' hid hopcode hderive =>
          obtain rfl : node' = node := hv.node_eq hmem' hmem hid
          have hholds : (deriveLow32Extension program table node').1.Holds result :=
            derive_holds hinv hresult fun slot hslot =>
              hassumed slot (by rwa [hderive] at hslot)
          rwa [hderive] at hholds
        | joined index' block' slot hblock' hparameter =>
          exact absurd hparameter (hv.parameter_ne hblock' hblock hposition hnode (.slot slot))
    · rw [Function.update_of_ne heq]
      exact hinv.fact value hassumed
  · by_cases heq : load.id = node.id
    · obtain rfl : load = node := hv.node_eq hload hmem heq
      rw [Function.update_self]
      rw [NodeResult, if_pos hop] at hresult
      obtain ⟨kind', raw, hkind', hloaded⟩ := hresult
      rw [hkind] at hkind'
      cases hkind'
      exact loadExtension_holds hloaded
    · rw [Function.update_of_ne heq]
      exact hinv.load load hload hop kind hkind

/-- Assigning the parameters of a block keeps the invariant when the state
satisfies the facts of its slots. -/
lemma ExtensionInvariant.assign {values : ValueId → U128}
    (hinv : ExtensionInvariant program table input values) {index : ℕ} {block : Block}
    (hblock : program.blocks[index]? = some block) {state : CanonicalState} {memoryEffect : U128}
    (hstate : ∀ slot, 2 ≤ slot.wordCount →
      (∀ p ∈ incoming program index,
        table.extension (p.state (.slot slot)) =
            table.extension (block.parameters (.slot slot)) ∧
          ∀ s, table.guards (p.state (.slot slot)) s = true →
            table.guards (block.parameters (.slot slot)) s = true) →
      (index = program.entryBlock → table.guards (block.parameters (.slot slot)) slot = true) →
      Assumed program table input (block.parameters (.slot slot)) →
      (table.extension (block.parameters (.slot slot))).Holds (state.slot slot)) :
    ExtensionInvariant program table input
      (assignParameters block.parameters state memoryEffect values) := by
  have hinj := hv.parameters_injective hblock
  refine ⟨fun value hassumed => ?_, fun load hload hop kind hkind => ?_⟩
  · by_cases hparameter : ∃ field, block.parameters field = value
    · obtain ⟨field, rfl⟩ := hparameter
      rw [assignParameters_field hinj]
      by_cases hfact : table.extension (block.parameters field) = .none
      · rw [hfact]
        trivial
      · obtain ⟨position, node, -, -, hnode, hid, hopcode, -⟩ :=
          (hv.block_of_mem hblock).parameter field
        cases ht _ hfact with
        | derived node' hmem' hid' hopcode' hderive =>
          have hsame := hv.node_eq hmem' (mem_nodes hblock hnode) (hid'.trans hid.symm)
          exact absurd (hsame ▸ hopcode) hopcode'
        | joined index' block' slot hblock' hparameter hwords hpredecessor hentry =>
          obtain ⟨position', node', -, -, hnode', hid', -⟩ :=
            (hv.block_of_mem hblock').parameter (.slot slot)
          have hsame : index' = index := hv.block_eq hblock' hblock
            (List.mem_of_getElem? hnode') (List.mem_of_getElem? hnode)
            (hid'.trans (hparameter.trans hid.symm))
          subst hsame
          rw [hblock] at hblock'
          cases hblock'
          obtain rfl : StateField.slot slot = field := hinj hparameter
          exact hstate slot hwords hpredecessor hentry hassumed
    · rw [assignParameters_other fun field heq => hparameter ⟨field, heq⟩]
      exact hinv.fact value hassumed
  · have hother : ∀ field, block.parameters field ≠ load.id := by
      intro field heq
      obtain ⟨position, node, -, -, hnode, hid, hopcode, -⟩ :=
        (hv.block_of_mem hblock).parameter field
      have hsame := hv.node_eq hload (mem_nodes hblock hnode) (heq.symm.trans hid.symm)
      rw [hsame, hopcode] at hop
      cases hop
    rw [assignParameters_other hother]
    exact hinv.load load hload hop kind hkind

/-- The invariant holds at every configuration of a run. -/
lemma extensionInvariant_of_reaches {c : Configuration σ}
    (h : Reaches float program options input memory c) :
    ExtensionInvariant program table input c.values ∧ parameterCount ≤ c.index := by
  induction h with
  | init hstart =>
    obtain ⟨entry, hentry, -, hindex, -, hvalues⟩ := start_cases hstart
    refine ⟨?_, hindex ▸ le_rfl⟩
    have hzero : ExtensionInvariant program table input fun _ => 0 :=
      ⟨fun _ _ => Low32Extension.holds_of_lo_eq_zero rfl,
        fun _ _ _ _ _ => Low32Extension.holds_of_lo_eq_zero rfl⟩
    rw [hvalues]
    exact hzero.assign hv ht hentry fun slot hwords _ hguard hassumed =>
      holds_publishedSlot hwords (hassumed slot (hguard rfl) entry hentry)
  | tail _ hstep ih =>
    obtain ⟨hinv, hindex⟩ := ih
    obtain ⟨block, hblock, hcase⟩ := step_cases hstep
    cases hcase with
    | skipped node hnode hannulled hb hi hvalues => exact ⟨hvalues ▸ hinv, by omega⟩
    | executed node result hnode hannulled hresult hb hi hvalues =>
      exact ⟨hvalues ▸ hinv.execute hv ht hblock hindex hnode hresult, by omega⟩
    | edge target next hend htarget hnext hb hi hcurrent hvalues =>
      refine ⟨?_, hi ▸ le_rfl⟩
      rw [hvalues]
      refine hinv.assign hv ht hnext fun slot hwords hpredecessor _ hassumed =>
        holds_publishedSlot hwords ?_
      have hmem : selectTransfer block _ ∈ incoming program target :=
        List.mem_flatMap.mpr ⟨block, List.mem_of_getElem? hblock,
          List.mem_filter.mpr ⟨selectTransfer_mem htarget, by simp [htarget]⟩⟩
      obtain ⟨hsame, hsub⟩ := hpredecessor _ hmem
      exact hsame ▸ hinv.fact _ fun s hs => hassumed s (hsub s hs)

end Steps

/-- `Build` finds a table, and in every run every value whose recorded
assumptions the entry state satisfies is extended as recorded. -/
theorem low32Extension_sound (hverify : verify program = true) :
    ∃ table, extensionTable program = some table ∧
      ∀ (σ : Type) (float : FloatUnit) (options : InterpretOptions σ) (input : CanonicalState)
        (memory : σ) (c : Configuration σ), Reaches float program options input memory c →
      ∀ value, (∀ slot, table.guards value slot = true →
          EntryPredicate program table input slot) →
        (table.extension value).Holds (c.values value) := by
  have hv := verified_of_verify hverify
  obtain ⟨table, htable, ht⟩ := exists_extensionTable hv
  exact ⟨table, htable, fun σ float options input memory c hreaches value hassumed =>
    (extensionInvariant_of_reaches hv ht hreaches).1.fact value hassumed⟩

/-- `addiu v0, v1, 1` in front of a system call. -/
def incrementProgram : Program :=
  (lowerProgram ⟨2, 0, false, false, true, 8, 64, 0⟩ id (fun _ => true)
    [⟨0x1000, [0x24620001, 0x0000000c]⟩] [] 0x1000
    [⟨0x1000, [⟨0x1000, 0x24620001, false⟩], .none, 0, 0, ⟨0, 0, true⟩, 0x1004,
      .exceptionObserver⟩]).get (by decide +kernel)

theorem low32Extension_sound_increment :
    ∃ table, extensionTable incrementProgram = some table ∧
      ∀ (σ : Type) (float : FloatUnit) (options : InterpretOptions σ) (input : CanonicalState)
        (memory : σ) (c : Configuration σ),
          Reaches float incrementProgram options input memory c →
      ∀ value, (∀ slot, table.guards value slot = true →
          EntryPredicate incrementProgram table input slot) →
        (table.extension value).Holds (c.values value) :=
  low32Extension_sound (by decide +kernel)

end Run

end VitaSX2.RegionExecution
