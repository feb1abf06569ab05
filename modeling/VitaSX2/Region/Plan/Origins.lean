/-
The canonical origins of the execution plan.

An origin says that a word of a value still is a word of the state at the entry
of the region.  Every word of every block parameter starts with its own slot as
its origin, and a word loses it when a predecessor cannot show the same origin.
-/
import VitaSX2.Region.Plan.Extension
import Mathlib.Data.Finset.Prod

namespace VitaSX2.RegionExecution

open RegionIR

/-- `EncodeOrigin`: a word of a slot. -/
abbrev Origin := StateSlot × ℕ

/-- The origins of the four words of a value. -/
abbrev WordOrigins := ℕ → Option Origin

abbrev OriginTable := ValueId → WordOrigins

def invalidOrigins : WordOrigins := fun _ => none

/-- `ValueWordCount`. -/
def valueWordCount : ValueType → ℕ
  | .i1 | .i32 | .f32Bits | .address => 1
  | .i64 | .cycle => 2
  | .i128 | .vuF32x4Bits => 4
  | .void | .memoryEffect => 0

section Model

variable (program : Program)

def operandWord (table : OriginTable) (node : Node) (operand word : ℕ) : Option Origin :=
  match node.operands[operand]? with
  | some value => table value word
  | none => none

def copyWords (table : OriginTable) (node : Node)
    (operand sourceFirst destinationFirst count : ℕ) (result : WordOrigins) : WordOrigins :=
  fun word =>
    if destinationFirst ≤ word ∧ word < destinationFirst + count then
      operandWord table node operand (sourceFirst + (word - destinationFirst))
    else result word

/-- The upper words of a scalar load are those of the value it replaces. -/
def loadOrigins (table : OriginTable) (node : Node) : WordOrigins := fun word =>
  match (node.operands[0]?).bind (definition program) with
  | some effect =>
    if effect.opcode = .memoryLoad ∧ effect.operands.length = 3 ∧ node.type = .i128 ∧
        effect.accessKind ≠ some .load128 ∧ (word = 2 ∨ word = 3) then
      operandWord table effect 2 word
    else none
  | none => none

/-- `DeriveOrigins` for a node that is no parameter. -/
def deriveOrigins (table : OriginTable) (node : Node) : WordOrigins :=
  let copy := copyWords table node
  match node.opcode with
  | .extractLow32 | .bitcastI32ToF32Bits | .bitcastF32BitsToI32 | .addressFromI32
  | .signExtend32To64 | .zeroExtend32To64 => copy 0 0 0 1 invalidOrigins
  | .extractLow64 => copy 0 0 0 2 invalidOrigins
  | .extractHigh64 => copy 0 2 0 2 invalidOrigins
  | .replaceLow64 => copy 0 2 2 2 (copy 1 0 0 2 invalidOrigins)
  | .replaceHigh64 => copy 1 0 2 2 (copy 0 0 0 2 invalidOrigins)
  | .select64 => fun word =>
    if word < 2 ∧ operandWord table node 1 word = operandWord table node 2 word then
      operandWord table node 1 word
    else none
  | .packLow64 => copy 0 0 2 2 (copy 1 0 0 2 invalidOrigins)
  | .packHigh64 => copy 1 2 2 2 (copy 0 2 0 2 invalidOrigins)
  | .vu0RequireIdle => copy 1 0 0 4 invalidOrigins
  | .memoryLoadValue => loadOrigins program table node
  | .and32 | .and64 | .or64 | .and128 | .or128 =>
    if node.operands.length = 2 ∧ node.operands[0]? = node.operands[1]? then
      copy 0 0 0 (valueWordCount node.type) invalidOrigins
    else invalidOrigins
  | _ => invalidOrigins

/-- A word of a block parameter. -/
structure ParameterLane where
  block : ℕ
  parameter : ValueId
  slot : StateSlot
  word : ℕ

/-- The words of the parameters, block by block and slot by slot. -/
def parameterLanes : List ParameterLane :=
  program.blocks.zipIdx.flatMap fun entry =>
    StateSlot.all.flatMap fun slot =>
      (List.range slot.wordCount).map fun word =>
        ⟨entry.2, entry.1.parameters (.slot slot), slot, word⟩

def OriginTable.set (table : OriginTable) (value : ValueId) (word : ℕ) (origin : Option Origin) :
    OriginTable :=
  Function.update table value (Function.update (table value) word origin)

def seedLane (table : OriginTable) (lane : ParameterLane) : OriginTable :=
  table.set lane.parameter lane.word (some (lane.slot, lane.word))

/-- The table with every parameter as its own source. -/
def initialOrigins : OriginTable := (parameterLanes program).foldl seedLane fun _ => invalidOrigins

def deriveNode (table : OriginTable) (node : Node) : OriginTable :=
  if node.opcode = .parameter then table
  else Function.update table node.id (deriveOrigins program table node)

/-- The visit of one word of a parameter. -/
def invalidateLane (t : OriginTable × Bool) (lane : ParameterLane) : OriginTable × Bool :=
  if t.1 lane.parameter lane.word ≠ some (lane.slot, lane.word) then t
  else if (incoming program lane.block).any fun predecessor =>
      t.1 (predecessor.state (.slot lane.slot)) lane.word != some (lane.slot, lane.word) then
    (t.1.set lane.parameter lane.word none, true)
  else t

/-- One round of the origin fixed point. -/
def originPass (table : OriginTable) : OriginTable × Bool :=
  (parameterLanes program).foldl (invalidateLane program)
    (program.nodes.foldl (deriveNode program) table, false)

/-- The canonical origins of `Build`. -/
def canonicalOrigins : Option OriginTable :=
  Settle.settle (originPass program) (4 * program.valueCount + 1) (initialOrigins program)

end Model

/-! ### Lanes -/

section Lanes

variable {program : Program}

lemma mem_parameterLanes {lane : ParameterLane} :
    lane ∈ parameterLanes program ↔
      ∃ block, program.blocks[lane.block]? = some block ∧
        lane.parameter = block.parameters (.slot lane.slot) ∧ lane.word < lane.slot.wordCount := by
  simp only [parameterLanes, List.mem_flatMap, List.mem_map, List.mem_range, Prod.exists,
    List.mem_zipIdx_iff_getElem?]
  constructor
  · rintro ⟨block, index, hblock, slot, -, word, hword, rfl⟩
    exact ⟨block, hblock, rfl, hword⟩
  · rintro ⟨block, hblock, hparameter, hword⟩
    exact ⟨block, lane.block, hblock, lane.slot, StateSlot.mem_all _, lane.word, hword,
      by rw [← hparameter]⟩

lemma wordCount_le (slot : StateSlot) : slot.wordCount ≤ 4 := by
  cases slot <;> simp [StateSlot.wordCount]

@[simp] lemma OriginTable.set_self (table : OriginTable) (value : ValueId) (word : ℕ)
    (origin : Option Origin) : table.set value word origin value word = origin := by
  simp [OriginTable.set]

lemma OriginTable.set_of_ne {table : OriginTable} {value v : ValueId} {word w : ℕ}
    {origin : Option Origin} (h : ¬ (v = value ∧ w = word)) :
    table.set value word origin v w = table v w := by
  by_cases hv : v = value
  · subst hv
    have hw : w ≠ word := fun heq => h ⟨rfl, heq⟩
    simp [OriginTable.set, hw]
  · simp [OriginTable.set, hv]

/-- The value is a block parameter. -/
def isParameter (program : Program) (value : ValueId) : Bool :=
  program.nodes.any fun node => node.id == value && node.opcode == .parameter

/-- The origins of a parameter are words of its own slot. -/
def ParameterOrigins (program : Program) (table : OriginTable) : Prop :=
  ∀ value, isParameter program value = true → ∀ word origin, table value word = some origin →
    ∃ lane ∈ parameterLanes program, lane.parameter = value ∧ lane.word = word ∧
      origin = (lane.slot, lane.word)

lemma parameterOrigins_initial : ParameterOrigins program (initialOrigins program) := by
  have hfold : ∀ (lanes : List ParameterLane) (table : OriginTable),
      lanes ⊆ parameterLanes program → ParameterOrigins program table →
      ParameterOrigins program (lanes.foldl seedLane table) := by
    intro lanes
    induction lanes with
    | nil => exact fun _ _ h => h
    | cons lane rest ih =>
      intro table hsub htable
      refine ih _ (List.subset_of_cons_subset hsub) ?_
      intro value hvalue word origin horigin
      by_cases heq : value = lane.parameter ∧ word = lane.word
      · obtain ⟨rfl, rfl⟩ := heq
        rw [seedLane, OriginTable.set_self] at horigin
        cases horigin
        exact ⟨lane, hsub List.mem_cons_self, rfl, rfl, rfl⟩
      · rw [seedLane, OriginTable.set_of_ne heq] at horigin
        exact htable value hvalue word origin horigin
  exact hfold _ _ (List.Subset.refl _) fun _ _ _ _ h => by cases h

end Lanes

/-! ### Termination -/

section Termination

variable {program : Program}

/-- The number of parameter words that still have an origin. -/
def openLanes (program : Program) (table : OriginTable) : ℕ :=
  ((Finset.range program.valueCount ×ˢ Finset.range 4).filter fun lane =>
    isParameter program lane.1 = true ∧ table lane.1 lane.2 ≠ none).card

lemma openLanes_congr {table table' : OriginTable}
    (h : ∀ value, isParameter program value = true → table' value = table value) :
    openLanes program table' = openLanes program table := by
  unfold openLanes
  congr 1
  refine Finset.filter_congr fun lane _ => and_congr_right fun hlane => ?_
  rw [h _ hlane]

variable (hv : Verified program)
include hv

lemma isParameter_parameter {index : ℕ} {block : Block}
    (hblock : program.blocks[index]? = some block) (field : StateField) :
    isParameter program (block.parameters field) = true ∧
      block.parameters field < program.valueCount := by
  obtain ⟨position, node, -, -, hnode, hid, hopcode, -⟩ := (hv.block_of_mem hblock).parameter field
  have hmem : node ∈ program.nodes := mem_nodes hblock hnode
  refine ⟨List.any_eq_true.mpr ⟨node, hmem, by simp [hid, hopcode]⟩, ?_⟩
  exact hid ▸ hv.bounded node hmem

/-- Deriving the origins of a node leaves the parameters alone. -/
lemma deriveNode_parameter {table : OriginTable} {node : Node} (hmem : node ∈ program.nodes)
    {value : ValueId} (hvalue : isParameter program value = true) :
    deriveNode program table node value = table value := by
  unfold deriveNode
  split
  next => rfl
  next hopcode =>
    refine Function.update_of_ne (fun heq => hopcode ?_) _ _
    obtain ⟨node', hmem', hnode'⟩ := List.any_eq_true.mp hvalue
    simp only [Bool.and_eq_true, beq_iff_eq] at hnode'
    rw [hv.node_eq hmem hmem' (heq.symm.trans hnode'.1.symm)]
    exact hnode'.2

lemma foldl_deriveNode_parameter {nodes : List Node} (hsub : nodes ⊆ program.nodes)
    (table : OriginTable) {value : ValueId} (hvalue : isParameter program value = true) :
    nodes.foldl (deriveNode program) table value = table value := by
  induction nodes generalizing table with
  | nil => rfl
  | cons node rest ih =>
    rw [List.foldl_cons, ih (List.subset_of_cons_subset hsub),
      deriveNode_parameter hv (hsub List.mem_cons_self) hvalue]

lemma advance_invalidateLane {t : OriginTable × Bool} (ht : ParameterOrigins program t.1)
    {lane : ParameterLane} (hlane : lane ∈ parameterLanes program) :
    Settle.Advance (ParameterOrigins program) (openLanes program) t
      (invalidateLane program t lane) := by
  unfold invalidateLane
  split
  next => exact .refl ht
  next hopen =>
    split
    next =>
      obtain ⟨block, hblock, hparameter, hword⟩ := mem_parameterLanes.mp hlane
      obtain ⟨his, hbound⟩ := isParameter_parameter hv hblock (.slot lane.slot)
      rw [← hparameter] at his hbound
      have hlane4 : lane.word < 4 := hword.trans_le (wordCount_le _)
      have hother : ∀ v w o, t.1.set lane.parameter lane.word none v w = some o →
          t.1 v w = some o := by
        intro v w o ho
        by_cases heq : v = lane.parameter ∧ w = lane.word
        · obtain ⟨rfl, rfl⟩ := heq
          rw [OriginTable.set_self] at ho
          cases ho
        · rwa [OriginTable.set_of_ne heq] at ho
      refine .change (fun v hvalue w o ho => ht v hvalue w o (hother v w o ho)) ?_
      refine Finset.card_lt_card ((Finset.ssubset_iff_of_subset ?_).mpr
        ⟨(lane.parameter, lane.word), ?_, ?_⟩)
      · rintro ⟨v, w⟩ hmem
        obtain ⟨hrange, hv', hw⟩ := Finset.mem_filter.mp hmem
        obtain ⟨o, ho⟩ := Option.ne_none_iff_exists'.mp hw
        exact Finset.mem_filter.mpr ⟨hrange, hv', by rw [hother v w o ho]; simp⟩
      · refine Finset.mem_filter.mpr ⟨by simp [hbound, hlane4], his, ?_⟩
        rw [not_not.mp hopen]
        simp
      · intro hmem
        exact (Finset.mem_filter.mp hmem).2.2 (OriginTable.set_self _ _ _ _)
    next => exact .refl ht

lemma advance_originPass {table : OriginTable} (ht : ParameterOrigins program table) :
    Settle.Advance (ParameterOrigins program) (openLanes program) (table, false)
      (originPass program table) := by
  have hsame : ∀ value, isParameter program value = true →
      program.nodes.foldl (deriveNode program) table value = table value :=
    fun value hvalue => foldl_deriveNode_parameter hv (List.Subset.refl _) table hvalue
  have hderived : Settle.Advance (ParameterOrigins program) (openLanes program) (table, false)
      (program.nodes.foldl (deriveNode program) table, false) := by
    refine .silent (fun value hvalue => ?_) (openLanes_congr hsame).le
    rw [hsame value hvalue]
    exact ht value hvalue
  exact hderived.trans
    (.foldl _ _ (fun t ht lane hlane => advance_invalidateLane hv ht hlane) hderived.1)

end Termination

/-! ### The facts of a finished table -/

section Fixpoint

variable {program : Program}

/-- The values whose origins the origins of a node are derived from. -/
def dependencies (program : Program) (node : Node) : List ValueId :=
  node.operands ++
    if node.opcode = .memoryLoadValue then
      (((node.operands[0]?).bind (definition program)).map Node.operands).getD []
    else []

lemma operandWord_congr {table table' : OriginTable} {node : Node}
    (h : ∀ value ∈ node.operands, table value = table' value) (operand word : ℕ) :
    operandWord table node operand word = operandWord table' node operand word := by
  unfold operandWord
  split
  next value hvalue => rw [h value (List.mem_of_getElem? hvalue)]
  next => rfl

lemma copyWords_congr {table table' : OriginTable} {node : Node}
    (h : ∀ value ∈ node.operands, table value = table' value) :
    copyWords table node = copyWords table' node := by
  funext operand sourceFirst destinationFirst count result word
  unfold copyWords
  rw [operandWord_congr h]

lemma deriveOrigins_congr {table table' : OriginTable} {node : Node}
    (h : ∀ value ∈ dependencies program node, table value = table' value) :
    deriveOrigins program table node = deriveOrigins program table' node := by
  have hoperands : ∀ value ∈ node.operands, table value = table' value :=
    fun value hmem => h value (List.mem_append_left _ hmem)
  unfold deriveOrigins
  dsimp only
  rw [copyWords_congr hoperands]
  split <;> try rfl
  next =>
    funext word
    rw [operandWord_congr hoperands, operandWord_congr hoperands]
  next hop =>
    funext word
    unfold loadOrigins
    cases hload : (node.operands[0]?).bind (definition program) with
    | none => rfl
    | some effect =>
      have heffect : ∀ value ∈ effect.operands, table value = table' value :=
        fun value hmem => h value (List.mem_append_right _ (by simpa [hop, hload] using hmem))
      dsimp only
      rw [operandWord_congr heffect]

/-- What the tables of `Build` satisfy when the loop has ended. -/
structure OriginFixpoint (program : Program) (table : OriginTable) : Prop where
  derived : ∀ node ∈ program.nodes, node.opcode ≠ .parameter →
    table node.id = deriveOrigins program table node
  parameter : ∀ (index : ℕ) (block : Block), program.blocks[index]? = some block →
    ∀ (field : StateField) (word : ℕ) (origin : Origin),
      table (block.parameters field) word = some origin →
      ∃ slot, field = .slot slot ∧ origin = (slot, word) ∧ word < slot.wordCount ∧
        ∀ p ∈ incoming program index, table (p.state (.slot slot)) word = some (slot, word)

variable (hv : Verified program)
include hv

/-- What a node depends on comes before it in the program. -/
lemma dependency_before {node : Node} {before after : List Node}
    (hsplit : program.nodes = before ++ node :: after) (hopcode : node.opcode ≠ .parameter)
    {value : ValueId} (hvalue : value ∈ dependencies program node) :
    ∃ n ∈ before, n.id = value := by
  have hmem : node ∈ program.nodes := hsplit ▸ List.mem_append_right _ List.mem_cons_self
  obtain ⟨block, hblock, hnode⟩ := List.mem_flatMap.mp hmem
  obtain ⟨index, hblock⟩ := List.mem_iff_getElem?.mp hblock
  obtain ⟨position, hnode⟩ := List.mem_iff_getElem?.mp hnode
  have hb := hv.block_of_mem hblock
  have hposition : parameterCount ≤ position :=
    not_lt.mp fun hlt => hopcode ((hb.lt_parameterCount_iff hnode).mp hlt)
  rcases List.mem_append.mp hvalue with hoperand | hload
  · obtain ⟨n, hn⟩ := hb.operand_definition hposition hnode hoperand
    obtain ⟨j, hj, hget, hid⟩ := Block.definition_eq_some hn
    exact ⟨n, hv.earlier_mem hblock hnode hsplit hget hj, hid⟩
  · split at hload
    next hop =>
      obtain ⟨load, j, -, heffect, hj, hget, hopcode', -⟩ := hb.load_of_value hposition hnode hop
      rw [heffect, Option.bind_some, definition_of_mem hv (mem_nodes hblock hget)] at hload
      have hj' : parameterCount ≤ j := by
        refine not_lt.mp fun hlt => ?_
        have hparameter := (hb.lt_parameterCount_iff hget).mp hlt
        rw [hopcode'] at hparameter
        cases hparameter
      obtain ⟨n, hn⟩ := hb.operand_definition hj' hget hload
      obtain ⟨k, hk, hget', hid'⟩ := Block.definition_eq_some hn
      exact ⟨n, hv.earlier_mem hblock hnode hsplit hget' (hk.trans hj), hid'⟩
    next => simp at hload

/-- After the derivation of all nodes in order every node agrees with its operands. -/
lemma foldl_deriveNode_derived (table : OriginTable) :
    ∀ (before after : List Node), program.nodes = before ++ after →
      ∀ node ∈ before, node.opcode ≠ .parameter →
        before.foldl (deriveNode program) table node.id =
          deriveOrigins program (before.foldl (deriveNode program) table) node := by
  intro before
  induction before using List.reverseRecOn with
  | nil => simp
  | append_singleton before last ih =>
    intro after hsplit node hnode hopcode
    rw [List.append_assoc, List.singleton_append] at hsplit
    rw [List.foldl_append, List.foldl_cons, List.foldl_nil]
    set derived := before.foldl (deriveNode program) table with hderived
    have hnodup : program.nodes.Pairwise fun a b => a.id ≠ b.id :=
      List.pairwise_map.mp hv.ids
    rw [hsplit] at hnodup
    -- the last node is not one that an earlier node or itself depends on
    have hfresh : ∀ n ∈ before, n.id ≠ last.id := fun n hn =>
      (List.pairwise_append.mp hnodup).2.2 n hn last List.mem_cons_self
    have hkeep : ∀ n ∈ before ++ [last], n.opcode ≠ .parameter →
        ∀ value ∈ dependencies program n,
          derived value = deriveNode program derived last value := by
      intro n hn hop value hvalue
      have hbefore : ∃ m ∈ before, m.id = value := by
        rcases List.mem_append.mp hn with hn | hn
        · obtain ⟨l₁, l₂, rfl⟩ := List.append_of_mem hn
          obtain ⟨m, hm, hid⟩ := dependency_before hv
            (by rw [hsplit, List.append_assoc, List.cons_append]) hop hvalue
          exact ⟨m, List.mem_append_left _ hm, hid⟩
        · rw [List.mem_singleton.mp hn] at hop hvalue
          exact dependency_before hv hsplit hop hvalue
      obtain ⟨m, hm, rfl⟩ := hbefore
      unfold deriveNode
      split
      next => rfl
      next => exact (Function.update_of_ne (hfresh m hm) _ _).symm
    rw [← deriveOrigins_congr (hkeep node hnode hopcode)]
    rcases List.mem_append.mp hnode with hnode | hnode
    · have hsame : deriveNode program derived last node.id = derived node.id := by
        unfold deriveNode
        split
        next => rfl
        next => exact Function.update_of_ne (hfresh node hnode) _ _
      rw [hsame]
      exact ih _ hsplit node hnode hopcode
    · obtain rfl := List.mem_singleton.mp hnode
      rw [deriveNode, if_neg hopcode, Function.update_self]

omit hv in
lemma invalidateLane_stay (table : OriginTable) (lane : ParameterLane) :
    (invalidateLane program (table, true) lane).2 = true := by
  unfold invalidateLane
  split
  · rfl
  · split <;> rfl

omit hv in
lemma invalidateLane_raise (table : OriginTable) (lane : ParameterLane) :
    invalidateLane program (table, false) lane = (table, false) ∨
      (invalidateLane program (table, false) lane).2 = true := by
  unfold invalidateLane
  split
  · exact Or.inl rfl
  · split
    · exact Or.inr rfl
    · exact Or.inl rfl

/-- The loop ends, and its table is a fixed point. -/
theorem exists_canonicalOrigins :
    ∃ table, canonicalOrigins program = some table ∧ OriginFixpoint program table := by
  have hpass : ∀ table, ParameterOrigins program table →
      Settle.Advance (ParameterOrigins program) (openLanes program) (table, false)
        (originPass program table) := fun table ht => advance_originPass hv ht
  have hmeasure : openLanes program (initialOrigins program) < 4 * program.valueCount + 1 := by
    refine Nat.lt_succ_of_le ((Finset.card_filter_le _ _).trans ?_)
    rw [Finset.card_product, Finset.card_range, Finset.card_range, Nat.mul_comm]
  obtain ⟨table, htable⟩ := Settle.exists_settle hpass parameterOrigins_initial hmeasure
  obtain ⟨before, hbefore, hquiet⟩ := Settle.exists_quiet_pass hpass parameterOrigins_initial htable
  refine ⟨table, htable, ?_⟩
  have horigins : ParameterOrigins program table := by
    have hadvance := (hpass before hbefore).1
    rwa [hquiet] at hadvance
  obtain ⟨hsame, hlanes⟩ := Settle.foldl_quiet invalidateLane_stay invalidateLane_raise hquiet
  refine ⟨fun node hnode hopcode => ?_, fun index block hblock field word origin horigin => ?_⟩
  · rw [hsame]
    exact foldl_deriveNode_derived hv before program.nodes [] (by simp) node hnode hopcode
  · obtain ⟨lane, hlane, hparameter, rfl, rfl⟩ :=
      horigins _ (isParameter_parameter hv hblock field).1 word origin horigin
    obtain ⟨block', hblock', hparameter', hword⟩ := mem_parameterLanes.mp hlane
    obtain ⟨i, n, -, -, hn, hid, -⟩ := (hv.block_of_mem hblock).parameter field
    obtain ⟨i', n', -, -, hn', hid', -⟩ :=
      (hv.block_of_mem hblock').parameter (.slot lane.slot)
    have hindex : lane.block = index := hv.block_eq hblock' hblock (List.mem_of_getElem? hn')
      (List.mem_of_getElem? hn) (by rw [hid', hid, ← hparameter', hparameter])
    rw [hindex, hblock] at hblock'
    cases hblock'
    obtain rfl : field = .slot lane.slot :=
      hv.parameters_injective hblock (hparameter.symm.trans hparameter')
    refine ⟨lane.slot, rfl, rfl, hword, fun p hp => ?_⟩
    have hvisit := hlanes lane hlane
    rw [← hsame] at hvisit
    unfold invalidateLane at hvisit
    rw [if_neg (not_not.mpr (hparameter ▸ horigin))] at hvisit
    split at hvisit
    next => exact absurd (congrArg Prod.snd hvisit) (by simp)
    next hall =>
      rw [List.any_eq_true, not_exists] at hall
      have hp' := hall p
      rw [hindex] at hp'
      simpa [hp] using hp'

end Fixpoint

end VitaSX2.RegionExecution
