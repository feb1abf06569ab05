/-
The states a verified block publishes, and the steps that publish them.

A likely branch that is not taken skips the nodes of its delay slot, so a
published state is only meaningful where its values come before that slot or
the slot has been executed.
-/
import VitaSX2.Region.IR.Facts
import VitaSX2.Region.IR.Run

namespace VitaSX2.RegionIR

/-! ### Skipped delay slots -/

/-- A likely branch that is not taken. -/
def annulling (block : Block) (values : ValueId → U128) : Bool :=
  block.terminator.kind == .branch && block.terminator.likely &&
    (values block.terminator.condition).lo == 0

lemma annulled_eq (block : Block) (values : ValueId → U128) (node : Node) :
    annulled block values node = (annulling block values && node.opcode != .parameter &&
      node.sourcePc == block.terminator.delaySlotPc) := by
  unfold annulled annulling
  generalize (block.terminator.kind == .branch) = a
  generalize block.terminator.likely = b
  generalize (node.opcode != .parameter) = c
  generalize (node.sourcePc == block.terminator.delaySlotPc) = d
  generalize ((values block.terminator.condition).lo == 0) = e
  cases a <;> cases b <;> cases c <;> cases d <;> cases e <;> rfl

namespace Block

variable {block : Block} {pc : BitVec 32}

lemma parameterCount_le_firstNode (block : Block) (pc : BitVec 32) :
    parameterCount ≤ block.firstNode pc := Nat.le_add_right _ _

/-- No executable node of an instruction comes before its first node. -/
lemma sourcePc_ne_of_lt_firstNode {index : ℕ} {node : Node} (hindex : parameterCount ≤ index)
    (hnode : block.nodes[index]? = some node) (hlt : index < block.firstNode pc) :
    node.sourcePc ≠ pc := by
  unfold firstNode at hlt
  have hfind : index - parameterCount <
      (block.nodes.drop parameterCount).findIdx fun node => node.sourcePc == pc := by omega
  have hget : (block.nodes.drop parameterCount)[index - parameterCount]? = some node := by
    rw [List.getElem?_drop, Nat.add_sub_cancel' hindex, hnode]
  obtain ⟨hlen, heq⟩ := List.getElem?_eq_some_iff.mp hget
  have hnot := List.not_of_lt_findIdx hfind
  rw [heq] at hnot
  simpa using hnot

/-- The first node of an instruction comes after every node up to an index when
none of them belongs to it. -/
lemma lt_firstNode {index : ℕ} (hlength : index < block.nodes.length)
    (hother : ∀ (j : ℕ) (node : Node), parameterCount ≤ j → j ≤ index →
      block.nodes[j]? = some node → node.sourcePc ≠ pc) : index < block.firstNode pc := by
  by_contra hge
  have hle : block.firstNode pc ≤ index := not_lt.mp hge
  have hlt : block.firstNode pc < block.nodes.length := hle.trans_lt hlength
  refine hother (block.firstNode pc) block.nodes[block.firstNode pc]
    (parameterCount_le_firstNode _ _) hle (List.getElem?_eq_getElem hlt) ?_
  have hfind : (block.nodes.drop parameterCount).findIdx (fun node => node.sourcePc == pc) <
      (block.nodes.drop parameterCount).length := by
    unfold firstNode at hlt
    rw [List.length_drop]
    omega
  have hfound := @List.findIdx_getElem _ (fun node : Node => node.sourcePc == pc)
    (block.nodes.drop parameterCount) hfind
  simpa [firstNode] using hfound

/-! ### Published states -/

lemma stateAt_of_le {index : ℕ} (h : index ≤ parameterCount) :
    block.stateAt index = block.parameters := by
  unfold stateAt
  rw [List.drop_eq_nil_of_le (by rw [List.length_take]; omega), List.foldl_nil]

lemma stateAt_succ {index : ℕ} {node : Node} (hindex : parameterCount ≤ index)
    (hnode : block.nodes[index]? = some node) :
    block.stateAt (index + 1) = publish (block.stateAt index) node := by
  unfold stateAt
  obtain ⟨hlt, heq⟩ := List.getElem?_eq_some_iff.mp hnode
  have htake : block.nodes.take (index + 1) = block.nodes.take index ++ [node] := by
    rw [List.take_add_one, hnode, Option.toList_some]
  rw [htake, List.drop_append_of_le_length (by rw [List.length_take]; omega), List.foldl_append,
    List.foldl_cons, List.foldl_nil]

lemma stateAt_of_length_le {index : ℕ} (h : block.nodes.length ≤ index) :
    block.stateAt index = block.stateAt block.nodes.length := by
  unfold stateAt
  rw [List.take_of_length_le h, List.take_length]

/-- The binding of a slot that does not vary is rejected. -/
lemma publish_slot_cases {state : StateMap} {node : Node} (slot : StateSlot) :
    publish state node (.slot slot) = state (.slot slot) ∨
      node.boundSlot = some slot ∧
        node.operands[0]? = some (publish state node (.slot slot)) := by
  unfold publish
  split
  next => exact Or.inl (Function.update_of_ne (by simp) _ _)
  next =>
    cases hbound : node.boundSlot with
    | none => exact Or.inl rfl
    | some bound =>
      cases hvalue : node.operands[0]? with
      | none => exact Or.inl rfl
      | some value =>
        by_cases heq : slot = bound
        · subst heq
          exact Or.inr ⟨rfl, by simp⟩
        · exact Or.inl (Function.update_of_ne (by simpa using heq) _ _)

end Block

namespace VerifiedBlock

variable {program : Program} {block : Block} (hb : VerifiedBlock program block)
include hb

/-- A published slot is the value of a parameter or of an earlier node. -/
lemma stateAt_defined (index : ℕ) (slot : StateSlot) :
    ∃ (position : ℕ) (node : Node), block.nodes[position]? = some node ∧
      node.id = block.stateAt index (.slot slot) ∧
      (position < parameterCount ∨ position < index) := by
  induction index with
  | zero =>
    obtain ⟨position, node, hlt, -, hnode, hid, -⟩ := hb.parameter (.slot slot)
    exact ⟨position, node, hnode, by rw [hid, Block.stateAt_of_le (Nat.zero_le _)], Or.inl hlt⟩
  | succ index ih =>
    obtain ⟨position, node, hnode, hid, hposition⟩ := ih
    have hlift : position < parameterCount ∨ position < index + 1 := by omega
    by_cases hindex : parameterCount ≤ index
    · cases hget : block.nodes[index]? with
      | none =>
        have hlength : block.nodes.length ≤ index := List.getElem?_eq_none_iff.mp hget
        refine ⟨position, node, hnode, ?_, hlift⟩
        rw [Block.stateAt_of_length_le (Nat.le_succ_of_le hlength),
          ← Block.stateAt_of_length_le hlength]
        exact hid
      | some last =>
        rw [Block.stateAt_succ hindex hget]
        rcases @Block.publish_slot_cases (block.stateAt index) last slot with heq | ⟨-, hoperand⟩
        · exact ⟨position, node, hnode, by rw [heq, hid], hlift⟩
        · obtain ⟨n, hn⟩ :=
            hb.operand_definition hindex hget (List.mem_of_getElem? hoperand)
          obtain ⟨k, hk, hget', hid'⟩ := Block.definition_eq_some hn
          exact ⟨k, n, hget', hid', Or.inr (by omega)⟩
    · refine ⟨position, node, hnode, ?_, hlift⟩
      rw [Block.stateAt_of_le (by omega), ← Block.stateAt_of_le (by omega : index ≤ _)]
      exact hid

/-- A slot that does not vary is never bound. -/
lemma stateAt_constant (index : ℕ) {slot : StateSlot} {constant : U128}
    (hslot : constantSlot slot = some constant) :
    block.stateAt index (.slot slot) = block.parameters (.slot slot) := by
  induction index with
  | zero => rw [Block.stateAt_of_le (Nat.zero_le _)]
  | succ index ih =>
    by_cases hindex : parameterCount ≤ index
    · cases hget : block.nodes[index]? with
      | none =>
        have hlength : block.nodes.length ≤ index := List.getElem?_eq_none_iff.mp hget
        rw [Block.stateAt_of_length_le (Nat.le_succ_of_le hlength),
          ← Block.stateAt_of_length_le hlength, ih]
      | some last =>
        rw [Block.stateAt_succ hindex hget]
        rcases @Block.publish_slot_cases (block.stateAt index) last slot with heq | ⟨hbound, -⟩
        · rw [heq, ih]
        · -- a binding may only name a slot that varies
          have hcheck := hb.node index last hindex hget
          simp only [Block.checkNode, Bool.and_eq_true] at hcheck
          have hbinding := hcheck.1.2
          have hopcode : last.opcode.isBinding = true := by
            unfold Node.boundSlot at hbound
            split at hbound <;> simp_all [Opcode.isBinding]
          simp [Block.checkBinding, hopcode, hbound, hslot] at hbinding
    · rw [Block.stateAt_of_le (by omega)]

/-! ### Control pairs -/

lemma source_record {source : SourceInstruction} {i : ℕ} (h : block.source[i]? = some source) :
    source.pc = block.pc + BitVec.ofNat 32 (4 * i) ∧
      source.delaySlot = (block.hasDelayedControl && i + 1 == block.source.length) := by
  have hcheck := hb.source
  simp only [Block.checkSource, List.all_eq_true] at hcheck
  have hentry := hcheck (source, i) (List.mem_zipIdx_iff_getElem?.mpr h)
  simp only [Bool.and_eq_true, beq_iff_eq] at hentry
  exact ⟨hentry.1.2, hentry.2⟩

lemma control_pair (hcontrol : block.hasDelayedControl = true) :
    ∃ branch delay, 2 ≤ block.source.length ∧
      block.source[block.source.length - 2]? = some branch ∧
      block.source[block.source.length - 1]? = some delay ∧
      branch.pc = block.terminator.branchPc ∧ delay.pc = block.terminator.delaySlotPc ∧
      block.firstNode block.terminator.delaySlotPc < block.nodes.length := by
  have hcheck := hb.control
  simp only [Block.checkControl, hcontrol, Bool.not_true, Bool.false_or, Bool.and_eq_true,
    decide_eq_true_eq, beq_iff_eq, Option.map_eq_some_iff] at hcheck
  obtain ⟨⟨⟨⟨hlength, branch, hbranch, hbranchPc⟩, delay, hdelay, hdelayPc⟩, hfirst⟩, -⟩ := hcheck
  rw [List.getLast?_eq_getElem?] at hdelay
  exact ⟨branch, delay, hlength, hbranch, hdelay, hbranchPc, hdelayPc, hfirst⟩

lemma branchPc_ne_delaySlotPc (hcontrol : block.hasDelayedControl = true) :
    block.terminator.branchPc ≠ block.terminator.delaySlotPc := by
  obtain ⟨branch, delay, hlength, hbranch, hdelay, hbranchPc, hdelayPc, -⟩ :=
    hb.control_pair hcontrol
  have hlast : block.source.length - 1 = block.source.length - 2 + 1 := by omega
  rw [← hbranchPc, ← hdelayPc, (hb.source_record hbranch).1, (hb.source_record hdelay).1, hlast,
    Nat.mul_add, BitVec.ofNat_add, ← BitVec.add_assoc]
  generalize block.pc + BitVec.ofNat 32 (4 * (block.source.length - 2)) = pc
  intro heq
  have hzero : pc + BitVec.ofNat 32 (4 * 1) - pc = 0#32 := by rw [← heq, BitVec.sub_self]
  rw [BitVec.add_comm, BitVec.add_sub_cancel] at hzero
  exact absurd hzero (by decide)

/-- Only the last instruction of a control pair is marked as a delay slot. -/
lemma sourcePc_of_delaySlot {node : Node} {source : SourceInstruction}
    (hsource : block.sourceOf node = some source) (hdelay : source.delaySlot = true) :
    node.sourcePc = block.terminator.delaySlotPc := by
  have hpc : source.pc = node.sourcePc := by simpa using List.find?_some hsource
  obtain ⟨i, hi⟩ := List.mem_iff_getElem?.mp (List.mem_of_find?_eq_some hsource)
  have hmark := (hb.source_record hi).2
  rw [hdelay, eq_comm, Bool.and_eq_true, beq_iff_eq] at hmark
  obtain ⟨branch, delay, -, -, hget, -, hdelayPc, -⟩ := hb.control_pair hmark.1
  rw [show block.source.length - 1 = i by omega, hi] at hget
  cases hget
  rw [← hpc, hdelayPc]

/-- The predicate of a branch comes before its delay slot. -/
lemma condition_lt_firstNode (hkind : block.terminator.kind = .branch) :
    ∃ (position : ℕ) (node : Node), block.nodes[position]? = some node ∧
      node.id = block.terminator.condition ∧
      position < block.firstNode block.terminator.delaySlotPc := by
  have hcontrol : block.hasDelayedControl = true := by simp [Block.hasDelayedControl, hkind]
  have hcheck := hb.terminator
  simp only [Block.checkTerminator, hkind, Bool.and_eq_true] at hcheck
  have hcondition : block.checkCondition = true := hcheck.2.1.1.1.1.1.2
  unfold Block.checkCondition at hcondition
  set position := block.nodes.findIdx fun node => node.id == block.terminator.condition
    with hposition
  obtain ⟨node, hnode, hfacts⟩ := (Option.any_eq_true _ _).mp hcondition
  simp only [Bool.and_eq_true, beq_iff_eq, List.all_eq_true, bne_iff_ne] at hfacts
  obtain ⟨⟨-, hpc⟩, hearlier⟩ := hfacts
  have hlt : position < block.nodes.length := (List.getElem?_eq_some_iff.mp hnode).1
  refine ⟨position, node, hnode, ?_, Block.lt_firstNode hlt fun j n _ hj hn => ?_⟩
  · have hfound := @List.findIdx_getElem _ (fun node : Node => node.id == block.terminator.condition)
      block.nodes hlt
    rw [(List.getElem?_eq_some_iff.mp hnode).2] at hfound
    simpa using hfound
  · rcases Nat.lt_or_eq_of_le hj with hj | rfl
    · refine hearlier n (List.mem_iff_getElem?.mpr ⟨j, ?_⟩)
      rw [List.getElem?_take_of_lt hj, hn]
    · rw [hn] at hnode
      cases hnode
      rw [hpc]
      exact hb.branchPc_ne_delaySlotPc hcontrol

end VerifiedBlock

/-! ### The states of exits and edges -/

/-- The state is one the block publishes at a node up to the limit, with the
delay slot left out when it is skipped; an edge also publishes a new cycle. -/
def PublishedAt (block : Block) (values : ValueId → U128) (limit : ℕ) (state : StateMap) : Prop :=
  ∃ (bound : ℕ) (advance : Option ValueId), bound ≤ limit ∧
    (annulling block values = true → bound ≤ block.firstNode block.terminator.delaySlotPc) ∧
    state = Block.withCycle (block.stateAt bound) advance ∧
    ∀ value, advance = some value →
      ∃ node ∈ block.nodes, node.id = value ∧ node.opcode = .advanceCycles

/-- The operations that can leave a block. -/
def Node.canExit (node : Node) : Bool :=
  node.opcode == .exitIfTrue || node.opcode == .vu0RequireIdle || node.opcode == .memoryLoad ||
    node.opcode == .memoryStore

/-- In a block that ends in a likely branch every instruction in front of the
delay slot that can leave starts before it. -/
def Block.exitsPrecedeDelaySlot (block : Block) : Bool :=
  !(block.terminator.kind == .branch && block.terminator.likely) ||
    block.nodes.all fun node =>
      !node.canExit || node.sourcePc == block.terminator.delaySlotPc ||
        decide (block.firstNode node.sourcePc < block.firstNode block.terminator.delaySlotPc)

namespace Block

variable {block : Block}

lemma firstNode_le {index : ℕ} {node : Node} (hindex : parameterCount ≤ index)
    (hnode : block.nodes[index]? = some node) : block.firstNode node.sourcePc ≤ index := by
  by_contra hlt
  exact sourcePc_ne_of_lt_firstNode hindex hnode (not_le.mp hlt) rfl

lemma withCycle_of_ne {state : StateMap} {advance : Option ValueId} {slot : StateSlot}
    (h : slot ≠ .cycle) : withCycle state advance (.slot slot) = state (.slot slot) := by
  cases advance with
  | none => rfl
  | some value => exact Function.update_of_ne (by simpa using h) _ _

lemma cycleAdvance_eq_some {pc : BitVec 32} {value : ValueId}
    (h : block.cycleAdvance pc = some value) :
    ∃ node ∈ block.nodes, node.id = value ∧ node.opcode = .advanceCycles := by
  obtain ⟨node, hfind, hid⟩ := Option.map_eq_some_iff.mp h
  have hmem := List.mem_of_mem_drop (List.mem_of_find?_eq_some hfind)
  have hopcode := List.find?_some hfind
  simp only [Bool.and_eq_true, beq_iff_eq] at hopcode
  exact ⟨node, hmem, hid, hopcode.1⟩

lemma publishedAt_primary {values : ValueId → U128} (h : annulling block values = false) :
    PublishedAt block values block.nodes.length block.primaryExpected :=
  ⟨block.nodes.length, _, le_rfl, fun hannulling => by simp [h] at hannulling, rfl,
    fun _ hvalue => cycleAdvance_eq_some hvalue⟩

end Block

namespace VerifiedBlock

variable {program : Program} {block : Block} (hb : VerifiedBlock program block)
include hb

/-- The state an executed operation leaves with. -/
lemma publishedAt_exit {values : ValueId → U128} {index : ℕ} {node : Node} {transfer : Transfer}
    {reason : ExitReason} (hexits : block.exitsPrecedeDelaySlot = true)
    (hindex : parameterCount ≤ index) (hnode : block.nodes[index]? = some node)
    (hcan : node.canExit = true) (hannulled : annulled block values node = false)
    (hcheck : block.checkExit index node transfer reason = true) :
    PublishedAt block values index transfer.state := by
  unfold Block.checkExit at hcheck
  split at hcheck
  next => cases hcheck
  next state resumePc hexit =>
    simp only [Bool.and_eq_true, mapsEqual_iff] at hcheck
    have hstate : transfer.state = state := hcheck.1.1.1.1.1
    -- a node that runs although the delay slot is skipped is no part of the slot
    have hoff : annulling block values = true →
        node.sourcePc ≠ block.terminator.delaySlotPc := by
      intro hannulling hpc
      rw [annulled_eq, hannulling] at hannulled
      simp [hpc, hb.opcode_ne_parameter hindex hnode] at hannulled
    unfold Block.exitState at hexit
    split at hexit
    next => cases hexit
    next source hsource =>
      split at hexit
      next hdelay =>
        split at hexit
        next hcontrol =>
          cases hexit
          refine ⟨_, none, hcontrol.2.le, fun hannulling => ?_, hstate, fun _ h => by cases h⟩
          exact absurd (hb.sourcePc_of_delaySlot hsource hdelay) (hoff hannulling)
        next => cases hexit
      next =>
        cases hexit
        refine ⟨_, none, Block.firstNode_le hindex hnode, fun hannulling => ?_, hstate,
          fun _ h => by cases h⟩
        have hlikely : (block.terminator.kind == .branch && block.terminator.likely) = true := by
          unfold annulling at hannulling
          exact (Bool.and_eq_true _ _ ▸ hannulling).1
        simp only [Block.exitsPrecedeDelaySlot, hlikely, Bool.not_true, Bool.false_or,
          List.all_eq_true, Bool.or_eq_true, Bool.not_eq_true', beq_iff_eq,
          decide_eq_true_eq] at hexits
        rcases hexits node (List.mem_of_getElem? hnode) with (h | h) | h
        · rw [hcan] at h
          cases h
        · exact absurd h (hoff hannulling)
        · exact h.le

omit hb in
lemma checkEdge_state {transfer : Transfer} {expected : StateMap}
    (h : block.checkEdge program transfer expected = true) : transfer.state = expected := by
  simp only [Block.checkEdge, Bool.and_eq_true, mapsEqual_iff] at h
  exact h.1.1

lemma taken_state : block.terminator.taken.state = block.primaryExpected := by
  have hcheck := hb.terminator
  simp only [Block.checkTerminator, Bool.and_eq_true] at hcheck
  exact checkEdge_state hcheck.1

lemma notTaken_state (hkind : block.terminator.kind = .branch) :
    block.terminator.notTaken.state = block.notTakenExpected := by
  have hcheck := hb.terminator
  simp only [Block.checkTerminator, hkind, Bool.and_eq_true] at hcheck
  exact checkEdge_state hcheck.2.1.1.2

lemma registerTarget_check (hkind : block.terminator.kind = .registerJump) {target : Transfer}
    (hmem : target ∈ block.terminator.registerTargets) :
    block.checkRegisterTarget program target = true := by
  have hcheck := hb.terminator
  simp only [Block.checkTerminator, hkind, Bool.and_eq_true, List.all_eq_true] at hcheck
  exact hcheck.2.2 target hmem

lemma registerTarget_state (hkind : block.terminator.kind = .registerJump) {target : Transfer}
    (hmem : target ∈ block.terminator.registerTargets) :
    target.state = block.primaryExpected := by
  have hcheck := hb.registerTarget_check hkind hmem
  simp only [Block.checkRegisterTarget, Bool.and_eq_true] at hcheck
  exact checkEdge_state hcheck.2

lemma publishedAt_notTaken (values : ValueId → U128) (hkind : block.terminator.kind = .branch) :
    PublishedAt block values block.nodes.length block.terminator.notTaken.state := by
  rw [hb.notTaken_state hkind]
  unfold Block.notTakenExpected
  split
  next =>
    obtain ⟨-, -, -, -, -, -, -, hfirst⟩ :=
      hb.control_pair (by simp [Block.hasDelayedControl, hkind])
    exact ⟨_, _, hfirst.le, fun _ => le_rfl, rfl,
      fun _ hvalue => Block.cycleAdvance_eq_some hvalue⟩
  next hlikely => exact Block.publishedAt_primary (by simp [annulling, hlikely])

/-- The state of the chosen edge. -/
lemma publishedAt_selectTransfer (values : ValueId → U128) :
    PublishedAt block values block.nodes.length (selectTransfer block values).state := by
  rcases selectTransfer_cases block values with ⟨heq, hcondition⟩ | ⟨heq, hkind, -⟩ |
    ⟨hkind, hmem⟩
  · rw [heq, hb.taken_state]
    refine Block.publishedAt_primary ?_
    by_cases hkind : block.terminator.kind = .branch
    · simpa [annulling] using fun _ _ => hcondition hkind
    · simp [annulling, hkind]
  · rw [heq]
    exact hb.publishedAt_notTaken values hkind
  · rw [hb.registerTarget_state hkind hmem]
    exact Block.publishedAt_primary (by simp [annulling, hkind])

end VerifiedBlock

end VitaSX2.RegionIR
