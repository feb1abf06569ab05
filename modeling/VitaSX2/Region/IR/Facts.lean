/-
What a successful `verify` says, check by check.
-/
import VitaSX2.Region.IR.Verify
import Mathlib.Data.List.Nodup
import Mathlib.Data.List.Zip

namespace VitaSX2.RegionIR

/-- The checks of a verified program. -/
structure Verified (program : Program) : Prop where
  entry : program.entryBlock < program.blocks.length
  /-- Every value has one definition. -/
  ids : (program.nodes.map Node.id).Nodup
  bounded : ∀ node ∈ program.nodes, node.id < program.valueCount
  blockPcs : (program.blocks.map Block.pc).Nodup
  /-- Every source instruction has one owner. -/
  sourceOwners : ((program.blocks.flatMap Block.source).map SourceInstruction.pc).Nodup
  calls : ∀ call ∈ program.directCalls, program.checkCall call = true
  callPcs : (program.directCalls.map DirectCallContract.callPc).Nodup
  returnPcs : (program.directCalls.map DirectCallContract.returnPc).Nodup
  blocks : ∀ block ∈ program.blocks, block.check program = true

lemma verified_of_verify {program : Program} (h : verify program = true) : Verified program := by
  simp only [verify, Bool.and_eq_true, decide_eq_true_eq, List.all_eq_true] at h
  obtain ⟨⟨⟨⟨⟨⟨⟨⟨⟨⟨⟨entry, ids⟩, bounded⟩, -⟩, blockPcs⟩, sourceOwners⟩, -⟩, callPcs⟩, returnPcs⟩,
    calls⟩, blocks⟩, -⟩ := h
  exact ⟨entry, (distinctIds_spec ids).1, bounded, blockPcs, sourceOwners, calls, callPcs, returnPcs, blocks⟩

/-- The checks of a verified block. -/
structure VerifiedBlock (program : Program) (block : Block) : Prop where
  parameters : block.checkParameters = true
  node : ∀ (index : ℕ) (node : Node), parameterCount ≤ index → block.nodes[index]? = some node →
    block.checkNode node index = true
  source : block.checkSource program = true
  control : block.checkControl = true
  linkCount : block.checkLinkCount = true
  terminator : block.checkTerminator program = true

lemma verifiedBlock_of_check {program : Program} {block : Block}
    (h : block.check program = true) : VerifiedBlock program block := by
  simp only [Block.check, Bool.and_eq_true, List.all_eq_true] at h
  obtain ⟨⟨⟨⟨⟨parameters, nodes⟩, source⟩, control⟩, linkCount⟩, terminator⟩ := h
  refine ⟨parameters, fun index node hindex hnode => ?_, source, control, linkCount, terminator⟩
  refine nodes (node, index) (List.mem_iff_getElem?.mpr ⟨index - parameterCount, ?_⟩)
  rw [List.getElem?_drop, Nat.add_sub_cancel' hindex, List.getElem?_zipIdx, hnode]
  simp

namespace Block

variable {block : Block} {index : ℕ} {value : ValueId} {node : Node}

lemma definition_eq_some (h : block.definition index value = some node) :
    ∃ position < index, block.nodes[position]? = some node ∧ node.id = value := by
  have hid : node.id = value := by simpa using List.find?_some h
  obtain ⟨position, hget⟩ := List.mem_iff_getElem?.mp (List.mem_of_find?_eq_some h)
  have hlt : position < index := by
    by_contra hge
    rw [List.getElem?_take_eq_none (not_lt.mp hge)] at hget
    cases hget
  exact ⟨position, hlt, by rwa [List.getElem?_take_of_lt hlt] at hget, hid⟩

end Block

namespace VerifiedBlock

variable {program : Program} {block : Block} (hb : VerifiedBlock program block)
include hb

lemma parameterAt {index : ℕ} {field : StateField} (hfield : StateField.all[index]? = some field) :
    ∃ node : Node, block.nodes[index]? = some node ∧ node.id = block.parameters field ∧
      node.opcode = .parameter ∧ node.type = field.type ∧ node.immediate = index := by
  have hindex : index < parameterCount := length_all ▸ (List.getElem?_eq_some_iff.mp hfield).1
  have hcheck := hb.parameters
  simp only [Block.checkParameters, Bool.and_eq_true, decide_eq_true_eq, List.all_eq_true,
    beq_iff_eq] at hcheck
  obtain ⟨hlength, hall⟩ := hcheck
  have hnode : block.nodes[index]? = some block.nodes[index] :=
    List.getElem?_eq_getElem (hindex.trans_le hlength)
  have hmem : (field, block.nodes[index], index) ∈
      StateField.all.zip (block.nodes.zipIdx.take parameterCount) := by
    refine List.mem_iff_getElem?.mpr ⟨index, ?_⟩
    rw [List.getElem?_zip_eq_some]
    refine ⟨hfield, ?_⟩
    rw [List.getElem?_take_of_lt hindex, List.getElem?_zipIdx, hnode]
    simp
  obtain ⟨⟨⟨⟨hopcode, htype⟩, -⟩, himmediate⟩, hid⟩ := hall _ hmem
  exact ⟨_, hnode, hid, hopcode, htype, himmediate⟩

/-- The node of a parameter. -/
lemma parameter (field : StateField) :
    ∃ (index : ℕ) (node : Node), index < parameterCount ∧ StateField.all[index]? = some field ∧
      block.nodes[index]? = some node ∧ node.id = block.parameters field ∧
      node.opcode = .parameter ∧ node.type = field.type ∧ node.immediate = index := by
  obtain ⟨index, hlt, hfield⟩ := List.mem_iff_getElem.mp (StateField.mem_all field)
  have hget : StateField.all[index]? = some field := List.getElem?_eq_some_iff.mpr ⟨hlt, hfield⟩
  obtain ⟨node, hnode⟩ := hb.parameterAt hget
  exact ⟨index, node, length_all ▸ hlt, hget, hnode⟩

variable {index : ℕ} {node : Node}

lemma signature (hindex : parameterCount ≤ index) (hnode : block.nodes[index]? = some node) :
    ∃ signature ∈ signatures node.opcode, node.type = signature.2 ∧
      node.operands.length = signature.1.length ∧
      ∀ operand ∈ node.operands.zip signature.1,
        block.requireOperand index operand.1 operand.2 = true := by
  have hcheck := hb.node index node hindex hnode
  simp only [Block.checkNode, Block.checkSignature, Bool.and_eq_true, List.any_eq_true,
    beq_iff_eq, List.all_eq_true] at hcheck
  obtain ⟨⟨⟨signature, hmem, ⟨htype, hlength⟩, hoperands⟩, -⟩, -⟩ := hcheck
  exact ⟨signature, hmem, htype, hlength, hoperands⟩

/-- Operands are defined earlier in the block. -/
lemma operand_definition (hindex : parameterCount ≤ index)
    (hnode : block.nodes[index]? = some node) {value : ValueId} (hvalue : value ∈ node.operands) :
    ∃ operand, block.definition index value = some operand := by
  obtain ⟨signature, -, -, hlength, hoperands⟩ := hb.signature hindex hnode
  obtain ⟨position, hlt, rfl⟩ := List.mem_iff_getElem.mp hvalue
  have hmem : (node.operands[position], signature.1[position]) ∈ node.operands.zip signature.1 :=
    List.mem_iff_getElem.mpr ⟨position, by simp [← hlength, hlt], by simp⟩
  obtain ⟨operand, hoperand, -⟩ := (Option.any_eq_true _ _).mp (hoperands _ hmem)
  exact ⟨operand, hoperand⟩

/-- The load of a loaded value. -/
lemma load_of_value (hindex : parameterCount ≤ index) (hnode : block.nodes[index]? = some node)
    (hopcode : node.opcode = .memoryLoadValue) :
    ∃ (load : Node) (j : ℕ) (kind : MemoryAccessKind), node.operands[0]? = some load.id ∧
      j < index ∧ block.nodes[j]? = some load ∧ load.opcode = .memoryLoad ∧
      load.sourcePc = node.sourcePc ∧ load.accessKind = some kind ∧ node.type = kind.valueType := by
  have hcheck := hb.node index node hindex hnode
  simp only [Block.checkNode, hopcode, Bool.and_eq_true, Block.checkLoadValue, Option.any_eq_true,
    Option.bind_eq_some_iff, beq_iff_eq] at hcheck
  obtain ⟨-, load, ⟨effect, heffect, hdefinition⟩, ⟨hload, hpc⟩, kind, hkind, htype⟩ := hcheck
  obtain ⟨j, hj, hget, rfl⟩ := Block.definition_eq_some hdefinition
  exact ⟨load, j, kind, heffect, hj, hget, hload, hpc, hkind, htype⟩

lemma opcode_ne_parameter (hindex : parameterCount ≤ index)
    (hnode : block.nodes[index]? = some node) : node.opcode ≠ .parameter := by
  intro h
  obtain ⟨signature, hmem, -⟩ := hb.signature hindex hnode
  simp [h, signatures] at hmem

/-- Parameter nodes come first. -/
lemma lt_parameterCount_iff (hnode : block.nodes[index]? = some node) :
    index < parameterCount ↔ node.opcode = .parameter := by
  constructor
  · intro hlt
    have hfield : index < StateField.all.length := length_all ▸ hlt
    obtain ⟨node', hnode', -, hopcode, -⟩ := hb.parameterAt (List.getElem?_eq_getElem hfield)
    rw [hnode] at hnode'
    cases hnode'
    exact hopcode
  · intro hopcode
    by_contra hge
    exact hb.opcode_ne_parameter (not_lt.mp hge) hnode hopcode

end VerifiedBlock

/-! ### Definitions -/

section Definitions

variable {program : Program}

lemma mem_nodes {index position : ℕ} {block : Block} {node : Node}
    (hblock : program.blocks[index]? = some block) (hnode : block.nodes[position]? = some node) :
    node ∈ program.nodes :=
  List.mem_flatMap.mpr ⟨block, List.mem_of_getElem? hblock, List.mem_of_getElem? hnode⟩

namespace Verified

variable (hv : Verified program)
include hv

lemma node_eq {n n' : Node} (hn : n ∈ program.nodes) (hn' : n' ∈ program.nodes)
    (hid : n.id = n'.id) : n = n' :=
  List.inj_on_of_nodup_map hv.ids hn hn' hid

lemma block_of_mem {index : ℕ} {block : Block} (h : program.blocks[index]? = some block) :
    VerifiedBlock program block :=
  verifiedBlock_of_check (hv.blocks block (List.mem_of_getElem? h))

/-- A value is defined once in its block. -/
lemma position_eq {index i j : ℕ} {block : Block} {n n' : Node}
    (hblock : program.blocks[index]? = some block) (hi : block.nodes[i]? = some n)
    (hj : block.nodes[j]? = some n') (hid : n.id = n'.id) : i = j := by
  have hnodup : (block.nodes.map Node.id).Nodup := by
    have hids := hv.ids
    rw [Program.nodes, List.map_flatMap] at hids
    exact (List.nodup_flatMap.mp hids).1 block (List.mem_of_getElem? hblock)
  obtain ⟨hi', hin⟩ := List.getElem?_eq_some_iff.mp hi
  obtain ⟨hj', hjn⟩ := List.getElem?_eq_some_iff.mp hj
  have hi'' : i < (block.nodes.map Node.id).length := by simpa using hi'
  have hj'' : j < (block.nodes.map Node.id).length := by simpa using hj'
  refine (@List.Nodup.getElem_inj_iff _ _ hnodup i hi'' j hj'').mp ?_
  simp [hin, hjn, hid]

/-- The nodes of a block before an index come before it in the program. -/
lemma earlier_mem {index i j : ℕ} {block : Block} {node n : Node} {before after : List Node}
    (hblock : program.blocks[index]? = some block) (hnode : block.nodes[i]? = some node)
    (hsplit : program.nodes = before ++ node :: after) (hn : block.nodes[j]? = some n)
    (hlt : j < i) : n ∈ before := by
  obtain ⟨hi, hget⟩ := List.getElem?_eq_some_iff.mp hnode
  obtain ⟨hlen, hblock⟩ := List.getElem?_eq_some_iff.mp hblock
  have hblocks : program.blocks =
      program.blocks.take index ++ block :: program.blocks.drop (index + 1) := by
    rw [← hblock, List.cons_getElem_drop_succ, List.take_append_drop]
  have hnodes : block.nodes = block.nodes.take i ++ node :: block.nodes.drop (i + 1) := by
    rw [← hget, List.cons_getElem_drop_succ, List.take_append_drop]
  have hsplit' : program.nodes =
      ((program.blocks.take index).flatMap Block.nodes ++ block.nodes.take i) ++
        node :: (block.nodes.drop (i + 1) ++
          (program.blocks.drop (index + 1)).flatMap Block.nodes) := by
    conv_lhs => rw [Program.nodes, hblocks, List.flatMap_append, List.flatMap_cons, hnodes]
    simp
  have hnodup : program.nodes.Nodup := List.Nodup.of_map _ hv.ids
  have hfresh : ∀ l₁ l₂ : List Node, program.nodes = l₁ ++ node :: l₂ → node ∉ l₁ ∧ node ∉ l₂ := by
    intro l₁ l₂ heq
    rw [heq] at hnodup
    obtain ⟨-, hcons, hdisjoint⟩ := List.nodup_append'.mp hnodup
    exact ⟨fun hmem => hdisjoint hmem List.mem_cons_self, (List.nodup_cons.mp hcons).1⟩
  have hleading := (List.append_cons_inj_of_notMem (hfresh _ _ hsplit).1
    (hfresh _ _ hsplit).2).mp (hsplit.symm.trans hsplit')
  rw [hleading.1]
  refine List.mem_append_right _ (List.mem_iff_getElem?.mpr ⟨j, ?_⟩)
  rw [List.getElem?_take_of_lt hlt, hn]

/-- A value is defined in one block. -/
lemma block_eq {i j : ℕ} {block block' : Block} {n n' : Node}
    (hi : program.blocks[i]? = some block) (hj : program.blocks[j]? = some block')
    (hn : n ∈ block.nodes) (hn' : n' ∈ block'.nodes) (hid : n.id = n'.id) : i = j := by
  have hids := hv.ids
  rw [Program.nodes, List.map_flatMap] at hids
  have hpair := (List.nodup_flatMap.mp hids).2
  by_contra hne
  obtain ⟨hi', rfl⟩ := List.getElem?_eq_some_iff.mp hi
  obtain ⟨hj', rfl⟩ := List.getElem?_eq_some_iff.mp hj
  rcases lt_or_gt_of_ne hne with hlt | hlt
  · exact List.pairwise_iff_getElem.mp hpair i j hi' hj' hlt (List.mem_map_of_mem hn)
      (hid ▸ List.mem_map_of_mem hn')
  · exact List.pairwise_iff_getElem.mp hpair j i hj' hi' hlt (List.mem_map_of_mem hn')
      (hid ▸ List.mem_map_of_mem hn)

lemma parameters_injective {index : ℕ} {block : Block}
    (hblock : program.blocks[index]? = some block) : Function.Injective block.parameters := by
  intro field field' heq
  have hb := hv.block_of_mem hblock
  obtain ⟨i, node, -, hfield, hnode, hid, -⟩ := hb.parameter field
  obtain ⟨j, node', -, hfield', hnode', hid', -⟩ := hb.parameter field'
  have hij : i = j := hv.position_eq hblock hnode hnode' (by rw [hid, hid', heq])
  rw [hij, hfield'] at hfield
  cases hfield
  rfl

/-- A parameter is not the value of an executable node. -/
lemma parameter_ne {i j : ℕ} {block block' : Block} (hi : program.blocks[i]? = some block)
    (hj : program.blocks[j]? = some block') {index : ℕ} {node : Node}
    (hindex : parameterCount ≤ index) (hnode : block'.nodes[index]? = some node)
    (field : StateField) : block.parameters field ≠ node.id := by
  intro heq
  obtain ⟨k, parameter, -, -, hparameter, hid, hopcode, -⟩ := (hv.block_of_mem hi).parameter field
  have hsame : parameter = node :=
    hv.node_eq (mem_nodes hi hparameter) (mem_nodes hj hnode) (hid.trans heq)
  exact (hv.block_of_mem hj).opcode_ne_parameter hindex hnode (hsame ▸ hopcode)

end Verified

end Definitions

end VitaSX2.RegionIR
