/-
The extension facts of the execution plan.

A fact says that the upper word of the low half of a value is the sign or the
zero extension of the lower one.  Facts start at explicit extensions and narrow
loads and pass through identities, selects and block parameters.  A fact that
enters through the region entry carries the slots it assumes.
-/
import VitaSX2.Lib.Settle
import VitaSX2.Region.IR.Facts
import VitaSX2.Region.IR.Run
import Mathlib.Data.Finset.Card
import Mathlib.Data.Finset.Range

namespace VitaSX2.RegionExecution

open RegionIR

inductive Low32Extension
  | none
  | sign
  | zero
deriving DecidableEq, Repr

/-- The relation between the two low words of a value. -/
def Low32Extension.Holds : Low32Extension → U128 → Prop
  | .none, _ => True
  | .sign, value => value.word 1 = ((value.word 0).signExtend 64).extractLsb' 32 32
  | .zero, value => value.word 1 = 0

/-- A set of state slots. -/
abbrev StateMask := StateSlot → Bool

def StateMask.union (a b : StateMask) : StateMask := fun slot => a slot || b slot

structure ExtensionTable where
  extension : ValueId → Low32Extension
  guards : ValueId → StateMask

/-- The node that defines a value. -/
def definition (program : Program) (value : ValueId) : Option Node :=
  program.nodes.find? fun node => node.id == value

/-- The extension a scalar load leaves in its destination. -/
def loadExtension : MemoryAccessKind → Low32Extension
  | .loadS8 | .loadS16 | .loadS32 => .sign
  | .loadU8 | .loadU16 | .loadU32 => .zero
  | _ => .none

section Model

variable (program : Program)

/-- The fact of an operand with its assumptions. -/
def operandFact (table : ExtensionTable) (node : Node) (index : ℕ) : Low32Extension × StateMask :=
  match node.operands[index]? with
  | some value => (table.extension value, table.guards value)
  | none => (.none, fun _ => false)

/-- `DeriveLow32Extension`. -/
def deriveLow32Extension (table : ExtensionTable) (node : Node) : Low32Extension × StateMask :=
  match node.opcode with
  | .signExtend32To64 => (.sign, fun _ => false)
  | .zeroExtend32To64 => (.zero, fun _ => false)
  | .extractLow64 => operandFact table node 0
  | .replaceLow64 => operandFact table node 1
  | .replaceHigh64 => operandFact table node 0
  | .select64 =>
    let selectedTrue := operandFact table node 1
    let selectedFalse := operandFact table node 2
    if selectedTrue.1 = .none ∨ selectedTrue.1 ≠ selectedFalse.1 then (.none, fun _ => false)
    else (selectedTrue.1, selectedTrue.2.union selectedFalse.2)
  | .memoryLoadValue =>
    match node.operands with
    | [effect] =>
      match definition program effect with
      | some load =>
        if load.opcode = .memoryLoad then
          match load.accessKind with
          | some kind => (loadExtension kind, fun _ => false)
          | none => (.none, fun _ => false)
        else (.none, fun _ => false)
      | none => (.none, fun _ => false)
    | _ => (.none, fun _ => false)
  | _ => (.none, fun _ => false)

/-- The table with the fact of one value set. -/
def ExtensionTable.set (table : ExtensionTable) (value : ValueId)
    (fact : Low32Extension × StateMask) : ExtensionTable where
  extension := Function.update table.extension value fact.1
  guards := Function.update table.guards value fact.2

/-- The visit of one node. -/
def extendNode (t : ExtensionTable × Bool) (node : Node) : ExtensionTable × Bool :=
  if node.opcode = .parameter ∨ t.1.extension node.id ≠ .none then t
  else
    let derived := deriveLow32Extension program t.1 node
    if derived.1 ≠ .none then (t.1.set node.id derived, true) else t

/-- The internal transfers into a block. -/
def incoming (index : ℕ) : List Transfer :=
  program.blocks.flatMap fun block =>
    block.terminator.internalTransfers.filter fun transfer => transfer.targetBlock == some index

/-- The fact all predecessors agree on. -/
def commonFact (table : ExtensionTable) (slot : StateSlot) :
    Low32Extension → StateMask → List Transfer → Option (Low32Extension × StateMask)
  | common, dependencies, [] => some (common, dependencies)
  | common, dependencies, predecessor :: rest =>
    let source := predecessor.state (.slot slot)
    let extension := table.extension source
    if extension = .none ∨ (common ≠ .none ∧ common ≠ extension) then none
    else commonFact table slot extension (dependencies.union (table.guards source)) rest

/-- The visit of one parameter. -/
def extendParameter (index : ℕ) (block : Block) (t : ExtensionTable × Bool) (slot : StateSlot) :
    ExtensionTable × Bool :=
  let parameter := block.parameters (.slot slot)
  if t.1.extension parameter ≠ .none ∨ slot.wordCount < 2 then t
  else
    match commonFact t.1 slot .none (fun _ => false) (incoming program index) with
    | none => t
    | some (common, dependencies) =>
      if common ≠ .none then
        let entry : StateMask := fun s => decide (index = program.entryBlock) && s == slot
        (t.1.set parameter (common, dependencies.union entry), true)
      else t

/-- The visit of the parameters of one block. -/
def extendParameters (t : ExtensionTable × Bool) (entry : Block × ℕ) : ExtensionTable × Bool :=
  if incoming program entry.2 = [] then t
  else StateSlot.all.foldl (extendParameter program entry.2 entry.1) t

/-- One round of the extension fixed point. -/
def extensionPass (table : ExtensionTable) : ExtensionTable × Bool :=
  program.blocks.zipIdx.foldl (extendParameters program)
    (program.nodes.foldl (extendNode program) (table, false))

/-- The extension facts of `Build`. -/
def extensionTable : Option ExtensionTable :=
  Settle.settle (extensionPass program) (program.valueCount + 1)
    ⟨fun _ => .none, fun _ _ => false⟩

end Model

/-! ### The facts of a finished table -/

lemma definition_of_mem {program : Program} (hv : Verified program) {node : Node}
    (hmem : node ∈ program.nodes) : definition program node.id = some node := by
  cases hfind : definition program node.id with
  | none =>
    have hnone := List.find?_eq_none.mp hfind node hmem
    simp at hnone
  | some found =>
    have hid : found.id = node.id := by simpa using List.find?_some hfind
    rw [hv.node_eq (List.mem_of_find?_eq_some hfind) hmem hid]

section Table

variable {program : Program}

/-- Why a value may have its fact. -/
inductive Justified (program : Program) (table : ExtensionTable) (value : ValueId) : Prop
  | derived (node : Node) (hmem : node ∈ program.nodes) (hid : node.id = value)
      (hopcode : node.opcode ≠ .parameter)
      (hderive : deriveLow32Extension program table node =
        (table.extension value, table.guards value))
  | joined (index : ℕ) (block : Block) (slot : StateSlot)
      (hblock : program.blocks[index]? = some block)
      (hparameter : block.parameters (.slot slot) = value) (hwords : 2 ≤ slot.wordCount)
      (hpredecessor : ∀ p ∈ incoming program index,
        table.extension (p.state (.slot slot)) = table.extension value ∧
          ∀ s, table.guards (p.state (.slot slot)) s = true → table.guards value s = true)
      (hentry : index = program.entryBlock → table.guards value slot = true)

/-- Every fact of the table is justified within the table. -/
def JustifiedTable (program : Program) (table : ExtensionTable) : Prop :=
  ∀ value, table.extension value ≠ .none → Justified program table value

/-- Facts stay once they are there. -/
def Grows (table table' : ExtensionTable) : Prop :=
  ∀ value, table.extension value ≠ .none →
    table'.extension value = table.extension value ∧ table'.guards value = table.guards value

lemma operandFact_grows {table table' : ExtensionTable} (h : Grows table table') {node : Node}
    {index : ℕ} (hfact : (operandFact table node index).1 ≠ .none) :
    operandFact table' node index = operandFact table node index := by
  unfold operandFact at hfact ⊢
  split at hfact
  next value _ =>
    obtain ⟨hextension, hguards⟩ := h value hfact
    simp [hextension, hguards]
  next => exact absurd rfl hfact

lemma derive_grows {table table' : ExtensionTable} (h : Grows table table') {node : Node}
    (hderived : (deriveLow32Extension program table node).1 ≠ .none) :
    deriveLow32Extension program table' node = deriveLow32Extension program table node := by
  unfold deriveLow32Extension at hderived ⊢
  split
  next hop => rfl
  next hop => rfl
  next hop => exact operandFact_grows h (by simpa [hop] using hderived)
  next hop => exact operandFact_grows h (by simpa [hop] using hderived)
  next hop => exact operandFact_grows h (by simpa [hop] using hderived)
  next hop =>
    simp only [hop] at hderived
    by_cases hagree : (operandFact table node 1).1 = .none ∨
        (operandFact table node 1).1 ≠ (operandFact table node 2).1
    · simp [hagree] at hderived
    · obtain ⟨htrue, hsame⟩ := not_or.mp hagree
      have hfalse : (operandFact table node 2).1 ≠ .none := not_not.mp hsame ▸ htrue
      rw [operandFact_grows h htrue, operandFact_grows h hfalse]
  next hop => rfl
  next => rfl

lemma Justified.grows {table table' : ExtensionTable} (h : Grows table table') {value : ValueId}
    (hvalue : table.extension value ≠ .none) (hj : Justified program table value) :
    Justified program table' value := by
  obtain ⟨hextension, hguards⟩ := h value hvalue
  cases hj with
  | derived node hmem hid hopcode hderive =>
    refine .derived node hmem hid hopcode ?_
    rw [derive_grows h (by rw [hderive]; exact hvalue), hderive, hextension, hguards]
  | joined index block slot hblock hparameter hwords hpredecessor hentry =>
    refine .joined index block slot hblock hparameter hwords (fun p hp => ?_)
      (fun hindex => hguards ▸ hentry hindex)
    obtain ⟨hsame, hsub⟩ := hpredecessor p hp
    obtain ⟨hextension', hguards'⟩ := h _ (by rw [hsame]; exact hvalue)
    rw [hextension', hguards', hextension, hguards]
    exact ⟨hsame, hsub⟩

lemma grows_set {table : ExtensionTable} {value : ValueId} {fact : Low32Extension × StateMask}
    (h : table.extension value = .none) : Grows table (table.set value fact) := by
  intro v hv
  have hne : v ≠ value := fun heq => hv (heq ▸ h)
  simp [ExtensionTable.set, hne]

/-- The number of values without a fact. -/
def openValues (program : Program) (table : ExtensionTable) : ℕ :=
  ((Finset.range program.valueCount).filter fun value => table.extension value = .none).card

lemma openValues_set {table : ExtensionTable} {value : ValueId}
    {fact : Low32Extension × StateMask} (hbound : value < program.valueCount)
    (hopen : table.extension value = .none) (hfact : fact.1 ≠ .none) :
    openValues program (table.set value fact) < openValues program table := by
  refine Finset.card_lt_card ((Finset.ssubset_iff_of_subset fun v hv => ?_).mpr
    ⟨value, by simp [hbound, hopen], fun hmem => ?_⟩)
  swap
  · exact hfact (by simpa [ExtensionTable.set] using (Finset.mem_filter.mp hmem).2)
  obtain ⟨hrange, hv⟩ := Finset.mem_filter.mp hv
  refine Finset.mem_filter.mpr ⟨hrange, ?_⟩
  by_cases heq : v = value
  · exact heq ▸ hopen
  · simpa [ExtensionTable.set, heq] using hv

/-- A new justified fact is an advance. -/
lemma advance_set {t : ExtensionTable × Bool} (ht : JustifiedTable program t.1) {value : ValueId}
    {fact : Low32Extension × StateMask} (hbound : value < program.valueCount)
    (hopen : t.1.extension value = .none) (hfact : fact.1 ≠ .none)
    (hj : Justified program (t.1.set value fact) value) :
    Settle.Advance (JustifiedTable program) (openValues program) t (t.1.set value fact, true) := by
  refine .change (fun v hv => ?_) (openValues_set hbound hopen hfact)
  by_cases heq : v = value
  · exact heq ▸ hj
  · have hold : t.1.extension v ≠ .none := by simpa [ExtensionTable.set, heq] using hv
    exact (ht v hold).grows (grows_set hopen) hold

lemma commonFact_spec {table : ExtensionTable} {slot : StateSlot} {l : List Transfer}
    {common c : Low32Extension} {dependencies d : StateMask}
    (h : commonFact table slot common dependencies l = some (c, d)) :
    (common ≠ .none → c = common) ∧ (∀ s, dependencies s = true → d s = true) ∧
      ∀ p ∈ l, table.extension (p.state (.slot slot)) = c ∧
        ∀ s, table.guards (p.state (.slot slot)) s = true → d s = true := by
  induction l generalizing common dependencies with
  | nil =>
    simp only [commonFact, Option.some.injEq, Prod.mk.injEq] at h
    obtain ⟨rfl, rfl⟩ := h
    exact ⟨fun _ => rfl, fun _ hs => hs, fun p hp => by simp at hp⟩
  | cons predecessor rest ih =>
    simp only [commonFact] at h
    split at h
    next => cases h
    next hcontinue =>
      obtain ⟨hsome, hagree⟩ := not_or.mp hcontinue
      obtain ⟨hc, hd, hrest⟩ := ih h
      have hcommon : c = table.extension (predecessor.state (.slot slot)) := hc hsome
      refine ⟨fun hne => ?_, fun s hs => hd s (by simp [StateMask.union, hs]), fun p hp => ?_⟩
      · by_contra hdiffers
        exact hagree ⟨hne, fun heq => hdiffers (hcommon.trans heq.symm)⟩
      · rcases List.mem_cons.mp hp with rfl | hp
        · exact ⟨hcommon.symm, fun s hs => hd s (by simp [StateMask.union, hs])⟩
        · exact hrest p hp

variable (hv : Verified program)
include hv

lemma advance_extendNode {t : ExtensionTable × Bool} (ht : JustifiedTable program t.1)
    {node : Node} (hmem : node ∈ program.nodes) :
    Settle.Advance (JustifiedTable program) (openValues program) t (extendNode program t node) := by
  unfold extendNode
  split
  next => exact .refl ht
  next hvisit =>
    obtain ⟨hopcode, hopen⟩ := not_or.mp hvisit
    dsimp only
    split
    next hderived =>
      refine advance_set ht (hv.bounded node hmem) (not_not.mp hopen) hderived
        (.derived node hmem rfl hopcode ?_)
      rw [derive_grows (grows_set (not_not.mp hopen)) hderived]
      simp [ExtensionTable.set]
    next => exact .refl ht

lemma advance_extendParameter {t : ExtensionTable × Bool} (ht : JustifiedTable program t.1)
    {index : ℕ} {block : Block} (hblock : program.blocks[index]? = some block)
    (slot : StateSlot) :
    Settle.Advance (JustifiedTable program) (openValues program) t
      (extendParameter program index block t slot) := by
  unfold extendParameter
  dsimp only
  split
  next => exact .refl ht
  next hvisit =>
    obtain ⟨hopen, hwords⟩ := not_or.mp hvisit
    split
    next => exact .refl ht
    next common dependencies hcommon =>
      split
      next hfact =>
        obtain ⟨-, -, hpredecessor⟩ := commonFact_spec hcommon
        obtain ⟨position, node, -, -, hnode, hid, -⟩ :=
          (hv.block_of_mem hblock).parameter (.slot slot)
        have hgrows : Grows t.1 (t.1.set (block.parameters (.slot slot)) (common,
            dependencies.union fun s => decide (index = program.entryBlock) && s == slot)) :=
          grows_set (not_not.mp hopen)
        refine advance_set ht (hid ▸ hv.bounded node (mem_nodes hblock hnode)) (not_not.mp hopen)
          hfact (.joined index block slot hblock rfl (not_lt.mp hwords) (fun p hp => ?_)
            (fun hindex => by simp [ExtensionTable.set, StateMask.union, hindex]))
        obtain ⟨hsame, hsub⟩ := hpredecessor p hp
        obtain ⟨hextension, hguards⟩ := hgrows _ (by rw [hsame]; exact hfact)
        rw [hextension, hguards]
        exact ⟨by simp [ExtensionTable.set, hsame],
          fun s hs => by simp [ExtensionTable.set, StateMask.union, hsub s hs]⟩
      next => exact .refl ht

lemma advance_extensionPass {table : ExtensionTable} (ht : JustifiedTable program table) :
    Settle.Advance (JustifiedTable program) (openValues program) (table, false)
      (extensionPass program table) := by
  have hnodes : Settle.Advance (JustifiedTable program) (openValues program) (table, false)
      (program.nodes.foldl (extendNode program) (table, false)) :=
    .foldl _ _ (fun t ht node hnode => advance_extendNode hv ht hnode) ht
  refine hnodes.trans (Settle.Advance.foldl _ _ (fun t ht entry hentry => ?_) hnodes.1)
  have hblock : program.blocks[entry.2]? = some entry.1 :=
    List.mem_zipIdx_iff_getElem?.mp hentry
  unfold extendParameters
  split
  · exact .refl ht
  · exact .foldl _ _ (fun t ht slot _ => advance_extendParameter hv ht hblock slot) ht

/-- The loop ends, and every fact of its table is justified. -/
theorem exists_extensionTable :
    ∃ table, extensionTable program = some table ∧ JustifiedTable program table := by
  have hinit : JustifiedTable program ⟨fun _ => .none, fun _ _ => false⟩ :=
    fun value hvalue => absurd rfl hvalue
  have hpass : ∀ table, JustifiedTable program table → Settle.Advance (JustifiedTable program)
      (openValues program) (table, false) (extensionPass program table) :=
    fun table ht => advance_extensionPass hv ht
  have hmeasure : openValues program ⟨fun _ => .none, fun _ _ => false⟩ < program.valueCount + 1 :=
    Nat.lt_succ_of_le ((Finset.card_filter_le _ _).trans (by simp))
  obtain ⟨table, htable⟩ := Settle.exists_settle hpass hinit hmeasure
  obtain ⟨before, hbefore, hquiet⟩ := Settle.exists_quiet_pass hpass hinit htable
  refine ⟨table, htable, ?_⟩
  have hadvance := (hpass before hbefore).1
  rwa [hquiet] at hadvance

end Table

end VitaSX2.RegionExecution
