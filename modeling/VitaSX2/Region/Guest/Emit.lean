/-
The code a lowering emits, run on the machine of `Interpret`.

`regs` ties a state map to the registers of the interpreter.  A lowering that only
computes adds facts about new values and leaves the memory alone (`Computes`);
the nodes of an annulled delay slot do nothing at all.
-/
import VitaSX2.Lib.StraightLine
import VitaSX2.Region.Guest.Interpreter

namespace VitaSX2.RegionIR

open R5900 (Cpu)
open StraightLine

/-! ### Registers -/

/-- The slots of the canonical state that the interpreter has. -/
def registerSlot {μ : Type} (cpu : Cpu μ) : StateSlot → Option U128
  | .gpr i => some (cpu.gpr i)
  | .hi => some cpu.hi
  | .lo => some cpu.lo
  | .sa => some (bits32 cpu.sa)
  | _ => none

/-- A canonical state has the registers and the address of the interpreter. -/
structure Matches {μ : Type} (state : CanonicalState) (cpu : Cpu μ) : Prop where
  slots : ∀ slot value, registerSlot cpu slot = some value → state.slot slot = value
  pc : state.pc = cpu.pc

section Registers

variable {μ : Type} {state : StateMap} {cpu cpu' : Cpu μ} {F : Facts U128}

/-- The values of a state map are the registers. -/
def regs (state : StateMap) (cpu : Cpu μ) : Facts U128 where
  holds n v := ∀ slot value, registerSlot cpu slot = some value →
    (Facts.known (state (.slot slot)) value).holds n v
  mono hn hv h slot value hvalue := (Facts.known _ _).mono hn hv (h slot value hvalue)

lemma known_of_regs (h : F ≤ regs state cpu) {slot : StateSlot} {value : U128}
    (hslot : registerSlot cpu slot = some value) : F ≤ Facts.known (state (.slot slot)) value :=
  fun n v hF => h n v hF slot value hslot

lemma known_gpr (h : F ≤ regs state cpu) (i : ℕ) :
    F ≤ Facts.known (state (Lower.gprField i)) (cpu.reg i) :=
  known_of_regs h rfl

/-- A binding of one slot. -/
lemma regs_update (h : F ≤ regs state cpu) {slot : StateSlot} {id : ValueId} {value : U128}
    (hid : F ≤ Facts.known id value)
    (hslot : registerSlot cpu' slot = some value)
    (hother : ∀ other, other ≠ slot → registerSlot cpu' other = registerSlot cpu other) :
    F ≤ regs (Function.update state (.slot slot) id) cpu' := by
  intro n v hF other value' hvalue
  by_cases heq : other = slot
  · subst heq
    rw [hslot, Option.some.injEq] at hvalue
    rw [Function.update_self, ← hvalue]
    exact hid n v hF
  · rw [Function.update_of_ne (by simpa using heq)]
    exact h n v hF other value' (hother other heq ▸ hvalue)

/-- A field the interpreter does not have may change. -/
lemma regs_update_other (h : F ≤ regs state cpu) {field : StateField} {id : ValueId}
    (hfield : ∀ slot, field = .slot slot → registerSlot cpu slot = none) :
    F ≤ regs (Function.update state field id) cpu := by
  intro n v hF other value hvalue
  rw [Function.update_of_ne]
  · exact h n v hF other value hvalue
  · rintro rfl
    rw [hfield other rfl] at hvalue
    cases hvalue

lemma registerSlot_setReg (cpu : Cpu μ) (i : ℕ) (value : U128) (slot : StateSlot) :
    registerSlot (cpu.setReg i value) slot =
      if slot = .gpr (Fin.ofNat 32 i) then some value else registerSlot cpu slot := by
  cases slot <;> simp only [registerSlot, Cpu.setReg, reduceCtorEq, if_false]
  next j =>
    by_cases heq : j = Fin.ofNat 32 i
    · rw [heq, Function.update_self, if_pos rfl]
    · rw [Function.update_of_ne heq, if_neg (by simpa using heq)]

lemma regs_setReg (h : F ≤ regs state cpu) {i : ℕ} {id : ValueId} {value : U128}
    (hid : F ≤ Facts.known id value) :
    F ≤ regs (Function.update state (Lower.gprField i) id) (cpu.setReg i value) := by
  refine regs_update h hid ?_ fun other hother => ?_
  · rw [registerSlot_setReg, if_pos rfl]
  · rw [registerSlot_setReg, if_neg hother]

/-- The words that never vary are published as they are. -/
lemma publishedSlot_of_registerSlot (hzero : cpu.gpr 0 = 0) {slot : StateSlot} {value : U128}
    (h : registerSlot cpu slot = some value) : publishedSlot slot value = value := by
  cases slot <;> simp only [registerSlot, Option.some.injEq, reduceCtorEq] at h <;> subst h
  case gpr i =>
    by_cases hi : i = 0
    · rw [hi, hzero]
      rfl
    · rw [publishedSlot, show constantSlot (.gpr i) = none from if_neg hi]
      rfl
  case sa =>
    simp only [publishedSlot, constantSlot, StateSlot.truncate, StateSlot.wordCount, bits32, bits,
      U128.word]
    congr 1
    ext i hi
    simp only [BitVec.getElem_setWidth, BitVec.getLsbD_extractLsb', BitVec.getLsbD_setWidth]
    grind
  all_goals rfl

/-- What a transfer publishes. -/
lemma matches_materialize (hzero : cpu.gpr 0 = 0) {n : ℕ} {v : ValueId → U128}
    {transfer : Transfer} (hregs : (regs transfer.state cpu).holds n v)
    (hpc : (v transfer.pc).lo.setWidth 32 = cpu.pc) : Matches (materialize v transfer) cpu := by
  refine ⟨fun slot value hslot => ?_, hpc⟩
  rw [← publishedSlot_of_registerSlot hzero hslot, ← (hregs slot value hslot).2]
  rfl

end Registers

/-! ### The emitter of a block -/

section Emitter

variable {σ : Type} (float : FloatUnit) (program : Program) (options : InterpretOptions σ)
  (block : Block)

/-- Where a run stops, and the state it publishes. -/
abbrev Stop (σ : Type) := Configuration σ × Option CanonicalState

/-- The next configuration, or a stop. -/
def Outcome.except (c : Configuration σ) : Outcome σ → Except (Stop σ) (Configuration σ)
  | .next c' => .ok c'
  | .finished out _ => .error (c, out)
  | .undefined => .error (c, none)

def nodeOutcome (node : Node) (c : Configuration σ) : Except (Stop σ) (Configuration σ) :=
  (executeNode float program options block node c).except c

/-- A finished block as a builder. -/
def Block.builder : Builder := ⟨block.nodes, block.guardedExits, block.memoryExits, 0⟩

/-- The lowerings of the block and the machine that runs it. -/
def emitter : Emitter Builder Node (Configuration σ) (Stop σ) where
  nodes := Builder.nodes
  next := Builder.nextValue
  Extends b b' := b.guardedExits <+: b'.guardedExits ∧ b.memoryExits <+: b'.memoryExits
  Ok b := ∀ entry ∈ b.memoryExits, entry.operation < b.nextValue
  exec := nodeOutcome float program options block
  final := block.builder
  refl _ := ⟨List.prefix_rfl, List.prefix_rfl⟩
  trans h h' := ⟨h.1.trans h'.1, h.2.trans h'.2⟩

/-- A node of an instruction. -/
def NodeAt (pc : BitVec 32) (node : Node) : Prop := node.sourcePc = pc ∧ node.opcode ≠ .parameter

/-- Facts about the values and a condition on the memory. -/
def On (F : Facts U128) (M : σ → Prop) (n : ℕ) (c : Configuration σ) : Prop :=
  F.holds n c.values ∧ M c.memory

lemma On.imp {F G : Facts U128} {M M' : σ → Prop} {n : ℕ} {c : Configuration σ} (h : On F M n c)
    (hF : F ≤ G) (hM : ∀ s, M s → M' s) : On G M' n c :=
  ⟨hF n c.values h.1, hM c.memory h.2⟩

/-- The nodes at an address are executed. -/
def live (pc : BitVec 32) : Facts U128 where
  holds n v := block.terminator.kind = .branch → block.terminator.likely = true →
    pc = block.terminator.delaySlotPc →
      block.terminator.condition < n ∧ (v block.terminator.condition).lo ≠ 0
  mono hn hv h hkind hlikely hpc := by
    obtain ⟨hlt, hne⟩ := h hkind hlikely hpc
    exact ⟨hlt.trans_le hn, by rwa [hv _ hlt]⟩

variable {block} in
lemma annulled_eq_false {pc : BitVec 32} {n : ℕ} {v : ValueId → U128} {node : Node}
    (h : (live block pc).holds n v) (hpc : node.sourcePc = pc) :
    annulled block v node = false := by
  by_contra hannulled
  simp only [annulled, Bool.not_eq_false, Bool.and_eq_true, beq_iff_eq] at hannulled
  obtain ⟨⟨⟨⟨hkind, hlikely⟩, -⟩, hdelay⟩, hzero⟩ := hannulled
  exact (h hkind hlikely (hpc ▸ hdelay)).2 hzero

/-- Executable nodes that store what `evaluate` says. -/
def Opcode.isPlain : Opcode → Bool
  | .parameter | .vu0RequireIdle | .memoryLoad | .memoryStore | .exitIfTrue => false
  | _ => true

variable {float program options block}

lemma nodeOutcome_plain {node : Node} {c : Configuration σ}
    (hlive : annulled block c.values node = false) (hplain : node.opcode.isPlain = true) :
    nodeOutcome float program options block node c =
      .ok (c.store node (evaluate float program.vu0OverflowClamp c.values node)) := by
  have hexec : executeNode float program options block node c =
      .next (c.store node (evaluate float program.vu0OverflowClamp c.values node)) := by
    rw [executeNode, if_neg (by simp [hlive])]
    unfold Opcode.isPlain at hplain
    split at hplain
    case h_6 => split <;> first | rfl | contradiction
    all_goals cases hplain
  rw [nodeOutcome, hexec]
  rfl

lemma values_store (c : Configuration σ) (node : Node) (result : U128) :
    (c.store node result).values = Function.update c.values node.id result := rfl

/-- A new value leaves the facts in force and is known itself. -/
lemma holds_store {F : Facts U128} {n : ℕ} {v : ValueId → U128} (h : F.holds n v) (x : U128) :
    (F ⊓ Facts.known n x).holds (n + 1) (Function.update v n x) :=
  ⟨F.mono (Nat.le_succ n) (fun _ hi => Function.update_of_ne (Nat.ne_of_lt hi) _ _) h,
    Nat.lt_succ_self n, Function.update_self ..⟩

end Emitter

/-! ### Lowerings that compute -/

section Computes

variable {σ : Type} (float : FloatUnit) (program : Program) (options : InterpretOptions σ)
  (block : Block)

/-- A lowering at an address that adds facts and keeps the memory. -/
def Computes {α : Type} (pc : BitVec 32) (F : Facts U128) (m : Lower α) (G : α → Facts U128) :
    Prop :=
  ∀ (X : Stop σ → Prop) (M : σ → Prop),
    (emitter float program options block).Triple (NodeAt pc) X (On F M) m
      fun a => On (F ⊓ G a) M

variable {float program options block} {α β : Type} {pc : BitVec 32} {F : Facts U128} {m : Lower α}
  {f : α → Lower β} {G G' : α → Facts U128} {H : β → Facts U128}

namespace Computes

lemma pure {a : α} (h : F ≤ G a) :
    Computes float program options block pc F (Pure.pure a : Lower α) G :=
  fun _ _ => Emitter.Triple.pure fun _ _ hc => hc.imp (le_inf le_rfl h) fun _ hM => hM

lemma fail : Computes float program options block pc F (failure : Lower α) G :=
  fun _ _ => Emitter.Triple.fail

lemma bind (hm : Computes float program options block pc F m G)
    (hf : ∀ a, Computes float program options block pc (F ⊓ G a) (f a) H) :
    Computes float program options block pc F (m >>= f) H := fun X M =>
  Emitter.Triple.bind (hm X M) fun a => Emitter.Triple.post (hf a X M) fun _ _ _ hc =>
    hc.imp (inf_le_inf_right _ inf_le_left) fun _ hM => hM

lemma imp (h : Computes float program options block pc F m G) (hG : ∀ a, F ⊓ G a ≤ G' a) :
    Computes float program options block pc F m G' := fun X M =>
  Emitter.Triple.post (h X M) fun a _ _ hc =>
    hc.imp (le_inf inf_le_left (hG a)) fun _ hM => hM

end Computes

/-- A plain node leaves what its new value shows. -/
lemma addNode_shows {opcode : Opcode} {type : ValueType} {operands : List ValueId}
    {immediate : ℕ} {literal : BitVec 64} {G : ValueId → Facts U128} (hlive : F ≤ live block pc)
    (hplain : opcode.isPlain = true)
    (hG : ∀ n v, F.holds n v → (G n).holds (n + 1) (Function.update v n
      (evaluate float program.vu0OverflowClamp v
        ⟨n, opcode, type, operands, immediate, literal, pc⟩))) :
    Computes float program options block pc F
      (Lower.addNode opcode type operands immediate literal pc) G := by
  have hparameter : opcode ≠ .parameter := by
    rintro rfl
    cases hplain
  intro X M b id b' hok h
  unfold Lower.addNode at h
  split at h
  · cases h
  · cases h
    refine Emitter.Emitted.push rfl rfl ((emitter float program options block).refl b)
      (fun entry hentry => Nat.lt_succ_of_lt (hok entry hentry)) ⟨rfl, hparameter⟩
      fun _ c hc => ?_
    have hexec := @nodeOutcome_plain σ float program options block
      ⟨b.nextValue, opcode, type, operands, immediate, literal, pc⟩ c
      (annulled_eq_false (hlive _ _ hc.1) rfl) hplain
    show Ends X _ (nodeOutcome float program options block _ c)
    rw [hexec]
    exact ⟨⟨(holds_store hc.1 _).1, hG _ _ hc.1⟩, hc.2⟩

/-- A plain node whose operands are known. -/
lemma addNode_computes {opcode : Opcode} {type : ValueType} {operands : List ValueId}
    {immediate : ℕ} {literal : BitVec 64} {x : U128} (hlive : F ≤ live block pc)
    (hplain : opcode.isPlain = true)
    (heval : ∀ n v id, F.holds n v → evaluate float program.vu0OverflowClamp v
      ⟨id, opcode, type, operands, immediate, literal, pc⟩ = x) :
    Computes float program options block pc F
      (Lower.addNode opcode type operands immediate literal pc) fun id => Facts.known id x :=
  addNode_shows hlive hplain fun n v hF => by
    rw [heval n v n hF]
    exact (holds_store hF x).2

section Nodes

variable {opcode : Opcode} {type : ValueType} {left right third : ValueId} {x y z w : U128}
  (hlive : F ≤ live block pc) (hplain : opcode.isPlain = true)
include hlive hplain

/-- A node of one operand. -/
lemma unaryImmediate_computes {immediate : ℕ} (hleft : F ≤ Facts.known left x)
    (heval : ∀ v (node : Node), node.opcode = opcode → node.immediate = immediate →
      node.operand v 0 = x → evaluate float program.vu0OverflowClamp v node = w) :
    Computes float program options block pc F
      (Lower.unaryImmediate opcode type left pc immediate) fun id => Facts.known id w :=
  addNode_computes hlive hplain
    (fun n v _ hF => heval v _ rfl rfl (hleft n v hF).2)

lemma unary_computes (hleft : F ≤ Facts.known left x)
    (heval : ∀ v (node : Node), node.opcode = opcode → node.operand v 0 = x →
      evaluate float program.vu0OverflowClamp v node = w) :
    Computes float program options block pc F (Lower.unary opcode type left pc) fun id =>
      Facts.known id w :=
  unaryImmediate_computes hlive hplain hleft fun v node hopcode _ hoperand =>
    heval v node hopcode hoperand

lemma binary_computes (hleft : F ≤ Facts.known left x) (hright : F ≤ Facts.known right y)
    (heval : ∀ v (node : Node), node.opcode = opcode → node.operand v 0 = x →
      node.operand v 1 = y → evaluate float program.vu0OverflowClamp v node = w) :
    Computes float program options block pc F (Lower.binary opcode type left right pc) fun id =>
      Facts.known id w :=
  addNode_computes hlive hplain
    (fun n v _ hF => heval v _ rfl (hleft n v hF).2 (hright n v hF).2)

lemma ternary_computes (hleft : F ≤ Facts.known left x) (hright : F ≤ Facts.known right y)
    (hthird : F ≤ Facts.known third z)
    (heval : ∀ v (node : Node), node.opcode = opcode → node.operand v 0 = x →
      node.operand v 1 = y → node.operand v 2 = z →
        evaluate float program.vu0OverflowClamp v node = w) :
    Computes float program options block pc F (Lower.ternary opcode type left right third pc)
      fun id => Facts.known id w :=
  addNode_computes hlive hplain
    (fun n v _ hF => heval v _ rfl (hleft n v hF).2 (hright n v hF).2 (hthird n v hF).2)

end Nodes

section Constants

variable (hlive : F ≤ live block pc)
include hlive

lemma constant32_computes (value : BitVec 32) :
    Computes float program options block pc F (Lower.constant32 value pc) fun id =>
      Facts.known id (bits32 value) :=
  addNode_computes hlive rfl fun _ _ _ _ => rfl

lemma constant64_computes (value : BitVec 64) :
    Computes float program options block pc F (Lower.constant64 value pc) fun id =>
      Facts.known id (bits value) :=
  addNode_computes hlive rfl fun _ _ _ _ => rfl

lemma constantAddress_computes (value : BitVec 32) :
    Computes float program options block pc F (Lower.constantAddress value pc) fun id =>
      Facts.known id (bits32 value) :=
  addNode_computes hlive rfl fun _ _ _ _ => rfl

end Constants

end Computes

/-! ### Reading and writing registers -/

/-- The nodes at an address are executed, and a state map holds the registers. -/
structure Ready {μ : Type} (block : Block) (pc : BitVec 32) (state : StateMap) (cpu : Cpu μ)
    (F : Facts U128) : Prop where
  live : F ≤ live block pc
  regs : F ≤ regs state cpu

section Access

variable {σ μ : Type} {float : FloatUnit} {program : Program} {options : InterpretOptions σ}
  {block : Block} {pc : BitVec 32} {F G : Facts U128} {state : StateMap} {cpu : Cpu μ}

lemma Ready.inf (h : Ready block pc state cpu F) : Ready block pc state cpu (F ⊓ G) :=
  ⟨inf_le_of_left_le h.live, inf_le_of_left_le h.regs⟩

/-- The registers are in a new state map. -/
lemma Ready.next {state' : StateMap} {cpu' : Cpu μ} (h : Ready block pc state cpu F)
    (hregs : F ≤ RegionIR.regs state' cpu') : Ready block pc state' cpu' F :=
  ⟨h.live, hregs⟩

lemma low32_computes (h : Ready block pc state cpu F) (reg : ℕ) :
    Computes float program options block pc F (Lower.low32 state reg pc) fun id =>
      Facts.known id (bits32 (cpu.ul reg)) :=
  unary_computes h.live rfl (known_gpr h.regs reg) fun v node hopcode hoperand => by
    simp only [evaluate, hopcode, hoperand]
    rfl

lemma low64_computes (h : Ready block pc state cpu F) (reg : ℕ) :
    Computes float program options block pc F (Lower.low64 state reg pc) fun id =>
      Facts.known id (bits (cpu.ud reg)) :=
  unary_computes h.live rfl (known_gpr h.regs reg) fun v node hopcode hoperand => by
    simp only [evaluate, hopcode, hoperand]
    rfl

/-- A binding gives its value to a field. -/
lemma bind_computes (hlive : F ≤ live block pc) {opcode : Opcode} {field : StateField}
    {immediate : ℕ} {value : ValueId} {G : StateMap → Facts U128} (hplain : opcode.isPlain = true)
    (hzero : ∀ v (node : Node), node.opcode = opcode →
      evaluate float program.vu0OverflowClamp v node = 0)
    (hG : F ≤ G (Function.update state field value)) :
    Computes float program options block pc F
      (Lower.bind opcode field state immediate value pc) G :=
  (addNode_computes hlive hplain fun _ v _ _ => hzero v _ rfl).bind fun _ =>
    Computes.pure (inf_le_left.trans hG)

lemma writeFullGpr_computes (h : Ready block pc state cpu F) {reg : ℕ} {value : ValueId} {x : U128}
    (hvalue : F ≤ Facts.known value x) :
    Computes float program options block pc F (Lower.writeFullGpr state reg value pc) fun state' =>
      regs state' (cpu.writeUq reg x) := by
  unfold Lower.writeFullGpr Cpu.writeUq
  split
  · exact Computes.pure h.regs
  · exact bind_computes h.live rfl (fun v node hopcode => by simp only [evaluate, hopcode])
      (regs_setReg h.regs hvalue)

lemma writeLow64_computes (h : Ready block pc state cpu F) {reg : ℕ} {low : ValueId} {x : U128}
    (hlow : F ≤ Facts.known low x) :
    Computes float program options block pc F (Lower.writeLow64 state reg low pc) fun state' =>
      regs state' (cpu.writeUd reg x.lo) := by
  unfold Lower.writeLow64 Cpu.writeUd
  split
  · exact Computes.pure h.regs
  · refine (binary_computes h.live rfl (known_gpr h.regs reg) hlow fun v node hopcode hx hy => by
      simp only [evaluate, hopcode, hx, hy]; rfl).bind fun complete => ?_
    exact bind_computes h.inf.live rfl (fun v node hopcode => by simp only [evaluate, hopcode])
      (regs_setReg h.inf.regs inf_le_right)

/-- Sign-extend a word and write it to a register. -/
lemma writeWord_computes (h : Ready block pc state cpu F) {reg : ℕ} {value : ValueId}
    {x : BitVec 32} (hvalue : F ≤ Facts.known value (bits32 x)) :
    Computes float program options block pc F (Lower.writeWord state reg value pc) fun state' =>
      regs state' (cpu.writeSl reg x) := by
  refine (unary_computes (w := bits (x.signExtend 64)) h.live rfl hvalue
    fun v node hopcode hx => ?_).bind fun extended => writeLow64_computes h.inf inf_le_right
  simp only [evaluate, hopcode, hx, bits32, bits_lo]
  simp

lemma registerSlot_setHi (cpu : Cpu μ) (value : BitVec 64) (slot : StateSlot) :
    registerSlot (cpu.setHi value) slot =
      if slot = .hi then some { cpu.hi with lo := value } else registerSlot cpu slot := by
  cases slot <;> rfl

lemma registerSlot_setLo (cpu : Cpu μ) (value : BitVec 64) (slot : StateSlot) :
    registerSlot (cpu.setLo value) slot =
      if slot = .lo then some { cpu.lo with lo := value } else registerSlot cpu slot := by
  cases slot <;> rfl

lemma writeHiLoLow64_computes (h : Ready block pc state cpu F) (hi : Bool) {low : ValueId}
    {x : U128} (hlow : F ≤ Facts.known low x) :
    Computes float program options block pc F (Lower.writeHiLoLow64 state hi low pc) fun state' =>
      regs state' (if hi then cpu.setHi x.lo else cpu.setLo x.lo) := by
  cases hi
  · refine (binary_computes h.live rfl (known_of_regs h.regs (show registerSlot cpu .lo = _ from rfl)) hlow
      fun v node hopcode hx hy => by simp only [evaluate, hopcode, hx, hy]; rfl).bind
        fun complete => bind_computes h.inf.live rfl
          (fun v node hopcode => by simp only [evaluate, show node.opcode = .bindLo from hopcode])
          (regs_update h.inf.regs inf_le_right ?_ fun other hother => ?_)
    · exact (registerSlot_setLo ..).trans (if_pos rfl)
    · exact (registerSlot_setLo ..).trans (if_neg hother)
  · refine (binary_computes h.live rfl (known_of_regs h.regs (show registerSlot cpu .hi = _ from rfl)) hlow
      fun v node hopcode hx hy => by simp only [evaluate, hopcode, hx, hy]; rfl).bind
        fun complete => bind_computes h.inf.live rfl
          (fun v node hopcode => by simp only [evaluate, show node.opcode = .bindHi from hopcode])
          (regs_update h.inf.regs inf_le_right ?_ fun other hother => ?_)
    · exact (registerSlot_setHi ..).trans (if_pos rfl)
    · exact (registerSlot_setHi ..).trans (if_neg hother)

lemma writeSa_computes (h : Ready block pc state cpu F) {value : ValueId} {x : BitVec 32}
    (hvalue : F ≤ Facts.known value (bits32 x)) :
    Computes float program options block pc F (Lower.writeSa state value pc) fun state' =>
      regs state' { cpu with sa := x } := by
  refine bind_computes h.live rfl (fun v node hopcode => by simp only [evaluate, hopcode])
    (regs_update h.regs hvalue rfl fun other hother => ?_)
  cases other <;> first | rfl | exact absurd rfl hother

end Access

end VitaSX2.RegionIR
