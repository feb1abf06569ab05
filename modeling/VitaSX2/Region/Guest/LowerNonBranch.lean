/-
`LowerNonBranch` against the interpreter: an instruction that may leave, because an
addition overflows or an access is not direct, leaves with the state before it.

The memory of the machine and that of the interpreter are tied by a relation `R`
that the callbacks have to keep.
-/
import VitaSX2.Region.Guest.LowerInteger

namespace VitaSX2.RegionIR

open R5900 (Cpu GuestMemory)
open StraightLine

/-! ### The memory of the guest -/

section Memory

variable {μ σ : Type} (guest : GuestMemory μ)

/-- The value a load of a kind reads, extended by zeros, and the memory behind it. -/
def guestLoad (kind : MemoryAccessKind) (address : BitVec 32) (memory : μ) : U128 × μ :=
  match kind with
  | .loadS8 | .loadU8 =>
    let (value, memory) := guest.memRead8 address memory
    (bits (value.setWidth 64), memory)
  | .loadS16 | .loadU16 =>
    let (value, memory) := guest.memRead16 address memory
    (bits (value.setWidth 64), memory)
  | .loadS32 | .loadU32 | .loadF32Bits =>
    let (value, memory) := guest.memRead32 address memory
    (bits (value.setWidth 64), memory)
  | .load64 =>
    let (value, memory) := guest.memRead64 address memory
    (bits value, memory)
  | .load128 | .loadVu0Vector => guest.memRead128 address memory
  | _ => (0, memory)

/-- The memory after a store of a kind. -/
def guestStore (kind : MemoryAccessKind) (address : BitVec 32) (value : U128) (memory : μ) : μ :=
  match kind with
  | .store8 => guest.memWrite8 address (value.lo.setWidth 8) memory
  | .store16 => guest.memWrite16 address (value.lo.setWidth 16) memory
  | .store32 | .storeF32Bits => guest.memWrite32 address (value.lo.setWidth 32) memory
  | .store64 => guest.memWrite64 address value.lo memory
  | .store128 | .storeVu0Vector => guest.memWrite128 address value memory
  | _ => memory

/-- The callbacks act on the memory of the guest: a direct access moves the bytes that the
interpreter moves, and a probe changes nothing the guest can see. -/
structure Represents (R : σ → μ → Prop) (interface : RegionMemoryInterface σ) : Prop where
  probe : ∀ probe, interface.probe = some probe → ∀ context memory request,
    R context memory → R (probe context request).2 memory
  load : ∀ probe read, interface.probe = some probe → interface.read = some read →
    ∀ context context' context'' memory request raw, request.kind.isLoad = true →
      R context memory → probe context request = (.direct, context') →
      read context' request = (some raw, context'') →
        (∀ old, loadedBits request.kind old raw =
          loadedBits request.kind old (guestLoad guest request.kind request.address memory).1) ∧
        R context'' (guestLoad guest request.kind request.address memory).2
  store : ∀ probe write, interface.probe = some probe → interface.write = some write →
    ∀ context context' context'' memory request value, request.kind.isLoad = false →
      R context memory → probe context request = (.direct, context') →
      write context' request value = (true, context'') →
        R context'' (guestStore guest request.kind request.address value memory)

/-- The address of an access to guest memory. -/
def accessAddress (kind : MemoryAccessKind) (address : BitVec 32) : BitVec 32 :=
  if kind.isQuad then address &&& ~~~0xf#32 else address

/-- The new value of the register of an access, and the memory behind the access. -/
def guestAccess (kind : MemoryAccessKind) (address : BitVec 32) (old : U128) (memory : μ) :
    U128 × μ :=
  if kind.isLoad then
    let (value, memory) := guestLoad guest kind address memory
    ((loadedBits kind old value).getD 0, memory)
  else (0, guestStore guest kind address old memory)

/-- The registers and the memory after an aligned access. -/
def accessed (kind : MemoryAccessKind) (word : BitVec 32) (cpu : Cpu μ) : Cpu μ :=
  let address := accessAddress kind (R5900.addr word cpu)
  let (value, memory) := guestAccess guest kind address (cpu.reg (rt word)) cpu.memory
  if kind.isLoad then (cpu.withMemory memory).writeUq (rt word) value else cpu.withMemory memory

/-- A doubleword load into the zero register, which the interpreter carries out. -/
def loadsZero (word : BitVec 32) : Bool := primary word == 0x37 && rt word == 0

lemma writeUq_lo (cpu : Cpu μ) (i : ℕ) (x : BitVec 64) :
    cpu.writeUq i { cpu.reg i with lo := x } = cpu.writeUd i x := rfl

lemma accessed_keeps (kind : MemoryAccessKind) (word : BitVec 32) (cpu : Cpu μ) :
    (accessed guest kind word cpu).pc = cpu.pc ∧
      (accessed guest kind word cpu).gpr 0 = cpu.gpr 0 := by
  unfold accessed
  dsimp only
  split
  · have hkeeps := keeps_writeUq (cpu.withMemory (guestAccess guest kind
      (accessAddress kind (R5900.addr word cpu)) (cpu.reg (rt word)) cpu.memory).2) (rt_lt word)
      (guestAccess guest kind (accessAddress kind (R5900.addr word cpu)) (cpu.reg (rt word))
        cpu.memory).1
    exact ⟨hkeeps.pc, hkeeps.zero⟩
  · exact ⟨rfl, rfl⟩

/-- The interpreter on an access that is aligned. -/
lemma tblStandard_access {kind : MemoryAccessKind} {word : BitVec 32} {cpu : Cpu μ}
    (hkind : decodeMemoryAccess word = some kind) (hzero : loadsZero word = false)
    (haligned : R5900.addr word cpu &&& kind.alignmentMask = 0) :
    R5900.tblStandard guest word cpu = some (accessed guest kind word cpu) := by
  have h8 : ∀ x : BitVec 8, (x.setWidth 64).setWidth 8 = x := by simp
  have h16 : ∀ x : BitVec 16, (x.setWidth 64).setWidth 16 = x := by simp
  have h32 : ∀ x : BitVec 32, (x.setWidth 64).setWidth 32 = x := by simp
  unfold decodeMemoryAccess at hkind
  split at hkind <;> rename_i hprimary <;> cases hkind <;>
    simp only [MemoryAccessKind.alignmentMask] at haligned <;>
    simp only [R5900.tblStandard, show word.toNat / 2 ^ 26 = _ from hprimary]
  all_goals
    simp only [accessed, guestAccess, accessAddress, MemoryAccessKind.isLoad, MemoryAccessKind.isQuad,
      Bool.false_eq_true, if_true, if_false, guestLoad, guestStore, loadedBits, Option.getD_some,
      bits_lo, h8, h16, h32]
  case h_7 =>
    have hrt : rt word ≠ 0 := fun h => by simp [loadsZero, hprimary, h] at hzero
    simp only [R5900.LD, R5900.aligned, haligned, Cpu.writeUq, if_neg hrt]
    rfl
  case h_1 | h_2 | h_8 | h_9 | h_13 => rfl
  all_goals
    simp only [R5900.LH, R5900.LHU, R5900.LW, R5900.LWU, R5900.SH, R5900.SW, R5900.SD,
      R5900.aligned, haligned]
    rfl

end Memory

/-! ### Overflow -/

/-- Without overflow the sum of the extended words is the extended sum. -/
lemma signExtend_add_of_bit {x y : BitVec 32}
    (h : (~~~(x ^^^ y) &&& (x ^^^ (x + y))) >>> 31 &&& 1 = 0) :
    x.signExtend 64 + y.signExtend 64 = (x + y).signExtend 64 := by
  have hbit : (!(x.msb ^^ y.msb) && (x.msb ^^ (x + y).msb)) = false := by
    have := congrArg (fun z => BitVec.getLsbD z 0) h
    simpa [BitVec.msb_eq_getLsbD_last] using this
  apply BitVec.eq_of_toNat_eq
  have hx := BitVec.msb_eq_decide x
  have hy := BitVec.msb_eq_decide y
  have hs := BitVec.msb_eq_decide (x + y)
  rw [BitVec.toNat_add] at hs
  simp only [BitVec.toNat_add, BitVec.toNat_signExtend, BitVec.toNat_setWidth]
  have := x.isLt
  have := y.isLt
  cases hmx : x.msb <;> cases hmy : y.msb <;> cases hms : (x + y).msb <;>
    simp only [hmx, hmy, hms] at hbit hx hy hs ⊢ <;> simp at hbit hx hy hs ⊢ <;> omega

lemma add32Overflow_of_bit {x y : BitVec 32}
    (h : (~~~(x ^^^ y) &&& (x ^^^ (x + y))) >>> 31 &&& 1 = 0) :
    R5900.add32Overflow x y = some ((x + y).signExtend 64) := by
  have hbits : ((x + y).signExtend 64).getLsbD 31 = ((x + y).signExtend 64).getLsbD 32 := by
    simp only [BitVec.getLsbD_signExtend, BitVec.msb_eq_getLsbD_last]
    rfl
  rw [R5900.add32Overflow, signExtend_add_of_bit h, if_neg (not_not.mpr hbits)]

/-! ### Leaving before an instruction -/

section Leave

variable {σ μ : Type} {float : FloatUnit} {program : Program} {options : InterpretOptions σ}
  {block : Block} {pc : BitVec 32} {F : Facts U128} {state : StateMap} {cpu : Cpu μ}
  {R : σ → μ → Prop} {M : σ → Prop}

/-- A state that is published at a stop is that of the interpreter, and so is the memory. -/
def Stops (R : σ → μ → Prop) (cpu : Cpu μ) (stop : Stop σ) : Prop :=
  ∀ out, stop.2 = some out → Matches out cpu ∧ R stop.1.memory cpu.memory

/-- A transfer publishes the registers and the address of the interpreter. -/
def publishes (transfer : Transfer) (cpu : Cpu μ) : Facts U128 :=
  regs transfer.state cpu ⊓ Facts.known transfer.pc (bits32 cpu.pc)

lemma matches_of_publishes (hzero : cpu.gpr 0 = 0) {n : ℕ} {v : ValueId → U128}
    {transfer : Transfer} (h : (publishes transfer cpu).holds n v) :
    Matches (materialize v transfer) cpu :=
  matches_materialize hzero h.1 (by rw [h.2.2, bits32_lo_setWidth])

lemma makeDeferred_computes (hlive : F ≤ live block pc) (hregs : F ≤ regs state cpu)
    {targetPc : BitVec 32} (hpc : targetPc = cpu.pc) (reason : ExitReason) (rawCycles : ℕ) :
    Computes float program options block pc F
      (Lower.makeDeferredObserverTransfer state targetPc reason pc rawCycles)
      fun transfer => publishes transfer cpu :=
  (constantAddress_computes hlive _).bind fun _ =>
    Computes.pure (le_inf (inf_le_of_left_le hregs) (hpc ▸ inf_le_right))

/-- The state before an instruction, where the interpreter is at `cpu`. -/
structure Restarts (restart : Lower.Restart) (cpu : Cpu μ) (F : Facts U128) : Prop where
  regs : F ≤ RegionIR.regs restart.state cpu
  pc : restart.resumePc = cpu.pc
  zero : cpu.gpr 0 = 0

lemma Restarts.inf {restart : Lower.Restart} {G : Facts U128} (h : Restarts restart cpu F) :
    Restarts restart cpu (F ⊓ G) :=
  ⟨inf_le_of_left_le h.regs, h.pc, h.zero⟩

lemma stops_leave {Q : Configuration σ → Prop} {c : Configuration σ} {transfer : Transfer}
    (hzero : cpu.gpr 0 = 0) {n : ℕ} (h : (publishes transfer cpu).holds n c.values)
    (hR : R c.memory cpu.memory) (reason : ExitReason) (address : BitVec 32) :
    Ends (Stops R cpu) Q ((c.leave block transfer reason address).except c) := by
  rintro out ⟨⟩
  exact ⟨matches_of_publishes hzero h, hR⟩

lemma nodeOutcome_exitIfTrue {node : Node} {c : Configuration σ} {transfer : Transfer}
    {condition : ValueId} (hlive : annulled block c.values node = false)
    (hopcode : node.opcode = .exitIfTrue) (hoperand : node.operands[0]? = some condition)
    (hexit : block.guardedExits[node.immediate]? = some transfer) :
    nodeOutcome float program options block node c =
      if (c.values condition).lo ≠ 0 then
        (c.leave block transfer transfer.externalReason 0).except c
      else .ok (c.store node 0) := by
  rw [nodeOutcome, executeNode, if_neg (by simp [hlive])]
  simp only [hopcode, hexit, Node.operand, hoperand]
  split <;> rfl

/-- Behind a conditional exit its condition is known to be false. -/
lemma addGuardedExit_triple {restart : Lower.Restart} {condition : ValueId} {x : U128}
    (hlive : F ≤ live block pc) (hrestart : Restarts restart cpu F)
    (hcondition : F ≤ Facts.known condition x) (hM : ∀ s, M s → R s cpu.memory) :
    (emitter float program options block).Triple (NodeAt pc) (Stops R cpu) (On F M)
      (Lower.addGuardedExit condition restart.state restart.resumePc pc restart.pendingRawCycles)
      fun _ n c => x.lo = 0 ∧ On F M n c := by
  intro b a b' hok h
  obtain ⟨transfer, b₁, htransfer, h⟩ := Emitter.Triple.bind_inv h
  have hfirst := makeDeferred_computes hlive hrestart.regs hrestart.pc _ _ (Stops R cpu) M
    b transfer b₁ hok htransfer
  refine hfirst.trans ?_
  obtain ⟨_, _, hget, h⟩ := Emitter.Triple.bind_inv h
  cases hget
  obtain ⟨_, _, hmodify, h⟩ := Emitter.Triple.bind_inv h
  cases hmodify
  obtain ⟨id, b₂, hnode, h⟩ := Emitter.Triple.bind_inv h
  cases h
  unfold Lower.addNode at hnode
  split at hnode
  · cases hnode
  cases hnode
  refine Emitter.Emitted.push rfl rfl ⟨List.prefix_append _ _, List.prefix_rfl⟩
    (fun entry hentry => Nat.lt_succ_of_lt (hfirst.ok entry hentry)) ⟨rfl, Opcode.noConfusion⟩
    fun hfinal c hc => ?_
  obtain ⟨⟨hF, hpublishes⟩, hmemory⟩ := hc
  have hexit : block.guardedExits[b₁.guardedExits.length]? = some transfer := by
    obtain ⟨rest, hrest⟩ := hfinal.1
    rw [show block.guardedExits = _ from hrest.symm]
    simp
  refine (congrArg (Ends _ _) (nodeOutcome_exitIfTrue (annulled_eq_false (hlive _ _ hF) rfl) rfl
    rfl hexit)).mpr ?_
  rw [(hcondition _ _ hF).2]
  split
  next hx => exact stops_leave hrestart.zero hpublishes (hM _ hmemory) _ _
  next hx => exact ⟨not_not.mp hx, (holds_store hF 0).1, hmemory⟩

/-- One instruction of the interpreter, behind the nodes of its lowering. -/
def Steps (R : σ → μ → Prop) (F : Facts U128) (cpu : Cpu μ) (next : Option (Cpu μ))
    (state : StateMap) (n : ℕ) (c : Configuration σ) : Prop :=
  ∃ cpu', next = some cpu' ∧ (cpu'.pc = cpu.pc ∧ cpu'.gpr 0 = cpu.gpr 0) ∧
    On (F ⊓ regs state cpu') (fun s => R s cpu'.memory) n c

lemma Computes.steps {m : Lower StateMap} {next : Option (Cpu μ)} {X : Stop σ → Prop}
    (h : Computes float program options block pc F m (RegionIR.reaches cpu next)) :
    (emitter float program options block).Triple (NodeAt pc) X (On F fun s => R s cpu.memory) m
      (Steps R F cpu next) := by
  refine (h X _).post ?_
  rintro state' n c ⟨⟨hF, cpu', hnext, hkeeps, hregs⟩, hmemory⟩
  exact ⟨cpu', hnext, ⟨hkeeps.pc, hkeeps.zero⟩, ⟨hF, hregs⟩, hkeeps.memory ▸ hmemory⟩

lemma lowerAddi_triple (h : Ready block pc state cpu F) {restart : Lower.Restart} {before : Cpu μ}
    (hrestart : Restarts restart before F) (hsame : before.memory = cpu.memory)
    {word : BitVec 32} :
    (emitter float program options block).Triple (NodeAt pc) (Stops R before)
      (On F fun s => R s cpu.memory) (Lower.lowerAddi state word pc restart)
      (Steps R F cpu (R5900.ADDI word cpu)) := by
  let x := cpu.ul (rs word)
  let y := immS word
  refine (low32_computes h _ _ _).bind fun left =>
    (constant32_computes h.inf.live _ _ _).bind fun right =>
    (binary_computes (w := bits32 (x + y)) h.inf.inf.live rfl (inf_le_of_left_le inf_le_right)
      inf_le_right (fun v node hop hx hy => by
        simp only [evaluate, hop, hx, hy, bits32_lo_setWidth]; rfl) _ _).bind fun value =>
    (binary_computes (w := bits32 ((~~~(x ^^^ y) &&& (x ^^^ (x + y))) >>> 31 &&& 1))
      h.inf.inf.inf.live rfl
      (inf_le_of_left_le (inf_le_of_left_le inf_le_right)) (inf_le_of_left_le inf_le_right)
      (fun v node hop hx hy => by
        simp only [evaluate, hop, hx, hy, bits32_lo_setWidth]; rfl) _ _).bind fun overflow =>
    (addGuardedExit_triple h.inf.inf.inf.inf.live hrestart.inf.inf.inf.inf inf_le_right
      fun _ hR => hsame ▸ hR).bind fun _ =>
    (((writeWord_computes h.inf.inf.inf.inf (inf_le_of_left_le inf_le_right)) _ _).frame _).post ?_
  rintro state' n c ⟨hzero, hc⟩
  have hbit : (~~~(x ^^^ y) &&& (x ^^^ (x + y))) >>> 31 &&& 1 = 0 := by
    have := congrArg (BitVec.setWidth 32) hzero
    rwa [bits32_lo_setWidth] at this
  have hkeeps := keeps_writeUd cpu (rt_lt word) ((x + y).signExtend 64)
  refine ⟨_, congrArg (Option.map (cpu.writeUd (rt word))) (add32Overflow_of_bit hbit),
    ⟨hkeeps.pc, hkeeps.zero⟩, hc.imp ?_ fun s hR => hkeeps.memory ▸ hR⟩
  exact inf_le_inf_right _ (inf_le_of_left_le (inf_le_of_left_le (inf_le_of_left_le inf_le_left)))

/-! ### Accesses -/

/-- The fallback of an operation is the one that was entered with it. -/
lemma findExit_of_prefix {exits all : List OperationExit} {node : Node} {transfer : Transfer}
    (hearlier : ∀ entry ∈ exits, entry.operation < node.id)
    (hkept : exits ++ [⟨node.id, transfer⟩] <+: all) :
    findExit all node = some ⟨node.id, transfer⟩ := by
  obtain ⟨rest, rfl⟩ := hkept
  have hnone : exits.find? (fun candidate => candidate.operation == node.id) = none :=
    List.find?_eq_none.mpr fun entry hentry => by simpa using Nat.ne_of_lt (hearlier entry hentry)
  rw [findExit, List.append_assoc, List.find?_append, hnone]
  simp

lemma exitBeforeMemory_stops {Q : Configuration σ → Prop} {c : Configuration σ} {node : Node}
    {transfer : Transfer} (hfind : findExit block.memoryExits node = some ⟨node.id, transfer⟩)
    (hzero : cpu.gpr 0 = 0) {n : ℕ} (h : (publishes transfer cpu).holds n c.values)
    (hR : R c.memory cpu.memory) (address : BitVec 32) (reason : ExitReason) :
    Ends (Stops R cpu) Q ((exitBeforeMemory block node address reason c).except c) := by
  rw [exitBeforeMemory, hfind]
  exact stops_leave hzero h hR reason address

variable {guest : GuestMemory μ}

/-- A direct access does what the interpreter does. -/
lemma performAccess_ends {interface : RegionMemoryInterface σ}
    (hrepresents : Represents guest R interface) {X : Stop σ → Prop}
    (hX : ∀ c', X (c', none))
    {probe : σ → MemoryRequest → MemoryProbeResult × σ} (hprobe : interface.probe = some probe)
    {node : Node} {kind : MemoryAccessKind}
    (hopcode : node.opcode = if kind.isLoad then .memoryLoad else .memoryStore)
    {request : MemoryRequest} (hkind : request.kind = kind) {context : σ} {memory : μ}
    {c c₀ : Configuration σ} (hR : R context memory)
    (hdirect : probe context request = (.direct, c.memory)) :
    Ends X
      (fun c' => ∃ context', c' = { c with memory := context' }.store node
          (guestAccess guest kind request.address (node.operand c.values 2) memory).1 ∧
        R context' (guestAccess guest kind request.address (node.operand c.values 2) memory).2)
      ((performAccess interface node kind request c).except c₀) := by
  subst hkind
  unfold performAccess
  cases hload : request.kind.isLoad
  · rw [if_neg (by rw [hopcode, hload]; exact Opcode.noConfusion)]
    cases hwrite : interface.write with
    | none => exact hX c₀
    | some write =>
      dsimp only
      split
      next => exact hX c₀
      next context' hstore =>
        have hR' := hrepresents.store probe write hprobe hwrite _ _ _ _ _ _ hload hR hdirect hstore
        refine ⟨context', ?_, ?_⟩ <;> simp only [guestAccess, hload]
        exacts [rfl, hR']
  · rw [if_pos (by rw [hopcode, hload]; rfl)]
    cases hread : interface.read with
    | none => exact hX c₀
    | some read =>
      dsimp only
      split
      next => exact hX c₀
      next raw context' hraw =>
        obtain ⟨hbits, hR'⟩ := hrepresents.load probe read hprobe hread _ _ _ _ _ _ hload hR
          hdirect hraw
        split
        next => exact hX c₀
        next loaded hloaded =>
          rw [hbits] at hloaded
          refine ⟨context', ?_, ?_⟩ <;> simp only [guestAccess, hload, if_true]
          · rw [hloaded]
            rfl
          · exact hR'

lemma executeMemory_ends
    (hmemory : ∀ interface, options.memory = some interface → Represents guest R interface)
    {node : Node} {kind : MemoryAccessKind} {address : BitVec 32} {transfer : Transfer}
    {c : Configuration σ} (hkind : node.accessKind = some kind)
    (hopcode : node.opcode = if kind.isLoad then .memoryLoad else .memoryStore)
    (haddress : (node.operand c.values 1).lo.setWidth 32 = address)
    (hfind : findExit block.memoryExits node = some ⟨node.id, transfer⟩) (hzero : cpu.gpr 0 = 0)
    {n : ℕ} (h : (publishes transfer cpu).holds n c.values) (hR : R c.memory cpu.memory) :
    Ends (Stops R cpu)
      (fun c' => address &&& kind.alignmentMask = 0 ∧ ∃ context,
        c' = { c with memory := context }.store node
          (guestAccess guest kind (accessAddress kind address) (node.operand c.values 2)
            cpu.memory).1 ∧
        R context (guestAccess guest kind (accessAddress kind address) (node.operand c.values 2)
          cpu.memory).2)
      ((executeMemory options block node c).except c) := by
  unfold executeMemory
  rw [hkind]
  dsimp only
  rw [haddress]
  by_cases haligned : address &&& kind.alignmentMask = 0
  · rw [if_neg (not_not.mpr haligned)]
    cases hinterface : options.memory with
    | none => exact exitBeforeMemory_stops hfind hzero h hR _ _
    | some interface =>
      cases hprobe : interface.probe with
      | none =>
        simp only [Option.bind_some, hprobe, Option.map_none]
        exact exitBeforeMemory_stops hfind hzero h hR _ _
      | some probe =>
        simp only [Option.bind_some, hprobe, Option.map_some]
        have hrepresents := hmemory interface hinterface
        split
        next context hdirect =>
          refine (performAccess_ends hrepresents (fun _ _ h => by cases h) hprobe hopcode rfl hR
            hdirect).imp (fun _ h => h) fun c' hc' => ⟨haligned, hc'⟩
        all_goals exact exitBeforeMemory_stops hfind hzero h hR _ _
  · rw [if_pos haligned]
    exact exitBeforeMemory_stops hfind hzero h hR _ _

lemma nodeOutcome_memory {node : Node} {c : Configuration σ} {load : Bool}
    (hlive : annulled block c.values node = false)
    (hopcode : node.opcode = if load then .memoryLoad else .memoryStore) :
    nodeOutcome float program options block node c =
      (executeMemory options block node c).except c := by
  rw [nodeOutcome, executeNode, if_neg (by simp [hlive])]
  cases load <;> simp only [hopcode] <;> rfl

/-- The node of an access, entered with its fallback. -/
lemma accessNode_emitted
    (hmemory : ∀ interface, options.memory = some interface → Represents guest R interface)
    {before : Cpu μ} (hlive : F ≤ live block pc) (hzero : before.gpr 0 = 0)
    (hsame : before.memory = cpu.memory) {transfer : Transfer} {kind : MemoryAccessKind}
    {effect address value : ValueId} {x : BitVec 32} {old : U128}
    (hpublishes : F ≤ publishes transfer before) (haddress : F ≤ Facts.known address (bits32 x))
    (hvalue : F ≤ Facts.known value old) {token : ValueId} {b b₁ : Builder}
    (hok : (emitter float program options block).Ok b)
    (h : Lower.addNode (if kind.isLoad then .memoryLoad else .memoryStore) .memoryEffect
      [token, address, value] kind.encode 0 pc b = some (effect, b₁)) :
    (emitter float program options block).Emitted (NodeAt pc) (Stops R before) b
      { b₁ with memoryExits := b₁.memoryExits ++ [⟨effect, transfer⟩] }
      (On F fun s => R s cpu.memory)
      fun n c => x &&& kind.alignmentMask = 0 ∧
        On (F ⊓ Facts.known effect (guestAccess guest kind (accessAddress kind x) old cpu.memory).1)
          (fun s => R s (guestAccess guest kind (accessAddress kind x) old cpu.memory).2) n c := by
  unfold Lower.addNode at h
  split at h
  · cases h
  cases h
  refine Emitter.Emitted.push rfl rfl ⟨List.prefix_rfl, List.prefix_append _ _⟩ ?_ ?_ ?_
  · intro entry hentry
    rcases List.mem_append.mp hentry with hentry | hentry
    · exact Nat.lt_succ_of_lt (hok entry hentry)
    · rw [List.mem_singleton.mp hentry]
      exact Nat.lt_succ_self _
  · refine ⟨rfl, ?_⟩
    cases kind.isLoad <;> exact Opcode.noConfusion
  · intro hfinal c hc
    generalize hnode : (⟨b.nextValue, if kind.isLoad then .memoryLoad else .memoryStore,
      .memoryEffect, [token, address, value], kind.encode, 0, pc⟩ : Node) = node
    have hkind : node.accessKind = some kind := by
      rw [← hnode]
      cases kind <;> rfl
    have hid : node.id = b.nextValue := by rw [← hnode]
    have hopcode : node.opcode = if kind.isLoad then .memoryLoad else .memoryStore := by
      rw [← hnode]
    have hoperand : (node.operand c.values 1).lo.setWidth 32 = x := by
      rw [← hnode, show Node.operand _ c.values 1 = c.values address from rfl,
        (haddress _ _ hc.1).2, bits32_lo_setWidth]
    have hold : node.operand c.values 2 = old := by
      rw [← hnode]
      exact (hvalue _ _ hc.1).2
    have hfind : findExit block.memoryExits node = some ⟨node.id, transfer⟩ :=
      findExit_of_prefix (fun entry hentry => hid ▸ hok entry hentry) (hid ▸ hfinal.2)
    have haccess := executeMemory_ends hmemory hkind hopcode hoperand hfind hzero
      (hpublishes _ _ hc.1) (hsame ▸ hc.2 : R c.memory before.memory)
    rw [hold, hsame] at haccess
    have hannulled : annulled block c.values node = false :=
      annulled_eq_false (hlive _ _ hc.1) (by rw [← hnode])
    refine (congrArg (Ends _ _) (nodeOutcome_memory hannulled hopcode)).mpr ?_
    refine haccess.imp (fun _ h => h) ?_
    rintro c' ⟨haligned, context, rfl, hR⟩
    refine ⟨haligned, ?_, hR⟩
    rw [values_store, hid]
    exact holds_store hc.1 _

/-- The register write behind an access. -/
lemma lowerLoaded_computes (h : Ready block pc state cpu F) {kind : MemoryAccessKind}
    {destination : ℕ} {effect : ValueId} {x : U128} (heffect : F ≤ Facts.known effect x) :
    Computes float program options block pc F
      (if kind.isLoad ∧ destination ≠ 0 then do
        let loaded ← Lower.unary .memoryLoadValue .i128 effect pc
        Lower.writeFullGpr (Function.update state .memoryEffect effect) destination loaded pc
      else return Function.update state .memoryEffect effect)
      fun state' => regs state' (if kind.isLoad then cpu.writeUq destination x else cpu) := by
  have hstate : F ≤ regs (Function.update state .memoryEffect effect) cpu :=
    regs_update_other h.regs fun slot hslot => by cases hslot
  split
  next hload =>
    rw [if_pos hload.1]
    exact (unary_computes h.live rfl heffect fun v node hop hx => by
        simp only [evaluate, hop, hx]).bind fun _ =>
      writeFullGpr_computes (h.next hstate).inf inf_le_right
  next hload =>
    refine Computes.pure ?_
    split
    next hkind =>
      have hzero : destination = 0 := by_contra fun hne => hload ⟨hkind, hne⟩
      rwa [Cpu.writeUq, if_pos hzero]
    next => exact hstate

lemma memory_accessed (kind : MemoryAccessKind) (word : BitVec 32) (cpu : Cpu μ) :
    (accessed guest kind word cpu).memory = (guestAccess guest kind
      (accessAddress kind (R5900.addr word cpu)) (cpu.reg (rt word)) cpu.memory).2 := by
  unfold accessed
  dsimp only
  split
  · exact (keeps_writeUq _ (rt_lt word) _).memory
  · rfl

lemma Steps.imp {F G : Facts U128} {next : Option (Cpu μ)} {state : StateMap} {n : ℕ}
    {c : Configuration σ} (h : Steps R F cpu next state n c) (hFG : F ≤ G) :
    Steps R G cpu next state n c := by
  obtain ⟨cpu', hnext, hkeeps, hc⟩ := h
  exact ⟨cpu', hnext, hkeeps, hc.imp (inf_le_inf_right _ hFG) fun _ hR => hR⟩

section Access

variable (hmemory : ∀ interface, options.memory = some interface → Represents guest R interface)
  {before : Cpu μ} (hsame : before.memory = cpu.memory) {word : BitVec 32}
  {kind : MemoryAccessKind} (hkind : decodeMemoryAccess word = some kind)
  (hplain : loadsZero word = false)
include hmemory hsame hkind hplain

/-- The nodes of an access whose address and fallback are at hand. -/
lemma lowerAccess_triple (h : Ready block pc state cpu F) (hzero : before.gpr 0 = 0)
    {transfer : Transfer} {address : ValueId} (hpublishes : F ≤ publishes transfer before)
    (haddress : F ≤ Facts.known address (bits32 (R5900.addr word cpu))) :
    (emitter float program options block).Triple (NodeAt pc) (Stops R before)
      (On F fun s => R s cpu.memory)
      (do
        let effect ← Lower.addNode (if kind.isLoad then .memoryLoad else .memoryStore) .memoryEffect
          [state .memoryEffect, address, state (Lower.gprField (rt word))] kind.encode 0 pc
        modify fun b => { b with memoryExits := b.memoryExits ++ [⟨effect, transfer⟩] }
        if kind.isLoad ∧ rt word ≠ 0 then do
          let loaded ← Lower.unary .memoryLoadValue .i128 effect pc
          Lower.writeFullGpr (Function.update state .memoryEffect effect) (rt word) loaded pc
        else return Function.update state .memoryEffect effect)
      (Steps R F cpu (R5900.tblStandard guest word cpu)) := by
  intro b state' b' hok hlower
  obtain ⟨effect, b₁, hnode, hlower⟩ := Emitter.Triple.bind_inv hlower
  obtain ⟨_, _, hmodify, hlower⟩ := Emitter.Triple.bind_inv hlower
  cases hmodify
  have haccess := accessNode_emitted hmemory h.live hzero hsame hpublishes haddress
    (known_gpr h.regs (rt word)) hok hnode
  let access := guestAccess guest kind (accessAddress kind (R5900.addr word cpu))
    (cpu.reg (rt word)) cpu.memory
  have hready : Ready block pc state (cpu.withMemory access.2)
      (F ⊓ Facts.known effect access.1) := h.inf.next h.inf.regs
  refine haccess.trans (Emitter.Emitted.post (((lowerLoaded_computes hready
    inf_le_right _ _).frame _) _ _ _ haccess.ok hlower) ?_)
  rintro n c ⟨haligned, hc⟩
  refine ⟨_, tblStandard_access guest hkind hplain haligned, accessed_keeps guest kind word cpu, ?_⟩
  rw [memory_accessed]
  exact hc.imp (inf_le_inf_right _ inf_le_left) fun _ hR => hR

lemma lowerMemory_triple (h : Ready block pc state cpu F) {restart : Lower.Restart}
    (hrestart : Restarts restart before F) :
    (emitter float program options block).Triple (NodeAt pc) (Stops R before)
      (On F fun s => R s cpu.memory) (Lower.lowerMemory state word pc kind restart)
      (Steps R F cpu (R5900.tblStandard guest word cpu)) :=
  (makeDeferred_computes h.live hrestart.regs hrestart.pc _ _ _ _).bind fun transfer =>
    (low32_computes h.inf _ _ _).bind fun base =>
    (constant32_computes h.inf.inf.live _ _ _).bind fun offset =>
    (binary_computes (w := bits32 (R5900.addr word cpu)) h.inf.inf.inf.live rfl
      (inf_le_of_left_le inf_le_right) inf_le_right (fun v node hop hx hy => by
        simp only [evaluate, hop, hx, hy, bits32_lo_setWidth]; rfl) _ _).bind fun address =>
    (lowerAccess_triple hmemory hsame hkind hplain h.inf.inf.inf.inf hrestart.zero
      (inf_le_of_left_le (inf_le_of_left_le (inf_le_of_left_le inf_le_right))) inf_le_right).post
        fun state' n c hc => hc.imp
          (inf_le_of_left_le (inf_le_of_left_le (inf_le_of_left_le inf_le_left)))

end Access

/-! ### One instruction -/

/-- The instructions whose lowering follows the interpreter: CACHE has no effect in a region,
and a doubleword load into the zero register has none on it. -/
def isFollowed (word : BitVec 32) : Bool := !loadsZero word && primary word != 0x2f

lemma tblStandard_of_noEffect {lift : LiftOptions} {word : BitVec 32} {kind : ℕ}
    (h : decodeNoEffect lift word = some kind) (hfollowed : isFollowed word = true) :
    R5900.tblStandard guest word cpu = some cpu := by
  unfold decodeNoEffect at h
  unfold R5900.tblStandard
  split at h
  next hsync =>
    rw [show word.toNat / 2 ^ 26 = 0 from hsync.1]
    simp only [R5900.tblSpecial, show word.toNat % 64 = 0x0f from hsync.2]
  next =>
    split at h
    next hpref => simp only [show word.toNat / 2 ^ 26 = 0x33 from hpref]
    next =>
      split at h
      next hcache => simp [isFollowed, hcache.1] at hfollowed
      next => cases h

/-- The nodes of an instruction do what the interpreter does, or leave before it. -/
theorem lowerNonBranch_triple {lift : LiftOptions}
    (hmemory : ∀ interface, options.memory = some interface → Represents guest R interface)
    (h : Ready block pc state cpu F) {restart : Lower.Restart} {before : Cpu μ}
    (hrestart : Restarts restart before F) (hsame : before.memory = cpu.memory)
    {word : BitVec 32} (hfollowed : isFollowed word = true) :
    (emitter float program options block).Triple (NodeAt pc) (Stops R before)
      (On F fun s => R s cpu.memory) (Lower.lowerNonBranch lift state word pc restart)
      (Steps R F cpu (R5900.tblStandard guest word cpu)) := by
  have hkeeps : ∀ value, Keeps cpu (cpu.writeUd (rt word) value) := keeps_writeUd cpu (rt_lt word)
  have hplain : loadsZero word = false := by
    simp only [isFollowed, Bool.and_eq_true, Bool.not_eq_true'] at hfollowed
    exact hfollowed.1
  unfold Lower.lowerNonBranch
  cases heffect : decodeNoEffect lift word with
  | some kind =>
    rw [tblStandard_of_noEffect heffect hfollowed]
    have hnone : Computes float program options block pc F
        (do
          let _ ← Lower.addNode .noEffect .void [] kind 0 pc
          return state) fun state' => regs state' cpu :=
      (addNode_computes h.live rfl fun _ _ _ _ => rfl).bind fun _ => Computes.pure h.inf.regs
    exact (hnone.reaches rfl (Keeps.refl cpu)).steps
  | none =>
    cases hkind : decodeMemoryAccess word with
    | some kind => exact lowerMemory_triple hmemory hsame hkind hplain h hrestart
    | none =>
      dsimp only
      split <;> rename_i hprimary <;>
        try simp only [R5900.tblStandard, show word.toNat / 2 ^ 26 = _ from hprimary]
      · exact (lowerSpecial_computes h).steps
      · split
        next hrt =>
          refine ((lowerMoveToSa_computes h hrt).reaches ?_ ?_).steps
          · rcases hrt with hrt | hrt <;> simp only [show R5900.rt word = _ from hrt, hrt] <;> rfl
          · exact keeps_ite ⟨rfl, rfl, rfl⟩ ⟨rfl, rfl, rfl⟩
        next => exact Emitter.Triple.fail
      · exact lowerAddi_triple h hrestart hsame
      · exact ((lowerAddiu_computes h).reaches rfl (hkeeps _)).steps
      · exact ((lowerImmediate64_computes h _ (f := fun x y => x + y) rfl
          fun v node hop => by simp only [evaluate, hop]).reaches
            (by rw [immS_signExtend]; rfl) (hkeeps _)).steps
      · exact ((lowerImmediate64_computes h _ (f := fun x y => x &&& y) rfl
          fun v node hop => by simp only [evaluate, hop]).reaches rfl (hkeeps _)).steps
      · exact ((lowerImmediate64_computes h _ (f := fun x y => x ||| y) rfl
          fun v node hop => by simp only [evaluate, hop]).reaches rfl (hkeeps _)).steps
      · exact ((lowerImmediate64_computes h _ (f := fun x y => x ^^^ y) rfl
          fun v node hop => by simp only [evaluate, hop]).reaches rfl (hkeeps _)).steps
      · exact ((lowerSetLessImmediate_computes h (f := fun x y => x.slt y) rfl
          fun v node hop => by simp only [evaluate, hop]).reaches rfl (hkeeps _)).steps
      · exact ((lowerSetLessImmediate_computes h (f := fun x y => x.ult y) rfl
          fun v node hop => by simp only [evaluate, hop]).reaches rfl (hkeeps _)).steps
      · exact ((lowerLui_computes h).reaches rfl (hkeeps _)).steps
      · exact Emitter.Triple.fail

end Leave

end VitaSX2.RegionIR
