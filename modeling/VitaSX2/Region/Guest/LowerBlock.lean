/-
The blocks of a region against the interpreter.  The nodes of a block lead from the
registers before its first instruction to a transfer that publishes the registers
behind its last one, or stop before an instruction in between.
-/
import VitaSX2.Region.Guest.Branch

namespace VitaSX2.RegionIR

open R5900 (Cpu GuestMemory)
open StraightLine

/-! ### Runs of the interpreter -/

section Runs

variable {μ : Type} (guest : GuestMemory μ) (fetch : BitVec 32 → Option (BitVec 32))

/-- The interpreter comes from one state to another. -/
def ComesTo (cpu cpu' : Cpu μ) : Prop := ∃ k, R5900.units guest fetch k cpu = some cpu'

variable {guest fetch} {cpu cpu' cpu'' : Cpu μ}

lemma units_succ (k : ℕ) (cpu : Cpu μ) : R5900.units guest fetch (k + 1) cpu =
    (R5900.units guest fetch k cpu).bind (R5900.unit guest fetch) := by
  induction k generalizing cpu with
  | zero =>
    show (R5900.unit guest fetch cpu).bind some = R5900.unit guest fetch cpu
    cases R5900.unit guest fetch cpu <;> rfl
  | succ k ih =>
    calc R5900.units guest fetch (k + 1 + 1) cpu
      _ = (R5900.unit guest fetch cpu).bind fun cpu' =>
          (R5900.units guest fetch k cpu').bind (R5900.unit guest fetch) :=
        congrArg _ (funext ih)
      _ = (R5900.units guest fetch (k + 1) cpu).bind (R5900.unit guest fetch) :=
        (Option.bind_assoc ..).symm

lemma ComesTo.refl (cpu : Cpu μ) : ComesTo guest fetch cpu cpu := ⟨0, rfl⟩

lemma ComesTo.tail (h : ComesTo guest fetch cpu cpu') (hunit : R5900.unit guest fetch cpu' = some cpu'') :
    ComesTo guest fetch cpu cpu'' := by
  obtain ⟨k, hk⟩ := h
  exact ⟨k + 1, by rw [units_succ, hk, Option.bind_some, hunit]⟩

end Runs

/-- The registers do not include the address. -/
lemma regs_withPc {μ : Type} (state : StateMap) (cpu : Cpu μ) (pc : BitVec 32) :
    regs state (withPc cpu pc) = regs state cpu := by
  ext n v
  have hslot : ∀ slot, registerSlot (withPc cpu pc) slot = registerSlot cpu slot := by
    intro slot
    cases slot <;> rfl
  simp only [regs, hslot]

lemma linked_keeps {μ : Type} (word pc : BitVec 32) (cpu : Cpu μ) : Keeps cpu (linked word pc cpu) := by
  unfold linked
  split
  next hlink =>
    have hregister : controlLinkRegister word < 32 := by
      unfold controlLinkRegister
      split
      · exact rd_lt word
      · decide
    have hkeeps := keeps_writeUd cpu hregister ((pc + 8).setWidth 64)
    rwa [Cpu.writeUd, if_neg hlink.2] at hkeeps
  next => exact Keeps.refl cpu

/-! ### Sources -/

/-- Instructions at consecutive addresses that the interpreter fetches and that are followed. -/
def Sourced (fetch : BitVec 32 → Option (BitVec 32)) :
    List SourceInstruction → BitVec 32 → BitVec 32 → Prop
  | [], pc, stop => pc = stop
  | instruction :: rest, pc, stop =>
    (instruction.pc = pc ∧ fetch pc = some instruction.opcode ∧
      isFollowed instruction.opcode = true) ∧ Sourced fetch rest (pc + 4) stop

/-- The word of a control instruction is one of its kind. -/
def RawControlKind.accepts : RawControlKind → BitVec 32 → Bool
  | .none, _ => true
  | .conditionalBranch, word => isConditionalBranch word
  | .staticJump, word => isStaticJump word
  | .registerJump, word => isRegisterJump word

/-- A scanned block holds the instructions that the interpreter fetches. -/
structure RawBlock.Fetched (raw : RawBlock) (fetch : BitVec 32 → Option (BitVec 32)) : Prop where
  body : Sourced fetch raw.body raw.pc
    (if raw.controlKind = .none then raw.transferPc else raw.branchPc)
  accepts : raw.controlKind.accepts raw.branchOpcode = true
  branch : raw.controlKind ≠ .none → fetch raw.branchPc = some raw.branchOpcode
  delay : raw.controlKind ≠ .none → Sourced fetch [raw.delay] (raw.branchPc + 4) (raw.branchPc + 8)
  slot : ∀ instruction ∈ raw.body, instruction.pc ≠ raw.delay.pc

lemma exists_of_mem_mapM {α β : Type} {f : α → Option β} {l : List α} {out : List β} {y : β}
    (h : l.mapM f = some out) (hy : y ∈ out) : ∃ x ∈ l, f x = some y := by
  induction l generalizing out with
  | nil =>
    cases h
    cases hy
  | cons x rest ih =>
    rw [List.mapM_cons] at h
    obtain ⟨y', hx, h⟩ := Option.bind_eq_some_iff.mp h
    obtain ⟨ys, hrest, h⟩ := Option.bind_eq_some_iff.mp h
    cases h
    rcases List.mem_cons.mp hy with rfl | hy
    · exact ⟨x, List.mem_cons_self, hx⟩
    · obtain ⟨x', hx', hf⟩ := ih hrest hy
      exact ⟨x', List.mem_cons_of_mem _ hx', hf⟩

/-- The internal returns of a block publish what its exit does. -/
lemma mem_returnTargets {context : LiftContext} {raw : RawBlock} {parameters state : StateMap}
    {target : ValueId} {targets : List Transfer} {transfer : Transfer}
    (h : context.returnTargets raw parameters state target = some targets)
    (htransfer : transfer ∈ targets) : (transfer.state = state ∧ transfer.pc = target) ∧
      transfer.targetBlock = context.blockIndices transfer.provenRegisterTargetPc := by
  obtain ⟨call, -, hcall⟩ := exists_of_mem_mapM h htransfer
  split at hcall
  next found hfound =>
    split at hcall
    · cases hcall
      exact ⟨⟨rfl, rfl⟩, hfound.symm⟩
    · cases hcall
  next => cases hcall

/-- What holds of every result of a lowering. -/
def Yields {α : Type} (P : α → Prop) (m : Lower α) : Prop := ∀ b r, m b = some r → P r.1

lemma Yields.pure {α : Type} {P : α → Prop} {a : α} (h : P a) : Yields P (Pure.pure a) := by
  rintro b _ ⟨⟩
  exact h

lemma Yields.bind {α β : Type} {P : β → Prop} {m : Lower α} {f : α → Lower β}
    (h : ∀ a, Yields P (f a)) : Yields P (m >>= f) := by
  rintro b ⟨y, b'⟩ hr
  obtain ⟨x, b₁, -, hx⟩ := Emitter.Triple.bind_inv hr
  exact h x b₁ (y, b') hx

/-- A block that ends in a branch has its slot. -/
lemma slot_of_lowerBlock {context : LiftContext} {raw : RawBlock} {base : ValueId} {b b' : Builder}
    {terminator : Terminator} (h : context.lowerBlock raw base b = some (terminator, b'))
    (hkind : terminator.kind = .branch) : terminator.delaySlotPc = raw.delay.pc := by
  have hreturns : Yields (fun terminator : Terminator => terminator.kind = .branch →
      terminator.delaySlotPc = raw.delay.pc) (context.lowerBlock raw base) := by
    refine Yields.bind fun result => ?_
    dsimp only
    split
    · unfold LiftContext.lowerFallthrough
      split
      · exact Yields.bind fun _ => Yields.bind fun _ => Yields.pure (by rintro ⟨⟩)
      · exact Yields.bind fun _ => Yields.pure (by rintro ⟨⟩)
    · refine Yields.bind fun _ => Yields.bind fun _ => Yields.bind fun _ =>
        Yields.bind fun _ => ?_
      split
      all_goals exact Yields.bind fun _ => Yields.bind fun _ => Yields.bind fun _ =>
        Yields.pure fun _ => rfl
    · exact Yields.bind fun _ => Yields.bind fun _ => Yields.bind fun _ => Yields.bind fun _ =>
        Yields.pure fun _ => rfl
    · exact Yields.bind fun _ => Yields.bind fun _ => Yields.bind fun _ => Yields.bind fun _ =>
        Yields.bind fun _ => Yields.bind fun _ => Yields.pure fun _ => rfl
  exact hreturns b (terminator, b') h hkind

/-! ### Where the nodes of a block lead -/

section Block

variable {σ μ : Type} (guest : GuestMemory μ) (fetch : BitVec 32 → Option (BitVec 32))
  (R : σ → μ → Prop) (input : Cpu μ)

/-- The machine is where the interpreter is before the instruction at `pc`. -/
def At (state : StateMap) (pc : BitVec 32) (n : ℕ) (c : Configuration σ) : Prop :=
  ∃ cpu, (ComesTo guest fetch input cpu ∧ cpu.pc = pc ∧ cpu.gpr 0 = 0) ∧
    On (regs state cpu) (fun s => R s cpu.memory) n c

/-- A state that is published at a stop is one the interpreter comes to. -/
def Halts (stop : Stop σ) : Prop :=
  ∀ out, stop.2 = some out →
    ∃ cpu, ComesTo guest fetch input cpu ∧ Matches out cpu ∧ R stop.1.memory cpu.memory

/-- A transfer to a block goes to that of the address. -/
def Routes (blockIndices : BitVec 32 → Option ℕ) (transfer : Transfer) (cpu : Cpu μ) : Prop :=
  ∀ target, transfer.targetBlock = some target → blockIndices cpu.pc = some target

/-- The transfer that is chosen publishes a state the interpreter comes to, and goes on there. -/
def Leads (blockIndices : BitVec 32 → Option ℕ) (block : Block) (n : ℕ) (c : Configuration σ) :
    Prop :=
  ∃ cpu, ((ComesTo guest fetch input cpu ∧ cpu.gpr 0 = 0) ∧
      Routes blockIndices (selectTransfer block c.values) cpu) ∧
    On (publishes (selectTransfer block c.values) cpu) (fun s => R s cpu.memory) n c

/-- A node of a block that is no parameter. -/
def Body (node : Node) : Prop := node.opcode ≠ .parameter

variable {guest fetch R input} {float : FloatUnit} {program : Program}
  {options : InterpretOptions σ} {block : Block} {pc : BitVec 32} {F : Facts U128}
  {state : StateMap} {cpu : Cpu μ} {word : BitVec 32} {b b' : Builder}

/-- The address is not that of a slot that may be skipped. -/
def Unskipped (block : Block) (pc : BitVec 32) : Prop :=
  block.terminator.kind = .branch → block.terminator.likely = true →
    pc ≠ block.terminator.delaySlotPc

lemma Unskipped.le_live (h : Unskipped block pc) : F ≤ live block pc :=
  fun _ _ _ hkind hlikely hpc => absurd hpc (h hkind hlikely)

lemma halts_of_stops (hruns : ComesTo guest fetch input cpu) (stop : Stop σ)
    (h : Stops R cpu stop) : Halts guest fetch R input stop :=
  fun out hout => ⟨cpu, hruns, h out hout⟩

lemma Computes.emitted {α : Type} {m : Lower α} {G : α → Facts U128}
    (h : Computes float program options block pc F m G) {X : Stop σ → Prop} {M : σ → Prop} {a : α}
    (hok : (emitter float program options block).Ok b) (hm : m b = some (a, b')) :
    (emitter float program options block).Emitted Body X b b' (On F M) (On (F ⊓ G a) M) :=
  (h X M b a b' hok hm).conseq (fun _ hnode => hnode.2) (fun _ hX => hX) (fun _ _ hP => hP)
    fun _ _ hQ => hQ

section Instructions

variable (hmemory : ∀ interface, options.memory = some interface → Represents guest R interface)
  {lift : LiftOptions} {restart : Lower.Restart} {state' : StateMap}
  (hok : (emitter float program options block).Ok b)
  (hlower : Lower.lowerNonBranch lift state word pc restart b = some (state', b'))
  (hfollowed : isFollowed word = true)
include hmemory hok hlower hfollowed

/-- The nodes of an instruction are at its address. -/
lemma lowerNonBranch_emits (input : Cpu μ) : (emitter float program options block).Emitted
    (NodeAt pc) (fun _ => True) b b' (fun _ _ => False) fun _ _ => True := by
  let blank : Cpu μ := { input with pc := restart.resumePc, gpr := fun _ => 0 }
  have hready : Ready block pc state blank (⊥ : Facts U128) := ⟨bot_le, bot_le⟩
  have hrestart : Restarts restart blank (⊥ : Facts U128) := ⟨bot_le, rfl, rfl⟩
  exact (lowerNonBranch_triple hmemory hready hrestart rfl hfollowed b state' b' hok hlower).conseq (fun _ h => h)
      (fun _ _ => trivial) (fun _ _ h => h.elim) fun _ _ _ => trivial

end Instructions

/-- The nodes of an instruction outside delay slots. -/
lemma lowerInstruction_triple
    (hmemory : ∀ interface, options.memory = some interface → Represents guest R interface)
    (hlive : Unskipped block pc) {lift : LiftOptions} {rawCycles : ℕ}
    (hfetch : fetch pc = some word) (hfollowed : isFollowed word = true) :
    (emitter float program options block).Triple Body (Halts guest fetch R input)
      (At guest fetch R input state pc)
      (Lower.lowerNonBranch lift state word pc ⟨state, pc, rawCycles⟩)
      fun state' => At guest fetch R input state' (pc + 4) := by
  intro b state' b' hok hlower
  refine Emitter.Emitted.exists_of ((lowerNonBranch_emits hmemory hok hlower hfollowed input).conseq
    (fun _ h => h.2) (fun _ h => h) (fun _ _ h => h) fun _ _ h => h) fun cpu hcpu => ?_
  obtain ⟨hruns, rfl, hzero⟩ := hcpu
  have hready : Ready block cpu.pc state (withPc cpu (cpu.pc + 4)) (regs state cpu) :=
    ⟨hlive.le_live, (regs_withPc state cpu _).ge⟩
  have hrestart : Restarts ⟨state, cpu.pc, rawCycles⟩ cpu (regs state cpu) := ⟨le_rfl, rfl, hzero⟩
  refine (lowerNonBranch_triple hmemory hready hrestart rfl hfollowed b
    state' b' hok hlower).conseq (fun _ h => h.2) (halts_of_stops hruns) (fun _ _ h => h) ?_
  rintro n c ⟨cpu', hnext, ⟨hpc, hzero'⟩, hc⟩
  exact ⟨cpu', ⟨hruns.tail ((unit_of_lowered hlower hfetch).trans hnext), hpc, hzero'.trans hzero⟩,
    hc.imp inf_le_right fun _ hR => hR⟩

lemma lowerBody_triple
    (hmemory : ∀ interface, options.memory = some interface → Represents guest R interface)
    (context : LiftContext) {source : List SourceInstruction} {stop : BitVec 32} {rawCycles : ℕ}
    (hlive : ∀ instruction ∈ source, Unskipped block instruction.pc)
    (h : Sourced fetch source pc stop) :
    (emitter float program options block).Triple Body (Halts guest fetch R input)
      (At guest fetch R input state pc) (context.lowerBody source state rawCycles)
      fun result => At guest fetch R input result.1 stop := by
  induction source generalizing state pc rawCycles with
  | nil => exact Emitter.Triple.pure fun n c hc => h ▸ hc
  | cons instruction rest ih =>
    obtain ⟨⟨hpc, hfetch, hfollowed⟩, hrest⟩ := h
    rw [List.forall_mem_cons] at hlive
    subst hpc
    exact (lowerInstruction_triple hmemory hlive.1 hfetch hfollowed).bind fun _ =>
      ih hlive.2 hrest

/-! ### Terminators -/

section Terminators

variable {context : LiftContext} {raw : RawBlock} {rawCycles : ℕ}
  {blockIndices : BitVec 32 → Option ℕ}

lemma leads_of {transfer : Transfer} {cpu : Cpu μ} {n : ℕ} {c : Configuration σ}
    (hselect : selectTransfer block c.values = transfer) (hruns : ComesTo guest fetch input cpu)
    (hzero : cpu.gpr 0 = 0) (hroutes : Routes blockIndices transfer cpu) (hc : On (F ⊓ publishes transfer cpu) (fun s => R s cpu.memory) n c) :
    Leads guest fetch R input blockIndices block n c :=
  ⟨cpu, ⟨⟨hruns, hzero⟩, hselect ▸ hroutes⟩, hselect ▸ hc.imp inf_le_right fun _ hR => hR⟩

omit pc in
/-- A transfer to a fixed address. -/
lemma makeTransfer_routes {targetPc sourcePc : BitVec 32} {reason : ExitReason} {check : Bool}
    {transfer : Transfer} (h : Lower.makeTransfer blockIndices state targetPc reason sourcePc check b =
      some (transfer, b')) (cpu : Cpu μ) (hpc : targetPc = cpu.pc) :
    Routes blockIndices transfer cpu := by
  obtain ⟨id, b₁, -, h⟩ := Emitter.Triple.bind_inv h
  cases h
  exact fun _ htarget => hpc ▸ htarget

/-- A transfer to another address than the registers are at. -/
lemma makeTransfer_withPc {targetPc : BitVec 32} (hlive : F ≤ live block pc)
    (hregs : F ≤ regs state cpu) (reason : ExitReason) (check : Bool) :
    Computes float program options block pc F
      (Lower.makeTransfer blockIndices state targetPc reason pc check)
      fun transfer => publishes transfer (withPc cpu targetPc) :=
  makeTransfer_computes hlive ((regs_withPc state cpu targetPc).symm ▸ hregs) rfl reason check

lemma unskipped_of_kind (h : block.terminator.kind ≠ .branch) : Unskipped block pc :=
  fun hkind => absurd hkind h

/-- A transfer that is always chosen. -/
lemma taken_emitted {transfer : Transfer} (hselect : ∀ v, selectTransfer block v = transfer)
    (hroutes : ∀ cpu : Cpu μ, pc = cpu.pc → Routes blockIndices transfer cpu)
    (h : ∀ (F : Facts U128) (cpu : Cpu μ), F ≤ regs state cpu → pc = cpu.pc →
      (emitter float program options block).Emitted Body (Halts guest fetch R input) b b'
        (On F fun s => R s cpu.memory) (On (F ⊓ publishes transfer cpu) fun s => R s cpu.memory)) :
    (emitter float program options block).Emitted Body (Halts guest fetch R input) b b'
      (At guest fetch R input state pc) (Leads guest fetch R input blockIndices block) := by
  refine Emitter.Emitted.exists_of (h ⊥ (withPc input pc) bot_le rfl) fun cpu hcpu => ?_
  exact (h _ cpu le_rfl hcpu.2.1.symm).post fun n c hc =>
    leads_of (hselect _) hcpu.1 hcpu.2.2 (hroutes _ hcpu.2.1.symm) hc

/-- The end of a block without control. -/
lemma lowerFallthrough_emitted (hok : (emitter float program options block).Ok b)
    (hlower : context.lowerFallthrough raw state b = some (block.terminator, b')) :
    (emitter float program options block).Emitted Body (Halts guest fetch R input) b b'
      (At guest fetch R input state raw.transferPc) (Leads guest fetch R input context.blockIndices block) := by
  unfold LiftContext.lowerFallthrough at hlower
  split at hlower
  · obtain ⟨state', b₁, hadvance, hlower⟩ := Emitter.Triple.bind_inv hlower
    obtain ⟨taken, b₂, htaken, h⟩ := Emitter.Triple.bind_inv hlower
    obtain ⟨hterminator, rfl⟩ := Prod.mk.inj (Option.some.inj h)
    have hkind : block.terminator.kind ≠ .branch := by
      rw [← hterminator]
      exact TerminatorKind.noConfusion
    have hselect : ∀ v, selectTransfer block v = taken := fun v => by
      rw [selectTransfer, ← hterminator]
    refine taken_emitted hselect (makeTransfer_routes htaken) fun F cpu hregs hpc => ?_
    have hfirst := (advanceCycles_computes ⟨(unskipped_of_kind hkind).le_live, hregs⟩ _).emitted
        (X := Halts guest fetch R input) (M := fun s => R s cpu.memory) hok hadvance
    exact (hfirst.trans ((makeTransfer_computes (unskipped_of_kind hkind).le_live inf_le_right hpc
      _ _).emitted hfirst.ok htaken)).post fun n c hc =>
        hc.imp (inf_le_inf_right _ inf_le_left) fun _ h => h
  · obtain ⟨taken, b₁, htaken, h⟩ := Emitter.Triple.bind_inv hlower
    obtain ⟨hterminator, rfl⟩ := Prod.mk.inj (Option.some.inj h)
    have hkind : block.terminator.kind ≠ .branch := by
      rw [← hterminator]
      exact TerminatorKind.noConfusion
    have hexternal : taken.targetBlock = none := by
      obtain ⟨id, b₂, -, htaken⟩ := Emitter.Triple.bind_inv htaken
      cases htaken
      rfl
    have hselect : ∀ v, selectTransfer block v = taken := fun v => by
      rw [selectTransfer, ← hterminator]
    exact taken_emitted hselect
      (fun _ _ _ htarget => by rw [hexternal] at htarget; cases htarget) fun F cpu hregs hpc =>
        (makeDeferred_computes (unskipped_of_kind hkind).le_live hregs hpc _ _).emitted hok htaken

variable (guest fetch R blockIndices) in
/-- The transfer that is chosen publishes the state behind one step of the interpreter. -/
def Transfers (block : Block) (cpu : Cpu μ) (n : ℕ) (c : Configuration σ) : Prop :=
  ∃ cpu', ((R5900.unit guest fetch cpu = some cpu' ∧ cpu'.gpr 0 = 0) ∧
      Routes blockIndices (selectTransfer block c.values) cpu') ∧
    On (publishes (selectTransfer block c.values) cpu') (fun s => R s cpu'.memory) n c

/-- The nodes of a control instruction, for each state it may start from. -/
lemma control_emitted
    (h : ∀ cpu : Cpu μ, cpu.pc = pc → cpu.gpr 0 = 0 →
      (emitter float program options block).Emitted Body (Stops R cpu) b b'
        (On (regs state cpu) fun s => R s cpu.memory) (Transfers guest fetch R blockIndices block cpu)) :
    (emitter float program options block).Emitted Body (Halts guest fetch R input) b b'
      (At guest fetch R input state pc) (Leads guest fetch R input blockIndices block) := by
  let blank : Cpu μ := { input with pc := pc, gpr := fun _ => 0 }
  refine Emitter.Emitted.exists_of (h blank rfl rfl) fun cpu hcpu => ?_
  obtain ⟨hruns, hpc, hzero⟩ := hcpu
  refine (h cpu hpc hzero).conseq (fun _ h => h) (halts_of_stops hruns) (fun _ _ h => h) ?_
  rintro n c ⟨cpu', ⟨⟨hunit, hzero'⟩, hroutes⟩, hc⟩
  exact ⟨cpu', ⟨⟨hruns.tail hunit, hzero'⟩, hroutes⟩, hc⟩

section Control

variable (hmemory : ∀ interface, options.memory = some interface → Represents guest R interface)
include hmemory

/-- The delay slot of a control instruction that leaves the registers of `slot`. -/
lemma lowerDelay_emitted {slot : Cpu μ} {lift : LiftOptions} {restart : Lower.Restart}
    {delay : SourceInstruction} {state' : StateMap}
    (hdelay : Sourced fetch [delay] (cpu.pc + 4) (cpu.pc + 8)) (hlive : F ≤ live block delay.pc)
    (hrestart : Restarts restart cpu F) (hslot : Keeps cpu slot) (hregs : F ≤ regs state slot)
    (hok : (emitter float program options block).Ok b)
    (hlower : Lower.lowerNonBranch lift state delay.opcode delay.pc restart b = some (state', b')) :
    (emitter float program options block).Emitted Body (Stops R cpu) b b'
      (On F fun s => R s cpu.memory)
      fun n c => ∃ cpu', (R5900.execI guest fetch (withPc slot (cpu.pc + 4)) = some cpu' ∧
          cpu'.pc = cpu.pc + 8 ∧ cpu'.gpr 0 = 0) ∧
        On (F ⊓ regs state' cpu') (fun s => R s cpu'.memory) n c := by
  obtain ⟨⟨-, hfetch, hfollowed⟩, hstop⟩ := hdelay
  have hready : Ready block delay.pc state (withPc slot (cpu.pc + 4 + 4)) F :=
    ⟨hlive, regs_withPc state slot _ ▸ hregs⟩
  refine (lowerNonBranch_triple hmemory hready hrestart hslot.memory.symm hfollowed b state' b' hok
    hlower).conseq (fun _ h => h.2) (fun _ h => h) (fun _ _ h => h.imp le_rfl fun _ hR => ?_) ?_
  · exact (congrArg (R _) hslot.memory).mpr hR
  · rintro n c ⟨cpu', hnext, ⟨hpc, hzero⟩, hc⟩
    have hexec : R5900.execI guest fetch (withPc slot (cpu.pc + 4)) = some cpu' := by
      rw [R5900.execI, show (withPc slot (cpu.pc + 4)).pc = cpu.pc + 4 from rfl, hfetch,
        Option.bind_some]
      exact hnext
    exact ⟨cpu', ⟨hexec, hpc.trans hstop, hzero.trans (hslot.zero.trans hrestart.zero)⟩, hc⟩

/-- J and JAL. -/
lemma lowerStaticJump_emitted (hfetched : raw.Fetched fetch)
    (hcontrol : raw.controlKind = .staticJump) (hok : (emitter float program options block).Ok b)
    (hlower : context.lowerStaticJump raw state rawCycles b = some (block.terminator, b')) :
    (emitter float program options block).Emitted Body (Halts guest fetch R input) b b'
      (At guest fetch R input state raw.branchPc) (Leads guest fetch R input context.blockIndices block) := by
  have hne : raw.controlKind ≠ .none := hcontrol ▸ RawControlKind.noConfusion
  have hjump : isStaticJump raw.branchOpcode = true := by
    have := hfetched.accepts
    rwa [hcontrol] at this
  unfold LiftContext.lowerStaticJump at hlower
  obtain ⟨linkedState, b₁, hlink, hlower⟩ := Emitter.Triple.bind_inv hlower
  obtain ⟨delayed, b₂, hdelayed, hlower⟩ := Emitter.Triple.bind_inv hlower
  obtain ⟨takenState, b₃, hadvance, hlower⟩ := Emitter.Triple.bind_inv hlower
  obtain ⟨taken, b₄, htaken, h⟩ := Emitter.Triple.bind_inv hlower
  obtain ⟨hterminator, rfl⟩ := Prod.mk.inj (Option.some.inj h)
  have hkind : block.terminator.kind ≠ .branch := by
    rw [← hterminator]
    exact TerminatorKind.noConfusion
  have hselect : ∀ v, selectTransfer block v = taken := fun v => by
    rw [selectTransfer, ← hterminator]
  refine control_emitted fun cpu hpc hzero => ?_
  have hfirst := (lowerLink_computes
    ⟨(unskipped_of_kind hkind).le_live, le_refl (regs state cpu)⟩).emitted (X := Stops R cpu)
      (M := fun s => R s cpu.memory) hok hlink
  have hslot := lowerDelay_emitted hmemory (hpc ▸ hfetched.delay hne)
    (unskipped_of_kind hkind).le_live ⟨inf_le_left, hpc.symm, hzero⟩ (linked_keeps raw.branchOpcode raw.branchPc cpu)
    inf_le_right hfirst.ok hdelayed
  have hlast : ∀ (F : Facts U128) (cpu' : Cpu μ), F ≤ regs delayed cpu' →
      (emitter float program options block).Emitted Body (Stops R cpu) b₂ b₄
        (On F fun s => R s cpu'.memory)
        (On (publishes taken (withPc cpu' (jumpTarget raw.branchPc raw.branchOpcode)))
          fun s => R s cpu'.memory) := fun F cpu' hregs => by
    have hadvanced := (advanceCycles_computes ⟨(unskipped_of_kind hkind).le_live, hregs⟩ _).emitted
        (X := Stops R cpu) (M := fun s => R s cpu'.memory) hslot.ok hadvance
    exact (hadvanced.trans ((makeTransfer_withPc (unskipped_of_kind hkind).le_live
      inf_le_right _ _).emitted hadvanced.ok htaken)).post
        fun n c hc => hc.imp inf_le_right fun _ h => h
  refine (hfirst.trans hslot).trans (Emitter.Emitted.exists_of (hlast ⊥ cpu bot_le)
    fun cpu' hcpu' => (hlast _ cpu' inf_le_right).post fun n c hc => ?_)
  obtain ⟨hexec, -, hzero'⟩ := hcpu'
  refine ⟨withPc cpu' (jumpTarget raw.branchPc raw.branchOpcode), ⟨⟨?_, hzero'⟩, ?_⟩,
    hselect _ ▸ hc⟩
  rotate_left
  · exact hselect _ ▸ makeTransfer_routes htaken _ rfl
  rw [unit_staticJump hjump (hpc ▸ hfetched.branch hne), R5900.doBranch, hpc]
  rw [hpc] at hexec
  rw [hexec]
  rfl

/-- JR and JALR. -/
lemma lowerRegisterJump_emitted {parameters : StateMap} (hfetched : raw.Fetched fetch)
    (hcontrol : raw.controlKind = .registerJump) (hok : (emitter float program options block).Ok b)
    (hlower : context.lowerRegisterJump raw parameters state rawCycles b =
      some (block.terminator, b')) :
    (emitter float program options block).Emitted Body (Halts guest fetch R input) b b'
      (At guest fetch R input state raw.branchPc) (Leads guest fetch R input context.blockIndices block) := by
  have hne : raw.controlKind ≠ .none := hcontrol ▸ RawControlKind.noConfusion
  have hjump : isRegisterJump raw.branchOpcode = true := by
    have := hfetched.accepts
    rwa [hcontrol] at this
  unfold LiftContext.lowerRegisterJump at hlower
  obtain ⟨low, b₁, hlow, hlower⟩ := Emitter.Triple.bind_inv hlower
  obtain ⟨target, b₂, htarget, hlower⟩ := Emitter.Triple.bind_inv hlower
  obtain ⟨linkedState, b₃, hlink, hlower⟩ := Emitter.Triple.bind_inv hlower
  obtain ⟨delayed, b₄, hdelayed, hlower⟩ := Emitter.Triple.bind_inv hlower
  obtain ⟨takenState, b₅, hadvance, hlower⟩ := Emitter.Triple.bind_inv hlower
  obtain ⟨targets, b₆, htargets, h⟩ := Emitter.Triple.bind_inv hlower
  obtain ⟨targets, hreturns, htargets⟩ := Option.bind_eq_some_iff.mp htargets
  cases htargets
  obtain ⟨hterminator, rfl⟩ := Prod.mk.inj (Option.some.inj h)
  have hkind : block.terminator.kind ≠ .branch := by
    rw [← hterminator]
    exact TerminatorKind.noConfusion
  have hselect : ∀ v, ((selectTransfer block v).state = takenState ∧
      (selectTransfer block v).pc = target) ∧
      ∀ found, (selectTransfer block v).targetBlock = some found →
        context.blockIndices ((v target).lo.setWidth 32) = some found := fun v => by
    rw [selectTransfer, ← hterminator]
    dsimp only
    cases hfind : List.find? _ targets with
    | none => exact ⟨⟨rfl, rfl⟩, fun _ h => by cases h⟩
    | some transfer =>
      obtain ⟨hpublished, htarget⟩ :=
        mem_returnTargets hreturns (List.mem_of_find?_eq_some hfind)
      have hproven := List.find?_some hfind
      rw [Bool.and_eq_true, beq_iff_eq] at hproven
      exact ⟨hpublished, fun found hfound => hproven.2 ▸ htarget ▸ hfound⟩
  refine control_emitted fun cpu hpc hzero => ?_
  have hready : Ready block raw.branchPc state cpu (regs state cpu) :=
    ⟨(unskipped_of_kind hkind).le_live, le_rfl⟩
  have hread := (low32_computes hready
    _).emitted (X := Stops R cpu) (M := fun s => R s cpu.memory) hok hlow
  have haddress := (unary_computes
    (x := bits32 (cpu.ul (rs raw.branchOpcode))) (w := bits32 (cpu.ul (rs raw.branchOpcode)))
    hready.inf.live rfl inf_le_right
      fun v node hop hx => by simp only [evaluate, hop, hx, bits32_lo_setWidth]).emitted
        (X := Stops R cpu) (M := fun s => R s cpu.memory) hread.ok htarget
  let read : Facts U128 :=
    regs state cpu ⊓ Facts.known low (bits32 (cpu.ul (rs raw.branchOpcode))) ⊓
      Facts.known target (bits32 (cpu.ul (rs raw.branchOpcode)))
  have hread' : Ready block raw.branchPc state cpu read := hready.inf.inf
  have hfirst := (lowerLink_computes
    hread').emitted (X := Stops R cpu) (M := fun s => R s cpu.memory) haddress.ok hlink
  have hslot := lowerDelay_emitted hmemory (hpc ▸ hfetched.delay hne)
    (unskipped_of_kind hkind).le_live ⟨inf_le_of_left_le hread'.regs, hpc.symm, hzero⟩
    (linked_keeps raw.branchOpcode raw.branchPc cpu) inf_le_right hfirst.ok hdelayed
  have hlast : ∀ (F : Facts U128) (cpu' : Cpu μ), F ≤ regs delayed cpu' →
      F ≤ Facts.known target (bits32 (cpu.ul (rs raw.branchOpcode))) →
      (emitter float program options block).Emitted Body (Stops R cpu) b₄ b₅
        (On F fun s => R s cpu'.memory)
        (On (regs takenState cpu' ⊓ Facts.known target (bits32 (cpu.ul (rs raw.branchOpcode))))
          fun s => R s cpu'.memory) := fun F cpu' hregs hknown =>
    ((advanceCycles_computes ⟨(unskipped_of_kind hkind).le_live, hregs⟩ _).emitted hslot.ok
      hadvance).post fun n c hc =>
        hc.imp (le_inf inf_le_right (inf_le_of_left_le hknown)) fun _ h => h
  refine (((hread.trans haddress).trans hfirst).trans hslot).trans
    (Emitter.Emitted.exists_of (hlast ⊥ cpu bot_le bot_le) fun cpu' hcpu' =>
      (hlast (read ⊓ regs linkedState _ ⊓ regs delayed cpu') cpu' inf_le_right
        (inf_le_of_left_le (inf_le_of_left_le inf_le_right))).post fun n c hc => ?_)
  obtain ⟨hexec, -, hzero'⟩ := hcpu'
  refine ⟨withPc cpu' (cpu.ul (rs raw.branchOpcode)), ⟨⟨?_, hzero'⟩, ?_⟩, ?_⟩
  rotate_left
  · intro found hfound
    have htarget := (hselect c.values).2 found hfound
    rwa [hc.1.2.2, bits32_lo_setWidth] at htarget
  rotate_left
  · rw [unit_registerJump hjump (hpc ▸ hfetched.branch hne), R5900.doBranch, hpc]
    rw [hpc] at hexec
    rw [hexec]
    rfl
  · rw [publishes, (hselect _).1.1, (hselect _).1.2, regs_withPc]
    exact hc

/-! A conditional branch tests, links, and goes on with its slot, which a likely branch skips
when it is not taken. -/

omit hmemory in
lemma primary_of_lowerBranchCondition {r : ValueId × Builder}
    (h : Lower.lowerBranchCondition state word pc b = some r) : primary word ≠ 0x11 := by
  intro hprimary
  obtain ⟨condition, b'⟩ := r
  obtain ⟨left, b₁, -, h⟩ := Emitter.Triple.bind_inv h
  rw [hprimary] at h
  cases h

omit hmemory in
lemma selectTransfer_branch {v : ValueId → U128} {taken : Bool}
    (hkind : block.terminator.kind = .branch)
    (hcondition : v block.terminator.condition = bitsOfBool taken) :
    selectTransfer block v =
      if taken then block.terminator.taken else block.terminator.notTaken := by
  simp only [selectTransfer, hkind, hcondition]
  cases taken <;> rfl

variable (block) in
/-- The nodes at an address are skipped. -/
def skipped (pc : BitVec 32) : Facts U128 where
  holds n v := (block.terminator.kind = .branch ∧ block.terminator.likely = true ∧
      pc = block.terminator.delaySlotPc) ∧
    block.terminator.condition < n ∧ (v block.terminator.condition).lo = 0
  mono hn hv h := ⟨h.1, h.2.1.trans_le hn, by rw [hv _ h.2.1, h.2.2]⟩

omit hmemory in
/-- Nodes that are skipped leave everything as it is. -/
lemma skip_emitted {X X' : Stop σ → Prop} {M : σ → Prop} {P Q : ℕ → Configuration σ → Prop}
    (h : (emitter float program options block).Emitted (NodeAt pc) X' b b' P Q)
    (hskip : F ≤ skipped block pc) :
    (emitter float program options block).Emitted Body X b b' (On F M) (On F M) := by
  let kept (c : Configuration σ) : Prop :=
    F.holds ((emitter float program options block).next b) c.values ∧ M c.memory
  have hstay : ∀ node c, NodeAt pc node → kept c →
      Ends X kept ((emitter float program options block).exec node c) := fun node c hnode hc => by
    obtain ⟨⟨hkind, hlikely, hpc⟩, -, hzero⟩ := hskip _ _ hc.1
    have hannulled : annulled block c.values node = true := by
      simp [annulled, hkind, hlikely, hnode.2, hnode.1, hpc, hzero]
    show Ends X _ (nodeOutcome float program options block node c)
    rw [nodeOutcome, executeNode, if_pos hannulled]
    exact hc
  have hkeep := h.keep hstay
  obtain ⟨new, hnodes, hnew, hrun⟩ := hkeep.emits
  exact ⟨h.le, h.kept, h.ok, new, hnodes, fun node hnode => (hnew node hnode).2,
    fun hfinal c hc => (hrun hfinal c hc).imp (fun _ h => h) fun c' hc' =>
      ⟨F.mono h.le (fun _ _ => rfl) hc'.1, hc'.2⟩⟩

section Branch

variable {condition : ValueId} {linkedState delayed takenState : StateMap}
  {taken notTaken : Transfer} {b₁ b₂ b₃ b₄ b₅ b₆ : Builder}

/-- The registers, the condition and the link. -/
def tested (state : StateMap) (condition : ValueId) (linkedState : StateMap) (word : BitVec 32)
    (cpu : Cpu μ) : Facts U128 :=
  regs state cpu ⊓ Facts.known condition (bitsOfBool (branchTaken word cpu)) ⊓
    regs linkedState (linked word cpu.pc cpu)

omit hmemory in
lemma tested_emitted {X : Stop σ → Prop} (hlive : Unskipped block cpu.pc)
    (hok : (emitter float program options block).Ok b)
    (hcondition : Lower.lowerBranchCondition state word cpu.pc b = some (condition, b₁))
    (hlink : LiftContext.lowerLink state word cpu.pc b₁ = some (linkedState, b₂)) :
    (emitter float program options block).Emitted Body X b b₂
      (On (regs state cpu) fun s => R s cpu.memory)
      (On (tested state condition linkedState word cpu) fun s => R s cpu.memory) := by
  have hready : Ready block cpu.pc state cpu (regs state cpu) := ⟨hlive.le_live, le_rfl⟩
  have hread := (lowerBranchCondition_computes hready).emitted (X := X) (M := fun s => R s cpu.memory) hok hcondition
  exact hread.trans ((lowerLink_computes hready.inf).emitted hread.ok hlink)

section Slot

variable {lift : LiftOptions} {delay : SourceInstruction} {cycles : ℕ}
  (hzero : cpu.gpr 0 = 0) (hdelay : Sourced fetch [delay] (cpu.pc + 4) (cpu.pc + 8))
  (hok : (emitter float program options block).Ok b₂)
  (hdelayed : Lower.lowerNonBranch lift linkedState delay.opcode delay.pc
    ⟨state, cpu.pc, rawCycles⟩ b₂ = some (delayed, b₃))
  (hadvance : Lower.advanceCycles delayed cycles delay.pc b₃ = some (takenState, b₄))
include hzero hdelay hok hdelayed hadvance

/-- The slot of a branch that is taken or not likely, and the exits behind it. -/
lemma slot_emitted (hlive : tested state condition linkedState word cpu ≤ live block delay.pc)
    {G : Cpu μ → Facts U128} {Q : ℕ → Configuration σ → Prop}
    (hexits : ∀ (F : Facts U128) (cpu' : Cpu μ), (emitter float program options block).Ok b₄ →
      F ≤ tested state condition linkedState word cpu → F ≤ regs takenState cpu' →
      (emitter float program options block).Emitted Body (Stops R cpu) b₄ b₅
        (On F fun s => R s cpu'.memory) (On (F ⊓ G cpu') fun s => R s cpu'.memory))
    (hQ : ∀ cpu' n c,
      R5900.execI guest fetch (withPc (linked word cpu.pc cpu) (cpu.pc + 4)) = some cpu' →
      cpu'.pc = cpu.pc + 8 → cpu'.gpr 0 = 0 →
      On (tested state condition linkedState word cpu ⊓ G cpu') (fun s => R s cpu'.memory) n c →
        Q n c) :
    (emitter float program options block).Emitted Body (Stops R cpu) b₂ b₅
      (On (tested state condition linkedState word cpu) fun s => R s cpu.memory) Q := by
  have hslot := lowerDelay_emitted hmemory hdelay hlive
    ⟨inf_le_of_left_le inf_le_left, rfl, hzero⟩ (linked_keeps word cpu.pc cpu) inf_le_right hok
    hdelayed
  have hlast : ∀ (F : Facts U128) (cpu' : Cpu μ), F ≤ tested state condition linkedState word cpu →
      F ≤ regs delayed cpu' →
      (emitter float program options block).Emitted Body (Stops R cpu) b₃ b₅
        (On F fun s => R s cpu'.memory) (On (F ⊓ G cpu') fun s => R s cpu'.memory) := by
    intro F cpu' htested hregs
    have hadvanced := (advanceCycles_computes ⟨htested.trans hlive, hregs⟩ _).emitted (X := Stops R cpu)
        (M := fun s => R s cpu'.memory) hslot.ok hadvance
    exact (hadvanced.trans (hexits _ cpu' hadvanced.ok (inf_le_of_left_le htested)
      inf_le_right)).post fun n c hc => hc.imp (inf_le_inf_right _ inf_le_left) fun _ h => h
  refine hslot.trans (Emitter.Emitted.exists_of (hlast ⊥ cpu bot_le bot_le) fun cpu' hcpu' =>
    (hlast _ cpu' inf_le_left inf_le_right).post fun n c hc => ?_)
  exact hQ cpu' n c hcpu'.1 hcpu'.2.1 hcpu'.2.2 (hc.imp (inf_le_inf_right _ inf_le_left) fun _ h => h)

end Slot

section Exits

variable {lift : LiftOptions} {delay : SourceInstruction}
  {cycles cycles' : ℕ} {reason : ExitReason} {check : Bool} {notTakenState : StateMap}

variable (hfetch : fetch cpu.pc = some word) (hbranch : isConditionalBranch word = true)
  (hinteger : primary word ≠ 0x11) (hzero : cpu.gpr 0 = 0)
  (hdelay : Sourced fetch [delay] (cpu.pc + 4) (cpu.pc + 8))
  (hkind : block.terminator.kind = .branch) (hlikely : block.terminator.likely = isLikelyBranch word)
  (hok : (emitter float program options block).Ok b₂)
  (hdelayed : Lower.lowerNonBranch lift linkedState delay.opcode delay.pc
    ⟨state, cpu.pc, rawCycles⟩ b₂ = some (delayed, b₃))
  (hadvance : Lower.advanceCycles delayed cycles delay.pc b₃ = some (takenState, b₄))
include hfetch hbranch hinteger hzero hdelay hkind hlikely hok hdelayed hadvance

omit hmemory hzero hdelay hok hdelayed hadvance hlikely in
/-- The exit of a branch that is taken. -/
lemma transfers_taken (htaken : branchTaken word cpu = true)
    (hroutes : ∀ cpu' : Cpu μ, branchTarget cpu.pc word = cpu'.pc →
      Routes blockIndices block.terminator.taken cpu') {cpu' : Cpu μ}
    (hexec : R5900.execI guest fetch (withPc (linked word cpu.pc cpu) (cpu.pc + 4)) = some cpu')
    (hzero : cpu'.gpr 0 = 0) {n : ℕ} {c : Configuration σ}
    (hc : On (tested state block.terminator.condition linkedState word cpu ⊓
      publishes block.terminator.taken (withPc cpu' (branchTarget cpu.pc word)))
      (fun s => R s cpu'.memory) n c) : Transfers guest fetch R blockIndices block cpu n c := by
  have hselect : selectTransfer block c.values = block.terminator.taken := by
    have hvalue := hc.1.1.1.2.2
    rw [htaken] at hvalue
    rw [selectTransfer_branch hkind hvalue, if_pos rfl]
  refine ⟨withPc cpu' (branchTarget cpu.pc word), ⟨⟨?_, hzero⟩, hselect ▸ hroutes _ rfl⟩, ?_⟩
  · rw [unit_branch hbranch hinteger hfetch, htaken, R5900.branch, if_pos rfl, R5900.doBranch,
      hexec, branchTarget_eq cpu.pc word _ rfl]
    rfl
  · rw [hselect]
    exact hc.imp inf_le_right fun _ h => h

/-- A branch that is not likely. -/
lemma unlikely_emitted (hunlikely : isLikelyBranch word = false)
    (htaken : Lower.makeTransfer blockIndices takenState (branchTarget cpu.pc word) reason delay.pc
      check b₄ = some (block.terminator.taken, b₅))
    (hnotTaken : Lower.makeTransfer blockIndices takenState (cpu.pc + 8) reason delay.pc check b₅ =
      some (block.terminator.notTaken, b₆)) :
    (emitter float program options block).Emitted Body (Stops R cpu) b₂ b₆
      (On (tested state block.terminator.condition linkedState word cpu) fun s => R s cpu.memory)
      (Transfers guest fetch R blockIndices block cpu) := by
  have hlive : Unskipped block delay.pc := fun _ h => by
    rw [hlikely, hunlikely] at h
    cases h
  refine slot_emitted hmemory hzero hdelay hok hdelayed hadvance hlive.le_live
    (G := fun cpu' => publishes block.terminator.taken (withPc cpu' (branchTarget cpu.pc word)) ⊓
      publishes block.terminator.notTaken (withPc cpu' (cpu.pc + 8))) ?_ ?_
  · intro F cpu' hok₄ _ hregs
    have hfirst := (makeTransfer_withPc hlive.le_live hregs _ _).emitted (X := Stops R cpu)
        (M := fun s => R s cpu'.memory) hok₄ htaken
    refine (hfirst.trans ((makeTransfer_withPc hlive.le_live (inf_le_of_left_le hregs)
      _ _).emitted hfirst.ok hnotTaken)).post fun n c hc => hc.imp ?_ fun _ h => h
    rw [inf_assoc]
  · intro cpu' n c hexec hpc hzero' hc
    cases hbool : branchTaken word cpu with
    | true =>
      exact transfers_taken hfetch hbranch hinteger hkind hbool (makeTransfer_routes htaken) hexec
        hzero'
        (hc.imp (inf_le_inf_left _ inf_le_left) fun _ h => h)
    | false =>
      have hselect : selectTransfer block c.values = block.terminator.notTaken := by
        have hvalue := hc.1.1.1.2.2
        rw [hbool] at hvalue
        rw [selectTransfer_branch hkind hvalue, if_neg Bool.false_ne_true]
      refine ⟨cpu', ⟨⟨?_, hzero'⟩, hselect ▸ makeTransfer_routes hnotTaken _ hpc.symm⟩, ?_⟩
      · rw [unit_branch hbranch hinteger hfetch, hbool, hunlikely, R5900.branch]
        exact hexec
      · rw [hselect]
        have hsame : withPc cpu' (cpu.pc + 8) = cpu' := by
          rw [← hpc]
          rfl
        rw [hsame] at hc
        exact hc.imp (inf_le_of_right_le inf_le_right) fun _ h => h

section Likely

variable (hlikelyWord : isLikelyBranch word = true) (hslot : block.terminator.delaySlotPc = delay.pc)
  (hadvance' : Lower.advanceCycles linkedState cycles' cpu.pc b₄ = some (notTakenState, b₅))
  (htaken : Lower.makeTransfer blockIndices takenState (branchTarget cpu.pc word) reason delay.pc
    check b₅ = some (block.terminator.taken, b₆))
  (hnotTaken : Lower.makeTransfer blockIndices notTakenState (cpu.pc + 8) reason cpu.pc check b₆ =
    some (block.terminator.notTaken, b'))
include hlikelyWord hslot hadvance' htaken hnotTaken

omit hfetch hbranch hinteger hzero hkind hlikely hok hdelayed hadvance hlikelyWord hadvance' htaken
  hnotTaken hmemory in
lemma unskipped_branch : Unskipped block cpu.pc := fun _ _ h => by
  rw [hslot, hdelay.1.1] at h
  bv_omega

/-- A likely branch that is taken. -/
lemma likely_emitted (hbool : branchTaken word cpu = true) :
    (emitter float program options block).Emitted Body (Stops R cpu) b₂ b'
      (On (tested state block.terminator.condition linkedState word cpu) fun s => R s cpu.memory)
      (Transfers guest fetch R blockIndices block cpu) := by
  have hlive : tested state block.terminator.condition linkedState word cpu ≤ live block delay.pc :=
    fun n v h _ _ _ => ⟨h.1.2.1, by rw [h.1.2.2, hbool]; decide⟩
  have hunskipped : Unskipped block cpu.pc := unskipped_branch hdelay hslot
  refine slot_emitted hmemory hzero hdelay hok hdelayed hadvance hlive
    (G := fun cpu' => publishes block.terminator.taken (withPc cpu' (branchTarget cpu.pc word))) ?_ ?_
  · intro F cpu' hok₄ htested hregs
    have hfirst := (advanceCycles_computes ⟨hunskipped.le_live, htested.trans inf_le_right⟩ _).emitted
        (X := Stops R cpu) (M := fun s => R s cpu'.memory) hok₄ hadvance'
    have hsecond := (makeTransfer_withPc
      (inf_le_of_left_le (b := regs notTakenState (linked word cpu.pc cpu)) (htested.trans hlive))
      (inf_le_of_left_le hregs) _ _).emitted (X := Stops R cpu)
        (M := fun s => R s cpu'.memory) hfirst.ok htaken
    refine ((hfirst.trans hsecond).trans ((makeTransfer_withPc hunskipped.le_live
      (inf_le_of_left_le inf_le_right) _ _).emitted hsecond.ok hnotTaken)).post fun n c hc => hc.imp ?_ fun _ h => h
    exact inf_le_of_left_le (inf_le_inf_right _ inf_le_left)
  · intro cpu' n c hexec _ hzero' hc
    exact transfers_taken hfetch hbranch hinteger hkind hbool (makeTransfer_routes htaken) hexec
      hzero' hc

/-- A likely branch that is not taken. -/
lemma skipped_emitted (hfollowed : isFollowed delay.opcode = true)
    (hbool : branchTaken word cpu = false) :
    (emitter float program options block).Emitted Body (Stops R cpu) b₂ b'
      (On (tested state block.terminator.condition linkedState word cpu) fun s => R s cpu.memory)
      (Transfers guest fetch R blockIndices block cpu) := by
  have hunskipped : Unskipped block cpu.pc := unskipped_branch hdelay hslot
  have hskip : tested state block.terminator.condition linkedState word cpu ≤
      skipped block delay.pc := fun n v h =>
    ⟨⟨hkind, hlikely.trans hlikelyWord, hslot.symm⟩, h.1.2.1, by rw [h.1.2.2, hbool]; rfl⟩
  have hslotSkipped := skip_emitted (X := Stops R cpu) (M := fun s => R s cpu.memory)
    (lowerNonBranch_emits hmemory hok hdelayed hfollowed cpu) hskip
  have hbottom : Ready block delay.pc delayed cpu (⊥ : Facts U128) := ⟨bot_le, bot_le⟩
  have hadvanceSkipped := skip_emitted (X := Stops R cpu) (M := fun s => R s cpu.memory)
    (advanceCycles_computes hbottom _ (fun _ => True) (fun _ => True) _ _ _
      hslotSkipped.ok hadvance) hskip
  have hadvanced := (advanceCycles_computes ⟨hunskipped.le_live, le_refl (tested state block.terminator.condition
      linkedState word cpu) |>.trans inf_le_right⟩ _).emitted (X := Stops R cpu)
        (M := fun s => R s cpu.memory) hadvanceSkipped.ok hadvance'
  have htakenSkipped := skip_emitted (X := Stops R cpu) (M := fun s => R s cpu.memory)
    (makeTransfer_withPc hbottom.live (bot_le : ⊥ ≤ regs takenState cpu) _ _
      (fun _ => True) (fun _ => True) _ _ _ hadvanced.ok htaken)
    (inf_le_of_left_le (b := regs notTakenState (linked word cpu.pc cpu)) hskip)
  refine ((((hslotSkipped.trans hadvanceSkipped).trans hadvanced).trans htakenSkipped).trans
    ((makeTransfer_withPc hunskipped.le_live inf_le_right _ _).emitted htakenSkipped.ok hnotTaken)).post fun n c hc => ?_
  have hselect : selectTransfer block c.values = block.terminator.notTaken := by
    have hvalue := hc.1.1.1.1.2.2
    rw [hbool] at hvalue
    rw [selectTransfer_branch hkind hvalue, if_neg Bool.false_ne_true]
  refine ⟨withPc (linked word cpu.pc cpu) (cpu.pc + 8),
    ⟨⟨?_, ?_⟩, hselect ▸ makeTransfer_routes hnotTaken _ rfl⟩, ?_⟩
  · rw [unit_branch hbranch hinteger hfetch, hbool, hlikelyWord, R5900.branch,
      if_neg Bool.false_ne_true, if_pos rfl]
    rw [← hdelay.2]
    rfl
  · exact (linked_keeps word cpu.pc cpu).zero.trans hzero
  · rw [hselect]
    exact hc.imp inf_le_right fun _ h => (congrArg (R _) (linked_keeps word cpu.pc cpu).memory).mpr h

end Likely

end Exits

end Branch

/-- The conditional branches. -/
lemma lowerConditionalBranch_emitted (hfetched : raw.Fetched fetch)
    (hcontrol : raw.controlKind = .conditionalBranch)
    (hok : (emitter float program options block).Ok b)
    (hlower : context.lowerConditionalBranch raw state rawCycles b =
      some (block.terminator, b')) :
    (emitter float program options block).Emitted Body (Halts guest fetch R input) b b'
      (At guest fetch R input state raw.branchPc) (Leads guest fetch R input context.blockIndices block) := by
  have hne : raw.controlKind ≠ .none := hcontrol ▸ RawControlKind.noConfusion
  have hbranch : isConditionalBranch raw.branchOpcode = true := by
    have := hfetched.accepts
    rwa [hcontrol] at this
  have hfetch := hfetched.branch hne
  have hdelay := hfetched.delay hne
  unfold LiftContext.lowerConditionalBranch at hlower
  obtain ⟨condition, b₁, hcondition, hlower⟩ := Emitter.Triple.bind_inv hlower
  obtain ⟨linkedState, b₂, hlink, hlower⟩ := Emitter.Triple.bind_inv hlower
  obtain ⟨delayed, b₃, hdelayed, hlower⟩ := Emitter.Triple.bind_inv hlower
  obtain ⟨takenState, b₄, hadvance, hlower⟩ := Emitter.Triple.bind_inv hlower
  have hinteger := primary_of_lowerBranchCondition hcondition
  refine control_emitted fun cpu hpc hzero => ?_
  rw [← hpc] at hfetch hdelay hcondition hlink hdelayed
  split at hlower
  next hlikely =>
    obtain ⟨notTakenState, b₅, hadvance', hlower⟩ := Emitter.Triple.bind_inv hlower
    obtain ⟨taken, b₆, htaken, hlower⟩ := Emitter.Triple.bind_inv hlower
    obtain ⟨notTaken, b₇, hnotTaken, h⟩ := Emitter.Triple.bind_inv hlower
    obtain ⟨hterminator, rfl⟩ := Prod.mk.inj (Option.some.inj h)
    rw [← hpc] at hadvance' htaken hnotTaken
    have hkind : block.terminator.kind = .branch := by rw [← hterminator]
    have hslot : block.terminator.delaySlotPc = raw.delay.pc := by rw [← hterminator]
    have hfirst := tested_emitted (R := R)
      (X := Stops R cpu) (unskipped_branch hdelay hslot) hok hcondition hlink
    obtain rfl : condition = block.terminator.condition := by rw [← hterminator]
    obtain rfl : taken = block.terminator.taken := by rw [← hterminator]
    obtain rfl : notTaken = block.terminator.notTaken := by rw [← hterminator]
    have hsame : block.terminator.likely = isLikelyBranch raw.branchOpcode := by rw [← hterminator]
    cases hbool : branchTaken raw.branchOpcode cpu with
    | true =>
      exact hfirst.trans (likely_emitted hmemory hfetch hbranch hinteger hzero hdelay hkind hsame
        hfirst.ok hdelayed hadvance hlikely hslot hadvance' htaken hnotTaken hbool)
    | false =>
      exact hfirst.trans (skipped_emitted hmemory hfetch hbranch hinteger hzero hdelay hkind hsame
        hfirst.ok hdelayed hadvance hlikely hslot hadvance' htaken hnotTaken hdelay.1.2.2 hbool)
  next hunlikely =>
    obtain ⟨_, _, hpure, hlower⟩ := Emitter.Triple.bind_inv hlower
    cases hpure
    obtain ⟨taken, b₅, htaken, hlower⟩ := Emitter.Triple.bind_inv hlower
    obtain ⟨notTaken, b₆, hnotTaken, h⟩ := Emitter.Triple.bind_inv hlower
    obtain ⟨hterminator, rfl⟩ := Prod.mk.inj (Option.some.inj h)
    rw [← hpc] at htaken hnotTaken
    have hkind : block.terminator.kind = .branch := by rw [← hterminator]
    have hslot : block.terminator.delaySlotPc = raw.delay.pc := by rw [← hterminator]
    have hfirst := tested_emitted (R := R)
      (X := Stops R cpu) (unskipped_branch hdelay hslot) hok hcondition hlink
    obtain rfl : condition = block.terminator.condition := by rw [← hterminator]
    obtain rfl : taken = block.terminator.taken := by rw [← hterminator]
    obtain rfl : notTaken = block.terminator.notTaken := by rw [← hterminator]
    have hsame : block.terminator.likely = isLikelyBranch raw.branchOpcode := by rw [← hterminator]
    exact hfirst.trans (unlikely_emitted hmemory hfetch hbranch hinteger hzero hdelay hkind hsame
      hfirst.ok hdelayed hadvance (Bool.eq_false_iff.mpr hunlikely) htaken hnotTaken)

/-- The nodes of a block follow the interpreter from its first instruction to a transfer. -/
theorem lowerBlock_emitted {base : ValueId} (hfetched : raw.Fetched fetch)
    (hok : (emitter float program options block).Ok b)
    (hlower : context.lowerBlock raw base b = some (block.terminator, b')) :
    (emitter float program options block).Emitted Body (Halts guest fetch R input) b b'
      (At guest fetch R input (parameterMap base) raw.pc) (Leads guest fetch R input context.blockIndices block) := by
  have hlive : ∀ instruction ∈ raw.body, Unskipped block instruction.pc := by
    intro instruction hinstruction hkind _ hpc
    exact hfetched.slot instruction hinstruction (hpc.trans (slot_of_lowerBlock hlower hkind))
  obtain ⟨⟨state, rawCycles⟩, b₁, hbody, hlower⟩ := Emitter.Triple.bind_inv hlower
  have hfirst : (emitter float program options block).Emitted Body (Halts guest fetch R input) b b₁
      (At guest fetch R input (parameterMap base) raw.pc) (At guest fetch R input state
        (if raw.controlKind = .none then raw.transferPc else raw.branchPc)) :=
    lowerBody_triple hmemory context hlive hfetched.body b _ b₁ hok hbody
  dsimp only at hlower
  cases hcontrol : raw.controlKind with
  | none =>
    rw [if_pos hcontrol] at hfirst
    rw [hcontrol] at hlower
    exact hfirst.trans (lowerFallthrough_emitted hfirst.ok hlower)
  | conditionalBranch =>
    rw [if_neg (hcontrol ▸ RawControlKind.noConfusion)] at hfirst
    rw [hcontrol] at hlower
    exact hfirst.trans (lowerConditionalBranch_emitted hmemory hfetched hcontrol hfirst.ok hlower)
  | staticJump =>
    rw [if_neg (hcontrol ▸ RawControlKind.noConfusion)] at hfirst
    rw [hcontrol] at hlower
    exact hfirst.trans (lowerStaticJump_emitted hmemory hfetched hcontrol hfirst.ok hlower)
  | registerJump =>
    rw [if_neg (hcontrol ▸ RawControlKind.noConfusion)] at hfirst
    rw [hcontrol] at hlower
    exact hfirst.trans (lowerRegisterJump_emitted hmemory hfetched hcontrol hfirst.ok hlower)

end Control

end Terminators

end Block

end VitaSX2.RegionIR
