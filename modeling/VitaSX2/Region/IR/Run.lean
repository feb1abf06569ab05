/-
What one step of the machine can do.
-/
import VitaSX2.Region.IR.Interpret

namespace VitaSX2.RegionIR

/-! ### Parameters -/

lemma foldl_update_of_notMem (fields : List StateField) (parameters : StateMap)
    (value : StateField → U128) (table : ValueId → U128) {v : ValueId}
    (h : ∀ field ∈ fields, parameters field ≠ v) :
    fields.foldl (fun t field => Function.update t (parameters field) (value field)) table v =
      table v := by
  induction fields generalizing table with
  | nil => rfl
  | cons field rest ih =>
    rw [List.foldl_cons, ih _ fun f hf => h f (List.mem_cons_of_mem _ hf)]
    exact Function.update_of_ne (h field List.mem_cons_self).symm _ _

lemma foldl_update_of_mem (fields : List StateField) (parameters : StateMap)
    (value : StateField → U128) (table : ValueId → U128)
    (hinj : Function.Injective parameters) {field : StateField} (h : field ∈ fields) :
    fields.foldl (fun t f => Function.update t (parameters f) (value f)) table (parameters field) =
      value field := by
  induction fields generalizing table with
  | nil => simp at h
  | cons head rest ih =>
    rw [List.foldl_cons]
    by_cases hrest : field ∈ rest
    · exact ih _ hrest
    · obtain rfl : field = head := (List.mem_cons.mp h).resolve_right hrest
      rw [foldl_update_of_notMem rest parameters value _ fun f hf heq =>
        hrest (by rwa [← hinj heq])]
      exact Function.update_self _ _ _

section Assign

variable {parameters : StateMap} {state : CanonicalState} {memoryEffect : U128}
  {values : ValueId → U128}

lemma assignParameters_other {v : ValueId} (h : ∀ field, parameters field ≠ v) :
    assignParameters parameters state memoryEffect values v = values v :=
  foldl_update_of_notMem _ _ _ _ fun field _ => h field

lemma assignParameters_field (hinj : Function.Injective parameters) (field : StateField) :
    assignParameters parameters state memoryEffect values (parameters field) =
      state.field memoryEffect field :=
  foldl_update_of_mem _ _ _ _ hinj (StateField.mem_all field)

end Assign

/-! ### Steps -/

section Step

variable {σ : Type} {float : FloatUnit} {program : Program} {options : InterpretOptions σ}

/-- The bits an executed node can store. -/
def NodeResult (float : FloatUnit) (program : Program) (values : ValueId → U128) (node : Node)
    (result : U128) : Prop :=
  if node.opcode = .memoryLoad then
    ∃ kind raw, node.accessKind = some kind ∧
      loadedBits kind (node.operand values 2) raw = some result
  else result = evaluate float program.vu0OverflowClamp values node

lemma NodeResult.eq_evaluate {values : ValueId → U128} {node : Node} {result : U128}
    (h : NodeResult float program values node result) (hload : node.opcode ≠ .memoryLoad) :
    result = evaluate float program.vu0OverflowClamp values node := by
  rwa [NodeResult, if_neg hload] at h

/-- One step that goes on: a skipped node, an executed node, or an edge. -/
inductive StepCase (float : FloatUnit) (program : Program) (block : Block)
    (c c' : Configuration σ) : Prop
  | skipped (node : Node) (hnode : block.nodes[c.index]? = some node)
      (hannulled : annulled block c.values node = true)
      (hblock : c'.block = c.block) (hindex : c'.index = c.index + 1)
      (hvalues : c'.values = c.values)
  | executed (node : Node) (result : U128) (hnode : block.nodes[c.index]? = some node)
      (hannulled : annulled block c.values node = false)
      (hresult : NodeResult float program c.values node result)
      (hblock : c'.block = c.block) (hindex : c'.index = c.index + 1)
      (hvalues : c'.values = Function.update c.values node.id result)
  | edge (target : ℕ) (next : Block) (hend : block.nodes[c.index]? = none)
      (htarget : (selectTransfer block c.values).targetBlock = some target)
      (hnext : program.blocks[target]? = some next)
      (hblock : c'.block = target) (hindex : c'.index = parameterCount)
      (hcurrent : c'.current = materialize c.values (selectTransfer block c.values))
      (hvalues : c'.values = assignParameters next.parameters
        (materialize c.values (selectTransfer block c.values))
        (c.values ((selectTransfer block c.values).state .memoryEffect)) c.values)

lemma leave_ne_next {c c' : Configuration σ} {block : Block} {transfer : Transfer}
    {reason : ExitReason} {address : BitVec 32} :
    c.leave block transfer reason address ≠ .next c' := by
  simp [Configuration.leave]

lemma exitBeforeObserver_ne_next {c c' : Configuration σ} {block : Block} {node : Node}
    {reason : ExitReason} : exitBeforeObserver block node reason c ≠ .next c' := by
  unfold exitBeforeObserver
  split
  · simp [Configuration.fail]
  · exact leave_ne_next

lemma exitBeforeMemory_ne_next {c c' : Configuration σ} {block : Block} {node : Node}
    {address : BitVec 32} {reason : ExitReason} :
    exitBeforeMemory block node address reason c ≠ .next c' := by
  unfold exitBeforeMemory
  split
  · simp [Configuration.fail]
  · exact leave_ne_next

/-- What an executed node leaves behind. -/
def Stored (c c' : Configuration σ) (node : Node) (result : U128) : Prop :=
  c'.block = c.block ∧ c'.index = c.index + 1 ∧
    c'.values = Function.update c.values node.id result

lemma performAccess_next {memory : RegionMemoryInterface σ} {node : Node}
    {kind : MemoryAccessKind} {request : MemoryRequest} {c c' : Configuration σ}
    (hkind : node.accessKind = some kind)
    (hopcode : node.opcode = .memoryLoad ∨ node.opcode = .memoryStore)
    (h : performAccess memory node kind request c = .next c') :
    ∃ result, NodeResult float program c.values node result ∧ Stored c c' node result := by
  unfold performAccess at h
  split at h
  next hload =>
    split at h
    next => simp [Configuration.fail] at h
    next read _ =>
      split at h
      next => simp [Configuration.fail] at h
      next raw context _ =>
        split at h
        next => simp [Configuration.fail] at h
        next loaded hloaded =>
          cases h
          refine ⟨loaded, ?_, rfl, rfl, rfl⟩
          rw [NodeResult, if_pos hload]
          exact ⟨kind, raw, hkind, hloaded⟩
  next hload =>
    split at h
    next => simp [Configuration.fail] at h
    next write _ =>
      split at h
      next => simp [Configuration.fail] at h
      next context _ =>
        cases h
        refine ⟨0, ?_, rfl, rfl, rfl⟩
        rw [NodeResult, if_neg hload]
        simp only [evaluate, hopcode.resolve_left hload]

lemma executeMemory_next {block : Block} {node : Node} {c c' : Configuration σ}
    (hopcode : node.opcode = .memoryLoad ∨ node.opcode = .memoryStore)
    (h : executeMemory options block node c = .next c') :
    ∃ result, NodeResult float program c.values node result ∧ Stored c c' node result := by
  unfold executeMemory at h
  split at h
  next => cases h
  next kind hkind =>
    dsimp only at h
    split at h
    next => exact absurd h exitBeforeMemory_ne_next
    next =>
      split at h
      next => exact absurd h exitBeforeMemory_ne_next
      next memory probe _ =>
        split at h
        next context _ =>
          have hnext := @performAccess_next σ float program memory node kind _
            { c with memory := context } c' hkind hopcode h
          exact hnext
        all_goals exact absurd h exitBeforeMemory_ne_next

lemma executeNode_next {block : Block} {node : Node} {c c' : Configuration σ}
    (hannulled : annulled block c.values node = false)
    (h : executeNode float program options block node c = .next c') :
    ∃ result, NodeResult float program c.values node result ∧ Stored c c' node result := by
  unfold executeNode at h
  rw [if_neg (by simp [hannulled])] at h
  split at h
  next hop =>
    split at h
    next => exact absurd h exitBeforeObserver_ne_next
    next =>
      cases h
      exact ⟨_, by simp [NodeResult, hop], rfl, rfl, rfl⟩
  next hop => exact executeMemory_next (Or.inl hop) h
  next hop => exact executeMemory_next (Or.inr hop) h
  next hop =>
    split at h
    next =>
      split at h
      next => cases h
      next => exact absurd h leave_ne_next
    next =>
      cases h
      exact ⟨0, by simp [NodeResult, hop, evaluate], rfl, rfl, rfl⟩
  next hidle hload hstore hexit =>
    cases h
    exact ⟨_, by rw [NodeResult, if_neg hload], rfl, rfl, rfl⟩

lemma enterBlock_next {target : ℕ} {memoryEffect : U128} {c c' : Configuration σ}
    (h : enterBlock program options target memoryEffect c = .next c') :
    ∃ next, program.blocks[target]? = some next ∧ c'.block = target ∧
      c'.index = parameterCount ∧ c'.current = c.current ∧
      c'.values = assignParameters next.parameters c.current memoryEffect c.values := by
  unfold enterBlock at h
  split at h
  next => cases h
  next next hnext =>
    split at h
    next => cases h
    next =>
      cases h
      exact ⟨next, hnext, rfl, rfl, rfl, rfl⟩

lemma executeTerminator_next {block : Block} {c c' : Configuration σ}
    (h : executeTerminator program options block c = .next c') :
    ∃ target next, (selectTransfer block c.values).targetBlock = some target ∧
      program.blocks[target]? = some next ∧ c'.block = target ∧ c'.index = parameterCount ∧
      c'.current = materialize c.values (selectTransfer block c.values) ∧
      c'.values = assignParameters next.parameters
        (materialize c.values (selectTransfer block c.values))
        (c.values ((selectTransfer block c.values).state .memoryEffect)) c.values := by
  unfold executeTerminator at h
  dsimp only at h
  split at h
  next => cases h
  next =>
    split at h
    next => cases h
    next target htarget =>
      obtain ⟨next, hnext, hblock, hindex, hcurrent, hvalues⟩ := enterBlock_next h
      exact ⟨target, next, htarget, hnext, hblock, hindex, hcurrent, hvalues⟩

theorem step_cases {c c' : Configuration σ} (h : step float program options c = .next c') :
    ∃ block, program.blocks[c.block]? = some block ∧ StepCase float program block c c' := by
  unfold step at h
  split at h
  next => cases h
  next block hblock =>
    refine ⟨block, hblock, ?_⟩
    split at h
    next node hnode =>
      cases hannulled : annulled block c.values node with
      | true =>
        rw [executeNode, if_pos hannulled] at h
        cases h
        exact .skipped node hnode hannulled rfl rfl rfl
      | false =>
        obtain ⟨result, hresult, hb, hi, hv⟩ := executeNode_next hannulled h
        exact .executed node result hnode hannulled hresult hb hi hv
    next hend =>
      obtain ⟨target, next, htarget, hnext, hb, hi, hc, hv⟩ := executeTerminator_next h
      exact .edge target next hend htarget hnext hb hi hc hv

/-! ### Exits -/

/-- The canonical state an outcome carries. -/
def Outcome.state : Outcome σ → Option CanonicalState
  | .next c => some c.current
  | .finished output _ => output
  | .undefined => none

lemma leave_state {c : Configuration σ} {block : Block} {transfer : Transfer}
    {reason : ExitReason} {address : BitVec 32} {out : CanonicalState} {result : InterpretResult}
    (h : c.leave block transfer reason address = .finished (some out) result) :
    out = materialize c.values transfer := by
  unfold Configuration.leave at h
  cases h
  rfl

lemma exitBeforeMemory_state {c : Configuration σ} {block : Block} {node : Node}
    {address : BitVec 32} {reason : ExitReason} {out : CanonicalState} {result : InterpretResult}
    (h : exitBeforeMemory block node address reason c = .finished (some out) result) :
    ∃ found, findExit block.memoryExits node = some found ∧
      out = materialize c.values found.transfer := by
  unfold exitBeforeMemory at h
  split at h
  next => cases h
  next found hfound => exact ⟨found, hfound, leave_state h⟩

lemma performAccess_ne_finished {c : Configuration σ} {memory : RegionMemoryInterface σ}
    {node : Node} {kind : MemoryAccessKind} {request : MemoryRequest} {out : CanonicalState}
    {result : InterpretResult} :
    performAccess memory node kind request c ≠ .finished (some out) result := by
  unfold performAccess
  intro h
  split at h
  · split at h
    · cases h
    · split at h
      · cases h
      · split at h <;> cases h
  · split at h
    · cases h
    · split at h <;> cases h

lemma executeMemory_state {c : Configuration σ} {block : Block} {node : Node}
    {out : CanonicalState} {result : InterpretResult}
    (h : executeMemory options block node c = .finished (some out) result) :
    ∃ found, findExit block.memoryExits node = some found ∧
      out = materialize c.values found.transfer := by
  unfold executeMemory at h
  split at h
  next => cases h
  next =>
    dsimp only at h
    split at h
    next => exact exitBeforeMemory_state h
    next =>
      split at h
      next => exact exitBeforeMemory_state h
      next =>
        split at h
        next => exact absurd h performAccess_ne_finished
        all_goals exact exitBeforeMemory_state h

/-- One step that leaves the program at a node. -/
inductive ExitCase (block : Block) (c : Configuration σ) (node : Node) (out : CanonicalState) : Prop
  | guarded (transfer : Transfer) (hopcode : node.opcode = .exitIfTrue)
      (hexit : block.guardedExits[node.immediate]? = some transfer)
      (hout : out = materialize c.values transfer)
  | observer (found : OperationExit) (hopcode : node.opcode = .vu0RequireIdle)
      (hexit : findExit block.observerExits node = some found)
      (hout : out = materialize c.values found.transfer)
  | memory (found : OperationExit) (hopcode : node.opcode = .memoryLoad ∨ node.opcode = .memoryStore)
      (hexit : findExit block.memoryExits node = some found)
      (hout : out = materialize c.values found.transfer)

theorem executeNode_exit {c : Configuration σ} {block : Block} {node : Node} {out : CanonicalState}
    {result : InterpretResult}
    (h : executeNode float program options block node c = .finished (some out) result) :
    annulled block c.values node = false ∧ ExitCase block c node out := by
  unfold executeNode at h
  split at h
  next => cases h
  next hannulled =>
    refine ⟨by simpa using hannulled, ?_⟩
    split at h
    next hop =>
      split at h
      next =>
        unfold exitBeforeObserver at h
        split at h
        next => cases h
        next found hfound => exact .observer found hop hfound (leave_state h)
      next => cases h
    next hop =>
      obtain ⟨found, hfound, hout⟩ := executeMemory_state h
      exact .memory found (Or.inl hop) hfound hout
    next hop =>
      obtain ⟨found, hfound, hout⟩ := executeMemory_state h
      exact .memory found (Or.inr hop) hfound hout
    next hop =>
      split at h
      next =>
        split at h
        next => cases h
        next transfer htransfer => exact .guarded transfer hop htransfer (leave_state h)
      next => cases h
    next => cases h

/-- The state at the end of a block is the one its edge publishes. -/
theorem executeTerminator_state {c : Configuration σ} {block : Block} {out : CanonicalState}
    (h : (executeTerminator program options block c).state = some out) :
    out = materialize c.values (selectTransfer block c.values) := by
  unfold executeTerminator at h
  dsimp only at h
  split at h
  next =>
    cases h
    rfl
  next =>
    split at h
    next =>
      cases h
      rfl
    next =>
      unfold enterBlock at h
      split at h
      next => cases h
      next =>
        split at h <;> cases h <;> rfl

theorem start_cases {input : CanonicalState} {memory : σ} {c : Configuration σ}
    (h : start program options input memory = .next c) :
    ∃ entry, program.blocks[program.entryBlock]? = some entry ∧ c.block = program.entryBlock ∧
      c.index = parameterCount ∧ c.current = normalize input ∧
      c.values = assignParameters entry.parameters (normalize input) 0 (fun _ => 0) := by
  unfold start at h
  dsimp only at h
  split at h
  next => cases h
  next =>
    obtain ⟨next, hnext, hblock, hindex, hcurrent, hvalues⟩ := enterBlock_next h
    exact ⟨next, hnext, hblock, hindex, hcurrent, hvalues⟩

/-- A property of the first configuration that every step keeps holds throughout a run. -/
theorem Reaches.induct {input : CanonicalState} {memory : σ} {P : Configuration σ → Prop}
    (hstart : ∀ c, start program options input memory = .next c → P c)
    (hstep : ∀ c c', P c → step float program options c = .next c' → P c') {c : Configuration σ}
    (h : Reaches float program options input memory c) : P c := by
  induction h with
  | init h => exact hstart _ h
  | tail _ h ih => exact hstep _ _ ih h

/-! ### Computed runs -/

/-- The configuration a number of steps later. -/
def advance (float : FloatUnit) (program : Program) (options : InterpretOptions σ) :
    ℕ → Configuration σ → Option (Configuration σ)
  | 0, c => some c
  | n + 1, c =>
    match step float program options c with
    | .next c' => advance float program options n c'
    | _ => none

lemma reaches_advance {input : CanonicalState} {memory : σ} {c c' : Configuration σ} {n : ℕ}
    (hreaches : Reaches float program options input memory c)
    (h : advance float program options n c = some c') :
    Reaches float program options input memory c' := by
  induction n generalizing c with
  | zero =>
    cases h
    exact hreaches
  | succ n ih =>
    unfold advance at h
    split at h
    next next hstep => exact ih (hreaches.tail hstep) h
    next => cases h

/-- The configuration a number of steps after the start. -/
def runFor (float : FloatUnit) (program : Program) (options : InterpretOptions σ)
    (input : CanonicalState) (memory : σ) (n : ℕ) : Option (Configuration σ) :=
  match start program options input memory with
  | .next c => advance float program options n c
  | _ => none

lemma reaches_runFor {input : CanonicalState} {memory : σ} {c : Configuration σ} {n : ℕ}
    (h : runFor float program options input memory n = some c) :
    Reaches float program options input memory c := by
  unfold runFor at h
  split at h
  next hstart => exact reaches_advance (.init hstart) h
  next => cases h

end Step

/-! ### Edges -/

/-- What the terminator can choose. -/
lemma selectTransfer_cases (block : Block) (values : ValueId → U128) :
    (selectTransfer block values = block.terminator.taken ∧
      (block.terminator.kind = .branch → (values block.terminator.condition).lo ≠ 0)) ∨
    (selectTransfer block values = block.terminator.notTaken ∧
      block.terminator.kind = .branch ∧ (values block.terminator.condition).lo = 0) ∨
    (block.terminator.kind = .registerJump ∧
      selectTransfer block values ∈ block.terminator.registerTargets) := by
  cases hkind : block.terminator.kind with
  | branch =>
    simp only [selectTransfer, hkind]
    split
    next h => exact Or.inr (Or.inl ⟨rfl, trivial, h⟩)
    next h => exact Or.inl ⟨rfl, fun _ => h⟩
  | registerJump =>
    simp only [selectTransfer, hkind]
    generalize hfind : List.find? _ block.terminator.registerTargets = found
    cases found with
    | none => exact Or.inl ⟨rfl, fun h => by cases h⟩
    | some transfer => exact Or.inr (Or.inr ⟨trivial, List.mem_of_find?_eq_some hfind⟩)
  | transfer => exact Or.inl ⟨by simp [selectTransfer, hkind], fun h => by cases h⟩
  | jump => exact Or.inl ⟨by simp [selectTransfer, hkind], fun h => by cases h⟩

/-- A chosen transfer that stays inside is one of the internal transfers. -/
lemma selectTransfer_mem {block : Block} {values : ValueId → U128} {target : ℕ}
    (h : (selectTransfer block values).targetBlock = some target) :
    selectTransfer block values ∈ block.terminator.internalTransfers := by
  refine List.mem_filter.mpr ⟨?_, by simp [h]⟩
  rcases selectTransfer_cases block values with ⟨heq, -⟩ | ⟨heq, hkind, -⟩ | ⟨hkind, hmem⟩
  · simp [heq]
  · simp [heq, hkind]
  · simp [hkind, hmem]

end VitaSX2.RegionIR
