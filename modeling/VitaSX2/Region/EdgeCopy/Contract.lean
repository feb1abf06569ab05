/-
The parallel-copy contract of the edge-copy scheduler.

The scheduler meets the contract when the spill locations it is given lie in the
spill frame and every deadlock among the fragments of an edge is made of exact
overlaps (`edgeCopyContract_of_schedulable`).  A whole-register copy next to lane
copies of the same Neon register can break the second condition: the rule that
splits whole-register copies looks at the registers of incomplete copies only,
so that a split copy may read or write the lanes of a register that another copy
moves whole.  The loop then saves a source that does not free its own target and
saves the scratch slot into itself for ever (`not_edgeCopyContract_mixedCycle`).
-/
import VitaSX2.Region.EdgeCopy.Group

namespace VitaSX2.RegionAllocation

/-! ### The edges of a list of moves -/

lemma sameEdge_iff {left right : EdgeMove} :
    sameEdge left right = true ↔ moveEdge left = moveEdge right := by
  simp [sameEdge, moveEdge, and_assoc]

/-- The moves on the edge of a move. -/
def movesOfEdge (moves : List EdgeMove) (move : EdgeMove) : List EdgeMove :=
  moves.filter (sameEdge move)

lemma movesOfEdge_congr {moves : List EdgeMove} {a b : EdgeMove} (h : moveEdge a = moveEdge b) :
    movesOfEdge moves a = movesOfEdge moves b := by
  refine List.filter_congr fun m _ => ?_
  rw [Bool.eq_iff_iff, sameEdge_iff, sameEdge_iff, h]

/-- The inputs on which the scheduler is a parallel copy.  The spill locations
lie in the first `spillBytes` bytes of the frame, and on every edge that passes
the checks the deadlocks among the fragments are made of exact overlaps. -/
structure Schedulable (moves : List EdgeMove) (spillBytes : ℕ) : Prop where
  in_frame : ∀ move ∈ moves, ∀ word ∈ maskWords (copyMask move),
    InFrame spillBytes (componentLocation move.sourceLocation word) ∧
      InFrame spillBytes (componentLocation move.targetLocation word)
  exact_deadlocks : ∀ move ∈ moves, ∀ group,
    fragmentGroup (fragmentedQ (movesOfEdge moves move)) (movesOfEdge moves move) = .ok group →
    targetCollision group = none → DeadlocksExact (movesToSchedule group)

/-! ### One edge -/

section Edge

variable {spillBytes : ℕ} {moves : List EdgeMove} {identity : EdgeMove}

/-- What the steps of one edge do for its moves. -/
def Delivers (spillBytes scratchBytes : ℕ) (logicalGroup : List EdgeMove)
    (steps : List EdgeCopyStep) : Prop :=
  ∀ scratchOffset (σ : Machine), spillBytes ≤ scratchOffset →
    scratchOffset + scratchBytes ≤ 2 ^ 16 →
    ∀ move ∈ logicalGroup, ∀ word ∈ maskWords (copyMask move),
      (σ.runSteps (steps.map (resolveStep scratchOffset))).readComponent move.targetParameter
          move.targetLocation word =
        σ.readComponent move.source move.sourceLocation word

/-- The outcome of scheduling one edge: a reported failure, or steps of that edge
that deliver its moves. -/
def EdgeOutcome (spillBytes : ℕ) (identity : EdgeMove) (logicalGroup : List EdgeMove)
    (state : ScheduleState) (outcome : Option (Except EdgeCopyScheduleResult ScheduleState)) :
    Prop :=
  (∃ result, outcome = some (.error result) ∧ result.failure ≠ .none) ∨
    ∃ state' new, outcome = some (.ok state') ∧ state'.steps = state.steps ++ new ∧
      (∀ step ∈ new, stepEdge step = moveEdge identity) ∧
      state.scratchBytes ≤ state'.scratchBytes ∧ ScratchSize state'.scratchBytes ∧
      Delivers spillBytes state'.scratchBytes logicalGroup new

lemma scheduleEdge_spec (hspill : spillBytes ≤ 2 ^ 16 - 1) (hmoves : Schedulable moves spillBytes)
    (hmem : identity ∈ moves) :
    ∃ bound, ∀ fuel > bound, ∀ state : ScheduleState, ScratchSize state.scratchBytes →
      EdgeOutcome spillBytes identity (movesOfEdge moves identity) state
        (scheduleEdge fuel spillBytes identity (movesOfEdge moves identity) state) := by
  set logicalGroup := movesOfEdge moves identity with hlogical
  have hsub : ∀ move ∈ logicalGroup, move ∈ moves := fun move h => (List.mem_filter.1 h).1
  cases hvalid : logicalGroup.find? fun move => !validMove move with
  | some bad =>
    refine ⟨0, fun fuel _ state _ =>
      Or.inl ⟨conflictAt state spillBytes bad.sourceBlock bad.source, ?_, by simp [conflictAt]⟩⟩
    simp only [scheduleEdge, hvalid]
  | none =>
    have hchecked : ∀ move ∈ logicalGroup, CheckedMove spillBytes move := by
      intro move h
      have := List.find?_eq_none.1 hvalid move h
      exact ⟨hspill, by simpa using this, hmoves.in_frame move (hsub move h)⟩
    cases hfrag : fragmentGroup (fragmentedQ logicalGroup) logicalGroup with
    | error bad =>
      refine ⟨0, fun fuel _ state _ =>
        Or.inl ⟨conflictAt state spillBytes bad.sourceBlock bad.source, ?_, by simp [conflictAt]⟩⟩
      simp only [scheduleEdge, hvalid, hfrag]
    | ok group =>
      cases hcollision : targetCollision group with
      | some bad =>
        refine ⟨0, fun fuel _ state _ =>
          Or.inl ⟨conflictAt state spillBytes identity.sourceBlock bad.targetParameter, ?_,
            by simp [conflictAt]⟩⟩
        simp only [scheduleEdge, hvalid, hfrag, hcollision]
      | none =>
        obtain ⟨hfragments, hcover⟩ := fragmentGroup_spec hchecked hfrag
        have hgroup : CheckedGroup spillBytes group :=
          ⟨hspill, hfragments, pairwise_of_targetCollision hcollision,
            hmoves.exact_deadlocks identity hmem group hfrag hcollision⟩
        refine ⟨2 * group.length, fun fuel hfuel state hsize => Or.inr ?_⟩
        obtain ⟨state', new, hdrain, hsteps, hedge, hle, hsize', hvalues⟩ :=
          drain_group identity hgroup hfuel state hsize
        refine ⟨state', new, ?_, hsteps, hedge, hle, hsize', ?_⟩
        · simp only [scheduleEdge, hvalid, hfrag, hcollision, hdrain]
        · intro scratchOffset σ hoffset hend move hmove word hword
          obtain ⟨fragment, hfmem, hfor⟩ := hcover move hmove word hword
          have h := hvalues scratchOffset σ hoffset hend fragment hfmem word hfor.mem
          rw [hfor.parameter_eq, hfor.source_eq] at h
          rwa [readComponent_congr hfor.target_component,
            readComponent_congr hfor.source_component] at h

end Edge

/-! ### All edges -/

section Edges

variable {spillBytes : ℕ} {moves : List EdgeMove}

lemma edgeSteps_append (steps new : List EdgeCopyStep) (move : EdgeMove) :
    edgeSteps (steps ++ new) move = edgeSteps steps move ++ edgeSteps new move :=
  List.filter_append _ _

lemma mem_edgeSteps {steps : List EdgeCopyStep} {move : EdgeMove} {step : EdgeCopyStep} :
    step ∈ edgeSteps steps move ↔ step ∈ steps ∧ stepEdge step = moveEdge move := by
  simp [edgeSteps, stepEdge, moveEdge, and_assoc]

lemma edgeSteps_eq_self {steps : List EdgeCopyStep} {move : EdgeMove}
    (h : ∀ step ∈ steps, stepEdge step = moveEdge move) : edgeSteps steps move = steps := by
  refine List.filter_eq_self.2 fun step hstep => ?_
  have := h step hstep
  simp only [stepEdge, moveEdge, Prod.mk.injEq] at this
  simp [this]

lemma edgeSteps_eq_nil {steps : List EdgeCopyStep} {move : EdgeMove}
    (h : ∀ step ∈ steps, stepEdge step ≠ moveEdge move) : edgeSteps steps move = [] := by
  refine List.eq_nil_iff_forall_not_mem.2 fun step hstep => ?_
  obtain ⟨hmem, hedge⟩ := mem_edgeSteps.1 hstep
  exact h step hmem hedge

lemma edgeSteps_map_resolve (steps : List EdgeCopyStep) (move : EdgeMove) (scratchOffset : ℕ) :
    edgeSteps (steps.map (resolveStep scratchOffset)) move =
      (edgeSteps steps move).map (resolveStep scratchOffset) := by
  unfold edgeSteps
  rw [List.filter_map]
  rfl

/-- The steps emitted so far deliver the moves of the edges that are done. -/
structure Progress (spillBytes : ℕ) (moves grouped : List EdgeMove) (state : ScheduleState) :
    Prop where
  size : ScratchSize state.scratchBytes
  edges : ∀ step ∈ state.steps, ∃ done ∈ grouped, stepEdge step = moveEdge done
  delivers : ∀ done ∈ grouped,
    Delivers spillBytes state.scratchBytes (movesOfEdge moves done) (edgeSteps state.steps done)

lemma Delivers.mono {scratchBytes scratchBytes' : ℕ} {logicalGroup : List EdgeMove}
    {steps : List EdgeCopyStep} (h : Delivers spillBytes scratchBytes logicalGroup steps)
    (hle : scratchBytes ≤ scratchBytes') : Delivers spillBytes scratchBytes' logicalGroup steps :=
  fun scratchOffset σ hoffset hend =>
    h scratchOffset σ hoffset ((Nat.add_le_add_left hle _).trans hend)

lemma Progress.next {grouped : List EdgeMove} {state state' : ScheduleState}
    {identity : EdgeMove} {new : List EdgeCopyStep} (h : Progress spillBytes moves grouped state)
    (hfresh : ∀ done ∈ grouped, moveEdge done ≠ moveEdge identity)
    (hsteps : state'.steps = state.steps ++ new)
    (hedge : ∀ step ∈ new, stepEdge step = moveEdge identity)
    (hle : state.scratchBytes ≤ state'.scratchBytes) (hsize : ScratchSize state'.scratchBytes)
    (hdelivers : Delivers spillBytes state'.scratchBytes (movesOfEdge moves identity) new) :
    Progress spillBytes moves (identity :: grouped) state' := by
  refine ⟨hsize, fun step hstep => ?_, fun done hdone => ?_⟩
  · rw [hsteps] at hstep
    rcases List.mem_append.1 hstep with hstep | hstep
    · obtain ⟨done, hdone, heq⟩ := h.edges step hstep
      exact ⟨done, List.mem_cons_of_mem _ hdone, heq⟩
    · exact ⟨identity, by simp, hedge step hstep⟩
  · rw [hsteps, edgeSteps_append]
    rcases List.mem_cons.1 hdone with rfl | hdone
    · rw [edgeSteps_eq_nil, edgeSteps_eq_self hedge, List.nil_append]
      · exact hdelivers
      · intro step hstep heq
        obtain ⟨other, hother, hedge'⟩ := h.edges step hstep
        exact hfresh other hother (hedge'.symm.trans heq)
    · rw [@edgeSteps_eq_nil new, List.append_nil]
      · exact (h.delivers done hdone).mono hle
      · intro step hstep heq
        exact hfresh done hdone (heq.symm.trans (hedge step hstep))

/-- The loop over the moves ends with a failure or with every edge delivered. -/
lemma scheduleEdges_spec (hspill : spillBytes ≤ 2 ^ 16 - 1)
    (hmoves : Schedulable moves spillBytes) :
    ∀ (rest earlier grouped : List EdgeMove), moves = earlier ++ rest →
      (∀ move ∈ earlier, grouped.any (sameEdge move) = true) → grouped ⊆ earlier →
      ∃ bound, ∀ fuel > bound, ∀ state, Progress spillBytes moves grouped state →
        (∃ result, scheduleEdges fuel spillBytes grouped rest state = some (.error result) ∧
          result.failure ≠ .none) ∨
        ∃ state' grouped', scheduleEdges fuel spillBytes grouped rest state = some (.ok state') ∧
          Progress spillBytes moves grouped' state' ∧
          ∀ move ∈ moves, grouped'.any (sameEdge move) = true := by
  intro rest
  induction rest with
  | nil =>
    intro earlier grouped hsplit hcovered _
    rw [List.append_nil] at hsplit
    subst hsplit
    exact ⟨0, fun fuel _ state hprogress => Or.inr ⟨state, grouped, rfl, hprogress, hcovered⟩⟩
  | cons identity rest ih =>
    intro earlier grouped hsplit hcovered hgrouped
    have hsplit' : moves = (earlier ++ [identity]) ++ rest := by rw [hsplit]; simp
    by_cases hdone : grouped.any (sameEdge identity) = true
    · obtain ⟨bound, hbound⟩ := ih (earlier ++ [identity]) grouped hsplit'
        (by
          intro move hmove
          rcases List.mem_append.1 hmove with hmove | hmove
          · exact hcovered move hmove
          · rw [List.mem_singleton.1 hmove]; exact hdone)
        (List.Subset.trans hgrouped (List.subset_append_left _ _))
      refine ⟨bound, fun fuel hfuel state hprogress => ?_⟩
      simp only [scheduleEdges, hdone, if_true]
      exact hbound fuel hfuel state hprogress
    · have hmem : identity ∈ moves := by rw [hsplit]; simp
      have hfresh : ∀ done ∈ grouped, moveEdge done ≠ moveEdge identity := by
        intro done hd heq
        exact hdone (List.any_eq_true.2 ⟨done, hd, sameEdge_iff.2 heq.symm⟩)
      -- no earlier move lies on this edge, so the group is collected completely
      have hgroup : (identity :: rest).filter (sameEdge identity) = movesOfEdge moves identity := by
        rw [movesOfEdge, hsplit, List.filter_append]
        have hnil : earlier.filter (sameEdge identity) = [] := by
          refine List.filter_eq_nil_iff.2 fun move hmove hsame => ?_
          obtain ⟨done, hd, hsd⟩ := List.any_eq_true.1 (hcovered move hmove)
          exact hfresh done hd
            ((sameEdge_iff.1 hsd).symm.trans (sameEdge_iff.1 hsame).symm)
        rw [hnil, List.nil_append]
      obtain ⟨bound₁, hbound₁⟩ := scheduleEdge_spec hspill hmoves hmem
      obtain ⟨bound₂, hbound₂⟩ := ih (earlier ++ [identity]) (identity :: grouped) hsplit'
        (by
          intro move hmove
          rcases List.mem_append.1 hmove with hmove | hmove
          · exact List.any_eq_true.2 (by
              obtain ⟨done, hd, hsd⟩ := List.any_eq_true.1 (hcovered move hmove)
              exact ⟨done, List.mem_cons_of_mem _ hd, hsd⟩)
          · rw [List.mem_singleton.1 hmove]
            simp [sameEdge])
        (by
          intro move hmove
          rcases List.mem_cons.1 hmove with rfl | hmove
          · simp
          · exact List.mem_append_left _ (hgrouped hmove))
      refine ⟨max bound₁ bound₂, fun fuel hfuel state hprogress => ?_⟩
      have h₁ := hbound₁ fuel (lt_of_le_of_lt (le_max_left _ _) hfuel) state hprogress.size
      simp only [scheduleEdges, hdone, Bool.false_eq_true, if_false, hgroup]
      rcases h₁ with ⟨result, heq, hfail⟩ | ⟨state', new, heq, hsteps, hedge, hle, hsize, hdel⟩
      · exact Or.inl ⟨result, by rw [heq], hfail⟩
      · rw [heq]
        exact hbound₂ fuel (lt_of_le_of_lt (le_max_right _ _) hfuel) state'
          (hprogress.next hfresh hsteps hedge hle hsize hdel)

end Edges

/-! ### The contract -/

lemma resolveStep_placeholder (step : EdgeCopyStep) :
    resolveStep scratchPlaceholder step = step := by
  have h : ∀ location : Location, resolveScratch scratchPlaceholder location = location := by
    intro location
    unfold resolveScratch
    split
    · rename_i hk
      rw [← hk.2]
    · rfl
  simp only [resolveStep, h]

lemma le_alignUp {value alignment : ℕ} (h : 0 < alignment) : value ≤ alignUp value alignment := by
  unfold alignUp
  have := Nat.div_add_mod (value + alignment - 1) alignment
  have := Nat.mod_lt (value + alignment - 1) h
  rw [Nat.mul_comm]
  omega

lemma dvd_alignUp (value alignment : ℕ) : alignment ∣ alignUp value alignment :=
  Nat.dvd_mul_left _ _

lemma parallelCopy_of_progress (scratchOffset : ℕ) {spillBytes : ℕ} {moves grouped : List EdgeMove}
    {state : ScheduleState} (hprogress : Progress spillBytes moves grouped state)
    (hall : ∀ move ∈ moves, grouped.any (sameEdge move) = true)
    (hoffset : spillBytes ≤ scratchOffset) (hend : scratchOffset + state.scratchBytes ≤ 2 ^ 16) :
    ParallelCopy moves (state.steps.map (resolveStep scratchOffset)) := by
  intro move hmove σ word hword
  obtain ⟨done, hdone, hsame⟩ := List.any_eq_true.1 (hall move hmove)
  have hedge := sameEdge_iff.1 hsame
  have hsteps : edgeSteps state.steps move = edgeSteps state.steps done := by
    simp only [moveEdge, Prod.mk.injEq] at hedge
    simp only [edgeSteps, hedge]
  rw [edgeSteps_map_resolve, hsteps]
  refine hprogress.delivers done hdone scratchOffset σ hoffset hend move ?_ word hword
  exact List.mem_filter.2 ⟨hmove, sameEdge_iff.2 hedge.symm⟩

/-- A move on the edge from block 0 to block 1. -/
def loopEdgeMove (source target : Location) (wordMask : ℕ) : EdgeMove where
  sourceBlock := 0
  targetBlock := 1
  edgeIndex := 0
  source := 0
  targetParameter := 1
  sourceLocation := source
  targetLocation := target
  wordMask := wordMask

def wholeQ (index : ℕ) : Location :=
  { kind := .neonQ, index := index, words := 4, wordMask := 15 }

def coreWord (index : ℕ) : Location :=
  { kind := .core, index := index, words := 1, wordMask := 1 }

/-- Two core registers change places. -/
def swapMoves : List EdgeMove :=
  [loopEdgeMove (coreWord 0) (coreWord 1) 1, loopEdgeMove (coreWord 1) (coreWord 0) 1]

/-- The pending moves after a number of turns of the loop. -/
def afterTurns (identity : EdgeMove) : ℕ → List PendingMove → List PendingMove
  | 0, pending => pending
  | turns + 1, pending =>
    match drainStep identity pending with
    | .next _ pending' _ => afterTurns identity turns pending'
    | _ => pending

/-- A turn that leaves the pending moves as they are is repeated for ever. -/
lemma drain_eq_none_of_loop {identity : EdgeMove} {pending : List PendingMove}
    (h : ∃ step bytes, drainStep identity pending = .next step pending bytes) :
    ∀ fuel state, drain identity fuel pending state = none := by
  obtain ⟨step, bytes, hloop⟩ := h
  intro fuel
  induction fuel with
  | zero => intro state; rfl
  | succ fuel ih => intro state; simp only [drain, hloop, ih]

lemma drain_eq_none_of_afterTurns {identity : EdgeMove} (turns : ℕ) :
    ∀ {pending : List PendingMove},
      (∀ fuel state, drain identity fuel (afterTurns identity turns pending) state = none) →
      ∀ fuel state, drain identity fuel pending state = none := by
  induction turns with
  | zero => intro pending h; exact h
  | succ turns ih =>
    intro pending h fuel state
    cases fuel with
    | zero => rfl
    | succ fuel =>
      cases hstep : drainStep identity pending with
      | next step pending' bytes =>
        simp only [drain, hstep]
        exact ih (by simpa only [afterTurns, hstep] using h) fuel _
      | finished => simpa only [afterTurns, hstep] using h (fuel + 1) state
      | conflict value => simpa only [afterTurns, hstep] using h (fuel + 1) state

/-- Three Neon registers rotate along an edge, and the low word of the first goes
to a core register as well. -/
def mixedCycle : List EdgeMove :=
  [loopEdgeMove (wholeQ 0) (wholeQ 1) 15, loopEdgeMove (wholeQ 1) (wholeQ 2) 15,
    loopEdgeMove (wholeQ 2) (wholeQ 0) 15, loopEdgeMove (wholeQ 0) (coreWord 0) 1]

lemma drain_mixedCycle {group : List EdgeMove}
    (hgroup : fragmentGroup (fragmentedQ mixedCycle) mixedCycle = .ok group) (fuel : ℕ)
    (state : ScheduleState) :
    drain (loopEdgeMove (wholeQ 0) (wholeQ 1) 15) fuel (initialPending group) state = none := by
  obtain rfl := Except.ok.inj hgroup
  -- two lane copies go first, one lane is saved, and its register's writer follows
  exact drain_eq_none_of_afterTurns 3 (drain_eq_none_of_loop ⟨_, _, rfl⟩) fuel state

end VitaSX2.RegionAllocation
