/-
The fragments of one edge and the steps emitted for them.

A checked move is split into fragments that together stand for its components,
and the loop over the fragments of an edge emits a parallel copy of them.
-/
import VitaSX2.Region.EdgeCopy.Drain

namespace VitaSX2.RegionAllocation

open Deadlock

/-! ### The loop over the pending moves -/

section Drain

variable {spillBytes : ℕ} {group : List EdgeMove} (identity : EdgeMove)

/-- The bytes that a save may ask for. -/
def ScratchSize (bytes : ℕ) : Prop :=
  bytes = 0 ∨ bytes = 4 ∨ bytes = 16

def moveEdge (move : EdgeMove) : ℕ × ℕ × ℕ :=
  (move.sourceBlock, move.targetBlock, move.edgeIndex)

def stepEdge (step : EdgeCopyStep) : ℕ × ℕ × ℕ :=
  (step.sourceBlock, step.targetBlock, step.edgeIndex)

/-- Every turn of the loop is a copy or a save. -/
lemma exists_turn {scratchBytes : ℕ} {pending : List PendingMove} {done : List EdgeMove}
    (hgroup : CheckedGroup spillBytes group) (hshape : Shape scratchBytes group pending done)
    (hne : pending ≠ []) :
    ∃ step pending' bytes done',
      Turn spillBytes scratchBytes group pending done identity step pending' bytes done' := by
  cases hfind : pending.find? (isReady pending) with
  | some item => exact ⟨_, _, _, _, turn_of_ready hgroup hshape hfind⟩
  | none =>
    obtain ⟨breaker, rest, rfl⟩ := List.exists_cons_of_ne_nil hne
    exact ⟨_, _, _, _, turn_of_stuck hgroup hshape hfind⟩

/-- The loop ends within `measure pending` turns, with every value delivered. -/
lemma drain_spec (hgroup : CheckedGroup spillBytes group) :
    ∀ (fuel : ℕ) (pending : List PendingMove) (done : List EdgeMove) (state : ScheduleState),
      Shape state.scratchBytes group pending done → measure pending < fuel →
      ScratchSize state.scratchBytes →
      ∃ state' new done', drain identity fuel pending state = some (state', none) ∧
        state'.steps = state.steps ++ new ∧ (∀ step ∈ new, stepEdge step = moveEdge identity) ∧
        state.scratchBytes ≤ state'.scratchBytes ∧ ScratchSize state'.scratchBytes ∧
        done'.Perm group ∧
        ∀ base scratchOffset σ, spillBytes ≤ scratchOffset →
          scratchOffset + state'.scratchBytes ≤ 2 ^ 16 →
          Values base scratchOffset pending done σ →
          Values base scratchOffset [] done'
            (σ.runSteps (new.map (resolveStep scratchOffset))) := by
  intro fuel
  induction fuel with
  | zero => intro pending done state _ hlt; omega
  | succ fuel ih =>
    intro pending done state hshape hlt hsize
    by_cases hne : pending = []
    · subst hne
      refine ⟨state, [], done, rfl, by simp, by simp, le_refl _, hsize, ?_, ?_⟩
      · simpa using hshape.perm
      · intro base scratchOffset σ _ _ hvalues
        exact hvalues
    · obtain ⟨step, pending', bytes, done', hturn⟩ :=
        exists_turn identity hgroup hshape hne
      set state₁ : ScheduleState :=
        { steps := state.steps ++ [step], scratchBytes := max state.scratchBytes bytes } with hs₁
      have hsize₁ : ScratchSize state₁.scratchBytes := by
        have := hturn.bytes_cases
        unfold ScratchSize at hsize ⊢
        simp only [hs₁]
        omega
      obtain ⟨state', new, done'', hdrain, hsteps, hedge, hle, hsize', hperm, hvalues⟩ :=
        ih pending' done' state₁ hturn.shape (by have := hturn.lt; omega) hsize₁
      refine ⟨state', step :: new, done'', ?_, ?_, ?_, ?_, hsize', hperm, ?_⟩
      · simp only [drain, hturn.eq_next]
        exact hdrain
      · rw [hsteps, hs₁]; simp
      · intro other hother
        rcases List.mem_cons.1 hother with rfl | hother
        · simp only [stepEdge, moveEdge, hturn.edge]
        · exact hedge other hother
      · exact (le_max_left _ _).trans hle
      · intro base scratchOffset σ hoffset hend hstart
        refine hvalues base scratchOffset _ hoffset hend ?_
        exact hturn.values base scratchOffset σ hoffset
          ((Nat.add_le_add_left hle _).trans hend) hstart

lemma address_of_same {a b : Location} {mask word : ℕ} (ha : Place a mask) (hb : Place b mask)
    (hsame : samePhysicalStorage a b = true) (hw : word ∈ maskWords mask) :
    address a word = address b word := by
  obtain ⟨hk, hi, hwords, -, -⟩ := samePhysicalStorage_cases hsame
  rw [ha.address_eq hw, hb.address_eq hw, hk, hi, Place.slotOf, Place.slotOf, hwords]

/-- Before the first turn the moves that are in place are done. -/
lemma shape_initial (group : List EdgeMove) (scratchBytes : ℕ) :
    Shape scratchBytes group (initialPending group)
      (group.filter fun move =>
        samePhysicalStorage move.sourceLocation move.targetLocation) := by
  have hmoves : (initialPending group).map PendingMove.move = movesToSchedule group := by
    simp [initialPending, Function.comp_def]
  refine ⟨by rw [hmoves], ?_, ?_⟩
  · rw [hmoves]
    exact List.filter_append_perm _ group
  · intro item hitem
    obtain ⟨move, -, rfl⟩ := List.mem_map.1 hitem
    exact Or.inl rfl

lemma values_initial (hgroup : CheckedGroup spillBytes group) (scratchOffset : ℕ) (σ : Machine) :
    Values σ scratchOffset (initialPending group)
      (group.filter fun move => samePhysicalStorage move.sourceLocation move.targetLocation)
      σ := by
  constructor
  · intro item hitem word _
    obtain ⟨move, hmove, rfl⟩ := List.mem_map.1 hitem
    have hfrag := hgroup.fragments move (List.filter_sublist.subset hmove)
    simp only
    rw [resolveScratch_of_inFrame hfrag.source_place hfrag.source_frame hgroup.spill_le]
  · intro move hmove word hword
    obtain ⟨hmem, hsame⟩ := List.mem_filter.1 hmove
    have hfrag := hgroup.fragments move hmem
    exact readComponent_of_address_eq hfrag.target_place hfrag.is_target hword
      (address_of_same hfrag.source_place hfrag.target_place hsame hword).symm _ _

/-- The steps of a checked group are a parallel copy of its fragments. -/
lemma drain_group (hgroup : CheckedGroup spillBytes group) {fuel : ℕ}
    (hfuel : 2 * group.length < fuel) (state : ScheduleState)
    (hsize : ScratchSize state.scratchBytes) :
    ∃ state' new, drain identity fuel (initialPending group) state = some (state', none) ∧
      state'.steps = state.steps ++ new ∧ (∀ step ∈ new, stepEdge step = moveEdge identity) ∧
      state.scratchBytes ≤ state'.scratchBytes ∧ ScratchSize state'.scratchBytes ∧
      ∀ scratchOffset σ, spillBytes ≤ scratchOffset →
        scratchOffset + state'.scratchBytes ≤ 2 ^ 16 →
        ∀ move ∈ group, ∀ word ∈ maskWords move.wordMask,
          (Machine.runSteps σ (new.map (resolveStep scratchOffset))).readComponent
              move.targetParameter move.targetLocation word =
            σ.readComponent move.source move.sourceLocation word := by
  have hmeasure : measure (initialPending group) < fuel := by
    have h1 : (initialPending group).countP isLive ≤ (initialPending group).length :=
      List.countP_le_length
    have h2 : (initialPending group).length ≤ group.length := by
      simp only [initialPending, List.length_map]
      exact List.length_filter_le _ _
    unfold measure
    omega
  obtain ⟨state', new, done', hdrain, hsteps, hedge, hle, hsize', hperm, hvalues⟩ :=
    drain_spec identity hgroup fuel _ _ state (shape_initial group _) hmeasure hsize
  refine ⟨state', new, hdrain, hsteps, hedge, hle, hsize', ?_⟩
  intro scratchOffset σ hoffset hend move hmove word hword
  exact (hvalues σ scratchOffset σ hoffset hend
    (values_initial hgroup scratchOffset σ)).done_value move (hperm.symm.subset hmove) word hword

end Drain

/-! ### The fragments of an edge -/

section Fragments

lemma testBit_of_land_eq {mask copy word : ℕ} (h : (mask &&& copy) = copy)
    (hw : word ∈ maskWords copy) : mask.testBit word = true := by
  have hbit := (mem_maskWords.1 hw).2
  rw [← h, Nat.testBit_land, Bool.and_eq_true] at hbit
  exact hbit.1

lemma componentLocation_of_bit {location : Location} {word : ℕ}
    (hbit : (normalizedWordMask location).testBit word = true) (hkind : location.kind ≠ .none) :
    (componentLocation location word).kind = location.kind ∧
      (componentLocation location word).words = 1 ∧
      (componentLocation location word).wordMask = 2 ^ word ∧
      (location.kind = .core ∨ location.kind = .fixedCycle ∨ location.kind = .spill →
        (componentLocation location word).index < 2 ^ 16) := by
  unfold componentLocation
  simp only [hbit, not_true_eq_false, if_false]
  cases hk : location.kind <;> simp_all [Nat.mod_lt]

/-- Splitting off a component a second time changes nothing. -/
lemma componentLocation_idem {location : Location} {word : ℕ} (hlt : word < 4)
    (hbit : (normalizedWordMask location).testBit word = true) (hkind : location.kind ≠ .none) :
    componentLocation (componentLocation location word) word = componentLocation location word := by
  obtain ⟨hk, hwords, hmask, hindex⟩ := componentLocation_of_bit hbit hkind
  generalize componentLocation location word = fragment at hk hwords hmask hindex ⊢
  have hnorm : normalizedWordMask fragment = 2 ^ word := by
    unfold normalizedWordMask
    rw [hmask, if_pos (Nat.two_pow_pos word).ne']
  have heta : { fragment with words := 1, wordMask := 2 ^ word } = fragment := by
    cases fragment
    simp_all
  unfold componentLocation
  simp only [hnorm, Nat.testBit_two_pow_self, not_true_eq_false, if_false, heta,
    rankWord_two_pow hlt, Nat.add_zero, hwords]
  rw [← hk] at hindex hkind
  cases hkf : fragment.kind <;> simp_all [Nat.mod_eq_of_lt]

lemma readComponent_congr {a b : Location} {word : ℕ}
    (h : componentLocation a word = componentLocation b word) (σ : Machine) (source : ValueId) :
    σ.readComponent source a word = σ.readComponent source b word := by
  have haddr : address a word = address b word := by simp only [address, h]
  simp only [Machine.readComponent, haddr, h]

/-- What is known of a move that has passed the checks of the scheduler. -/
structure CheckedMove (spillBytes : ℕ) (move : EdgeMove) : Prop where
  spill_le : spillBytes ≤ 2 ^ 16 - 1
  valid : validMove move = true
  in_frame : ∀ word ∈ maskWords (copyMask move),
    InFrame spillBytes (componentLocation move.sourceLocation word) ∧
      InFrame spillBytes (componentLocation move.targetLocation word)

/-- A fragment stands for a component of a move. -/
structure FragmentFor (move : EdgeMove) (word : ℕ) (fragment : EdgeMove) : Prop where
  mem : word ∈ maskWords fragment.wordMask
  source_eq : fragment.source = move.source
  parameter_eq : fragment.targetParameter = move.targetParameter
  source_component :
    componentLocation fragment.sourceLocation word = componentLocation move.sourceLocation word
  target_component :
    componentLocation fragment.targetLocation word = componentLocation move.targetLocation word

variable {spillBytes : ℕ} {move : EdgeMove}

lemma CheckedMove.bits (h : CheckedMove spillBytes move) {word : ℕ}
    (hw : word ∈ maskWords (copyMask move)) :
    (normalizedWordMask move.sourceLocation).testBit word = true ∧
      (normalizedWordMask move.targetLocation).testBit word = true := by
  have hvalid := h.valid
  simp only [validMove, Bool.and_eq_true, beq_iff_eq] at hvalid
  exact ⟨testBit_of_land_eq hvalid.1.2 hw, testBit_of_land_eq hvalid.1.1.2 hw⟩

lemma CheckedMove.kinds (h : CheckedMove spillBytes move) :
    move.sourceLocation.kind ≠ .none ∧ isMoveTarget move.targetLocation = true := by
  have hvalid := h.valid
  simp only [validMove, Bool.and_eq_true, isMoveSource, bne_iff_ne] at hvalid
  exact ⟨hvalid.1.1.1.1.1, hvalid.1.1.1.1.2⟩

lemma ne_none_of_isMoveTarget {location : Location} (h : isMoveTarget location = true) :
    location.kind ≠ .none := by
  intro hk
  simp [isMoveTarget, hk] at h

lemma place_componentLocation (hspill : spillBytes ≤ 2 ^ 16 - 1) {location : Location} {word : ℕ}
    (hlt : word < 4) (hbit : (normalizedWordMask location).testBit word = true)
    (hkind : location.kind ≠ .none)
    (hframe : InFrame spillBytes (componentLocation location word)) :
    Place (componentLocation location word) (2 ^ word) := by
  obtain ⟨hk, hwords, hmask, hindex⟩ := componentLocation_of_bit hbit hkind
  refine ⟨hmask, Or.inl ⟨word, hlt, rfl, hwords⟩, fun h => hindex ?_, fun h => ?_⟩
  · rw [hk] at h
    rcases h with h | h
    · exact Or.inl h
    · exact Or.inr (Or.inl h)
  · have := hframe h
    omega

lemma isFragment_fragmentOf (h : CheckedMove spillBytes move) {word : ℕ}
    (hw : word ∈ maskWords (copyMask move)) : IsFragment spillBytes (fragmentOf move word) := by
  obtain ⟨hlt, -⟩ := mem_maskWords.1 hw
  obtain ⟨hsource, htarget⟩ := h.bits hw
  obtain ⟨hsk, htk⟩ := h.kinds
  obtain ⟨hsf, htf⟩ := h.in_frame word hw
  have htn := ne_none_of_isMoveTarget htk
  refine ⟨place_componentLocation h.spill_le hlt hsource hsk hsf,
    place_componentLocation h.spill_le hlt htarget htn htf, ?_, hsf, htf⟩
  have hk := (componentLocation_of_bit htarget htn).1
  unfold isMoveTarget at htk ⊢
  simp only [fragmentOf, hk]
  exact htk

lemma fragmentFor_fragmentOf (h : CheckedMove spillBytes move) {word : ℕ}
    (hw : word ∈ maskWords (copyMask move)) : FragmentFor move word (fragmentOf move word) := by
  obtain ⟨hlt, -⟩ := mem_maskWords.1 hw
  obtain ⟨hsource, htarget⟩ := h.bits hw
  obtain ⟨hsk, htk⟩ := h.kinds
  refine ⟨?_, rfl, rfl, componentLocation_idem hlt hsource hsk,
    componentLocation_idem hlt htarget (ne_none_of_isMoveTarget htk)⟩
  simp [fragmentOf, maskWords_two_pow hlt]

lemma completeQCopy_spec (h : completeQCopy move = true) :
    (move.sourceLocation.kind = .neonQ ∧ move.sourceLocation.words = 4 ∧
      normalizedWordMask move.sourceLocation = 15) ∧
    (move.targetLocation.kind = .neonQ ∧ move.targetLocation.words = 4 ∧
      normalizedWordMask move.targetLocation = 15) ∧ copyMask move = 15 := by
  simp only [completeQCopy, Bool.and_eq_true, beq_iff_eq] at h
  tauto

lemma place_whole {location : Location} (hk : location.kind = .neonQ)
    (hwords : location.words = 4) (hmask : normalizedWordMask location = 15) :
    Place { location with wordMask := normalizedWordMask location } 15 := by
  exact ⟨hmask, Or.inr ⟨rfl, hwords, Or.inl hk⟩, by simp [hk], by simp [hk]⟩

lemma componentLocation_normalized {location : Location}
    (hmask : normalizedWordMask location = 15) (word : ℕ) :
    componentLocation { location with wordMask := normalizedWordMask location } word =
      componentLocation location word := by
  have hnorm : normalizedWordMask { location with wordMask := normalizedWordMask location } =
      normalizedWordMask location := by
    rw [hmask]; rfl
  unfold componentLocation
  simp only [hnorm]

lemma isFragment_normalizedMove (h : completeQCopy move = true) :
    IsFragment spillBytes (normalizedMove move) := by
  obtain ⟨⟨hsk, hsw, hsm⟩, ⟨htk, htw, htm⟩, hcopy⟩ := completeQCopy_spec h
  refine ⟨?_, ?_, ?_, ?_, ?_⟩
  · simp only [normalizedMove, hcopy]; exact place_whole hsk hsw hsm
  · simp only [normalizedMove, hcopy]; exact place_whole htk htw htm
  · simp [normalizedMove, isMoveTarget, htk]
  · intro hk; simp [normalizedMove, hsk] at hk
  · intro hk; simp [normalizedMove, htk] at hk

lemma fragmentFor_normalizedMove (h : completeQCopy move = true) {word : ℕ}
    (hw : word ∈ maskWords (copyMask move)) : FragmentFor move word (normalizedMove move) := by
  obtain ⟨⟨_, _, hsm⟩, ⟨_, _, htm⟩, _⟩ := completeQCopy_spec h
  exact ⟨hw, rfl, rfl, componentLocation_normalized hsm word,
    componentLocation_normalized htm word⟩

lemma fragmentMove_spec (h : CheckedMove spillBytes move) {fragmented : List ℕ}
    {fragments : List EdgeMove} (hf : fragmentMove fragmented move = some fragments) :
    (∀ fragment ∈ fragments, IsFragment spillBytes fragment) ∧
      ∀ word ∈ maskWords (copyMask move), ∃ fragment ∈ fragments, FragmentFor move word fragment := by
  unfold fragmentMove at hf
  split at hf
  · rename_i hatomic
    have hcomplete : completeQCopy move = true := by
      simp only [atomicQ, Bool.and_eq_true] at hatomic
      exact hatomic.1.1
    obtain rfl := Option.some.inj hf
    refine ⟨fun fragment hmem => ?_, fun word hw =>
      ⟨_, List.mem_singleton.2 rfl, fragmentFor_normalizedMove hcomplete hw⟩⟩
    rw [List.mem_singleton.1 hmem]
    exact isFragment_normalizedMove hcomplete
  · simp only at hf
    split at hf
    · simp at hf
    · obtain rfl := Option.some.inj hf
      refine ⟨fun fragment hmem => ?_, fun word hw =>
        ⟨_, List.mem_map_of_mem hw, fragmentFor_fragmentOf h hw⟩⟩
      obtain ⟨word, hw, rfl⟩ := List.mem_map.1 hmem
      exact isFragment_fragmentOf h hw

lemma fragmentGroup_spec {fragmented : List ℕ} :
    ∀ {logicalGroup group : List EdgeMove},
      (∀ move ∈ logicalGroup, CheckedMove spillBytes move) →
      fragmentGroup fragmented logicalGroup = .ok group →
      (∀ fragment ∈ group, IsFragment spillBytes fragment) ∧
        ∀ move ∈ logicalGroup, ∀ word ∈ maskWords (copyMask move),
          ∃ fragment ∈ group, FragmentFor move word fragment := by
  intro logicalGroup
  induction logicalGroup with
  | nil =>
    intro group _ h
    simp only [fragmentGroup, Except.ok.injEq] at h
    subst h
    simp
  | cons move rest ih =>
    intro group hchecked h
    unfold fragmentGroup at h
    cases hfrag : fragmentMove fragmented move with
    | none => simp [hfrag] at h
    | some fragments =>
      cases hrest : fragmentGroup fragmented rest with
      | error bad => simp [hfrag, hrest] at h
      | ok tail =>
        simp only [hfrag, hrest, Except.ok.injEq] at h
        subst h
        obtain ⟨hall, hcover⟩ := fragmentMove_spec (hchecked move (by simp)) hfrag
        obtain ⟨hall', hcover'⟩ :=
          ih (fun m hm => hchecked m (List.mem_cons_of_mem _ hm)) hrest
        refine ⟨fun fragment hmem => ?_, fun m hm word hw => ?_⟩
        · rcases List.mem_append.1 hmem with hmem | hmem
          · exact hall fragment hmem
          · exact hall' fragment hmem
        · rcases List.mem_cons.1 hm with rfl | hm
          · obtain ⟨fragment, hmem, hfor⟩ := hcover word hw
            exact ⟨fragment, List.mem_append_left _ hmem, hfor⟩
          · obtain ⟨fragment, hmem, hfor⟩ := hcover' m hm word hw
            exact ⟨fragment, List.mem_append_right _ hmem, hfor⟩

lemma pairwise_of_targetCollision :
    ∀ {group : List EdgeMove}, targetCollision group = none →
      group.Pairwise fun m n => ¬ locationsOverlap m.targetLocation n.targetLocation = true := by
  intro group
  induction group with
  | nil => intro _; exact List.Pairwise.nil
  | cons left rest ih =>
    intro h
    unfold targetCollision at h
    split at h
    · simp at h
    · rename_i hfind
      exact List.Pairwise.cons (fun m hm => List.find?_eq_none.1 hfind m hm) (ih h)

end Fragments

end VitaSX2.RegionAllocation
