/-
The loop over the pending moves of one edge.

A turn of the loop either copies a move that is ready or, when none is, saves a
source.  `Shape` is what the turns preserve about the pending moves and
`Values` what they preserve about the machine that executes the emitted steps:
a pending move still finds its value, and an emitted one has delivered it.  A
turn without a ready move is only reached when no pending move reads the scratch
slot (`all_live_of_stuck`), so that the slot is free; this is also what makes
the loop end.
-/
import VitaSX2.Lib.Deadlock
import VitaSX2.Region.EdgeCopy.Fragment
import Mathlib.Data.List.Sublists

namespace VitaSX2.RegionAllocation

open Deadlock

/-- A spill location lies in the first bytes of the frame. -/
def InFrame (spillBytes : ℕ) (location : Location) : Prop :=
  location.kind = .spill → location.index + location.words * 4 ≤ spillBytes

instance (spillBytes : ℕ) (location : Location) : Decidable (InFrame spillBytes location) :=
  inferInstanceAs (Decidable (location.kind = .spill → _))

/-- Every deadlock among the moves is made of exact overlaps: the moves of a
list that would each overwrite a source of the list each overwrite exactly such
a source. -/
def DeadlocksExact (moves : List EdgeMove) : Prop :=
  ∀ sub ∈ moves.sublists,
    Deadlocked EdgeMove.targetLocation EdgeMove.sourceLocation
      (fun a b => locationsOverlap a b = true) sub →
    ExactlyDeadlocked EdgeMove.targetLocation EdgeMove.sourceLocation
      (fun a b => samePhysicalStorage a b = true) sub

instance (moves : List EdgeMove) : Decidable (DeadlocksExact moves) :=
  inferInstanceAs (Decidable (∀ sub ∈ moves.sublists, _ → _))

/-- A move as the loop handles it. -/
structure IsFragment (spillBytes : ℕ) (move : EdgeMove) : Prop where
  source_place : Place move.sourceLocation move.wordMask
  target_place : Place move.targetLocation move.wordMask
  is_target : isMoveTarget move.targetLocation = true
  source_frame : InFrame spillBytes move.sourceLocation
  target_frame : InFrame spillBytes move.targetLocation

/-- The fragments of one edge, with the checks that they have passed. -/
structure CheckedGroup (spillBytes : ℕ) (group : List EdgeMove) : Prop where
  spill_le : spillBytes ≤ 2 ^ 16 - 1
  fragments : ∀ move ∈ group, IsFragment spillBytes move
  disjoint : group.Pairwise fun m n =>
    ¬ locationsOverlap m.targetLocation n.targetLocation = true
  exact_deadlocks : DeadlocksExact (movesToSchedule group)

/-- A pending source that has been redirected to the scratch slot. -/
structure InScratch (scratchBytes : ℕ) (item : PendingMove) : Prop where
  kind_eq : item.source.kind = .spill
  index_eq : item.source.index = scratchPlaceholder
  words_eq : item.source.words = item.move.sourceLocation.words
  mask_eq : item.source.wordMask = item.move.wordMask
  words_le : item.source.words * 4 ≤ scratchBytes

structure Shape (scratchBytes : ℕ) (group : List EdgeMove) (pending : List PendingMove)
    (done : List EdgeMove) : Prop where
  sublist : (pending.map PendingMove.move).Sublist (movesToSchedule group)
  perm : (done ++ pending.map PendingMove.move).Perm group
  source_cases : ∀ item ∈ pending,
    item.source = item.move.sourceLocation ∨ InScratch scratchBytes item

structure Values (base : Machine) (scratchOffset : ℕ) (pending : List PendingMove)
    (done : List EdgeMove) (σ : Machine) : Prop where
  pending_value : ∀ item ∈ pending, ∀ word ∈ maskWords item.move.wordMask,
    σ.readComponent item.move.source (resolveScratch scratchOffset item.source) word =
      base.readComponent item.move.source item.move.sourceLocation word
  done_value : ∀ move ∈ done, ∀ word ∈ maskWords move.wordMask,
    σ.readComponent move.targetParameter move.targetLocation word =
      base.readComponent move.source move.sourceLocation word

/-! ### Places and the scratch slot -/

section Places

variable {spillBytes scratchOffset : ℕ} {a b : Location} {mask mask' : ℕ}

lemma resolveScratch_of_inFrame (ha : Place a mask) (hframe : InFrame spillBytes a)
    (hspill : spillBytes ≤ 2 ^ 16 - 1) : resolveScratch scratchOffset a = a := by
  refine if_neg ?_
  rintro ⟨hk, hi⟩
  have := hframe hk
  have := ha.words_pos
  unfold scratchPlaceholder at hi
  omega

lemma not_overlap_scratch (ha : InFrame spillBytes a) (hb : b.kind = .spill)
    (hoffset : spillBytes ≤ b.index) : locationsOverlap a b = false := by
  unfold locationsOverlap
  by_cases hk : a.kind = b.kind
  · have hspill : a.kind = .spill := hk.trans hb
    have := ha hspill
    simp only [hk, ne_eq, not_true_eq_false, if_false, hb, rangesMeet]
    simp only [Bool.and_eq_false_iff, decide_eq_false_iff_not]
    right; omega
  · simp [hk]

lemma locationsOverlap_comm (a b : Location) : locationsOverlap a b = locationsOverlap b a :=
  Bool.eq_iff_iff.2 ⟨locationsOverlap_symm, locationsOverlap_symm⟩

/-- The words of one place are disjoint. -/
lemma Place.cellsDisjoint_self (ha : Place a mask) {word word' : ℕ}
    (hw : word ∈ maskWords mask) (hw' : word' ∈ maskWords mask) (hne : word ≠ word') :
    ∀ x ∈ address a word, ∀ y ∈ address a word', CellsDisjoint x y := by
  intro x hx y hy
  rcases ha.shape with ⟨w, hlt, rfl, _⟩ | ⟨_, hwords, hk⟩
  · rw [maskWords_two_pow hlt, List.mem_singleton] at hw hw'
    exact absurd (hw.trans hw'.symm) hne
  · rw [ha.address_eq hw] at hx
    rw [ha.address_eq hw'] at hy
    right
    rcases hk with hk | hk <;>
      simp only [hk, Place.slotOf, hwords, if_true, Option.mem_def, Option.some.injEq] at hx hy <;>
      subst hx <;> subst hy <;> simp only <;> omega

/-- A step whose source and target are disjoint places delivers its components
and leaves every place alone that its target does not meet. -/
lemma runStep_spec (step : EdgeCopyStep) (σ : Machine)
    (hsource : Place step.sourceLocation step.wordMask)
    (htarget : Place step.targetLocation step.wordMask)
    (hmove : isMoveTarget step.targetLocation = true)
    (hdisj : locationsOverlap step.targetLocation step.sourceLocation = false) :
    (∀ word ∈ maskWords step.wordMask, ∀ target,
      (σ.runStep step).readComponent target step.targetLocation word =
        σ.readComponent step.source step.sourceLocation word) ∧
    ∀ place placeMask, Place place placeMask → locationsOverlap step.targetLocation place = false →
      ∀ word ∈ maskWords placeMask, ∀ source,
        (σ.runStep step).readComponent source place word = σ.readComponent source place word := by
  obtain ⟨hcopied, hframe, hcanonical, hliteral⟩ :=
    Machine.foldl_copyComponent step.source step.sourceLocation step.targetLocation
      (maskWords step.wordMask) σ (maskWords_nodup _)
      (fun word hw => htarget.address_isSome hmove hw)
      (fun word hw word' hw' hne => htarget.cellsDisjoint_self hw hw' hne)
      (fun word hw word' hw' => htarget.cellsDisjoint hsource hdisj hw hw')
  refine ⟨hcopied, fun place placeMask hplace hoverlap word hw source => ?_⟩
  unfold Machine.readComponent
  cases hcell : address place word with
  | none => simp only [Machine.runStep, hcanonical, hliteral]
  | some cell =>
    exact hframe cell fun word' hw' x hx =>
      htarget.cellsDisjoint hplace hoverlap hw' hw x hx cell hcell

lemma samePhysicalStorage_cases (h : samePhysicalStorage a b = true) :
    a.kind = b.kind ∧ a.index = b.index ∧ a.words = b.words ∧ isMoveTarget a = true ∧
      (b.kind = .neonQ → laneMask a = laneMask b) := by
  unfold samePhysicalStorage at h
  split at h
  · simp at h
  · rename_i hne
    push Not at hne
    obtain ⟨hk, hi, hwords⟩ := hne
    refine ⟨hk, hi, hwords, ?_, ?_⟩
    · rw [hk] at h
      unfold isMoveTarget
      rw [hk]
      cases hkb : b.kind <;> simp_all
    · intro hb
      rw [hk, hb] at h
      simpa using h

/-- Each word of a place is, under the same slot, a word of every place with the
same storage. -/
lemma exists_word_of_same (ha : Place a mask) (hb : Place b mask')
    (hsame : samePhysicalStorage a b = true) {word : ℕ} (hw : word ∈ maskWords mask) :
    ∃ word' ∈ maskWords mask', address a word = address b word' ∧
      Place.slotOf a word = Place.slotOf b word' := by
  obtain ⟨hk, hi, hwords, -, hlane⟩ := samePhysicalStorage_cases hsame
  rw [ha.laneMask_eq, hb.laneMask_eq] at hlane
  by_cases hmask : mask = mask'
  · subst hmask
    refine ⟨word, hw, ?_, by rw [Place.slotOf, Place.slotOf, hwords]⟩
    rw [ha.address_eq hw, hb.address_eq hw, hk, hi, Place.slotOf, Place.slotOf, hwords]
  · -- one-word places, which differ in the component they stand for
    have hone : ∀ {c : Location} {m : ℕ}, Place c m → c.words = 1 → ∃ w < 4, m = 2 ^ w := by
      rintro c m hc hc1
      rcases hc.shape with ⟨w, hlt, hm, _⟩ | ⟨_, h4, _⟩
      · exact ⟨w, hlt, hm⟩
      · omega
    have hwords1 : b.words = 1 := by
      rcases ha.shape with ⟨_, _, _, h1⟩ | ⟨hm, h4, _⟩
      · omega
      · rcases hb.shape with ⟨_, _, _, h1⟩ | ⟨hm', _, _⟩
        · omega
        · exact absurd (hm.trans hm'.symm) hmask
    obtain ⟨w, hlt, rfl⟩ := hone ha (hwords.trans hwords1)
    obtain ⟨w', hlt', rfl⟩ := hone hb hwords1
    have hw' : w' ∈ maskWords (2 ^ w') := by simp [maskWords_two_pow hlt']
    have h4 : a.words ≠ 4 := by omega
    have h4' : b.words ≠ 4 := by omega
    refine ⟨w', hw', ?_, by simp [Place.slotOf, h4, h4']⟩
    rw [ha.address_eq hw, hb.address_eq hw', hk]
    have hneon : b.kind ≠ .neonQ := fun h => hmask (hlane h)
    cases hkb : b.kind <;> simp_all [Place.slotOf]

/-- Places with the same storage hold the same words. -/
lemma readComponent_of_address_eq {σ : Machine} (ha : Place a mask)
    (htarget : isMoveTarget a = true) {word word' : ℕ} (hw : word ∈ maskWords mask)
    (haddr : address a word = address b word') (source target : ValueId) :
    σ.readComponent source a word = σ.readComponent target b word' := by
  obtain ⟨cell, hcell⟩ := Option.isSome_iff_exists.1 (ha.address_isSome htarget hw)
  rw [Machine.readComponent_of_address hcell, Machine.readComponent_of_address (haddr ▸ hcell)]

end Places

section Loop

variable {spillBytes scratchBytes : ℕ} {group : List EdgeMove} {pending : List PendingMove}
  {done : List EdgeMove}

namespace Shape

lemma isFragment (hgroup : CheckedGroup spillBytes group)
    (hshape : Shape scratchBytes group pending done) {item : PendingMove}
    (h : item ∈ pending) : IsFragment spillBytes item.move :=
  hgroup.fragments _ ((List.filter_sublist.subset (hshape.sublist.subset
    (List.mem_map_of_mem h))))

lemma pairwise (hgroup : CheckedGroup spillBytes group)
    (hshape : Shape scratchBytes group pending done) :
    pending.Pairwise fun m n =>
      ¬ locationsOverlap m.move.targetLocation n.move.targetLocation = true :=
  List.pairwise_map.1 (hgroup.disjoint.sublist (hshape.sublist.trans List.filter_sublist))

/-- The place from which a pending move reads, once the scratch slot is allocated. -/
lemma resolved_place (hgroup : CheckedGroup spillBytes group)
    (hshape : Shape scratchBytes group pending done) {scratchOffset : ℕ}
    (hend : scratchOffset + scratchBytes ≤ 2 ^ 16) {item : PendingMove} (h : item ∈ pending) :
    Place (resolveScratch scratchOffset item.source) item.move.wordMask := by
  have hfrag := hshape.isFragment hgroup h
  rcases hshape.source_cases item h with hlive | hscratch
  · rw [hlive, resolveScratch_of_inFrame hfrag.source_place hfrag.source_frame hgroup.spill_le]
    exact hfrag.source_place
  · have hres : resolveScratch scratchOffset item.source =
        { item.source with index := scratchOffset } :=
      if_pos ⟨hscratch.kind_eq, hscratch.index_eq⟩
    rw [hres]
    have hle := hscratch.words_le
    refine ⟨hscratch.mask_eq, ?_, by simp [hscratch.kind_eq], fun _ => by simp only; omega⟩
    rcases hfrag.source_place.shape with ⟨w, hlt, hmask, hwords⟩ | ⟨hmask, hwords, _⟩
    · exact Or.inl ⟨w, hlt, hmask, hscratch.words_eq.trans hwords⟩
    · exact Or.inr ⟨hmask, hscratch.words_eq.trans hwords, Or.inr hscratch.kind_eq⟩

/-- A target that meets no pending source as written meets none once the scratch
slot is allocated. -/
lemma resolved_not_overlap (hgroup : CheckedGroup spillBytes group)
    (hshape : Shape scratchBytes group pending done) {scratchOffset : ℕ}
    (hoffset : spillBytes ≤ scratchOffset) {target : Location} (htarget : InFrame spillBytes target)
    {item : PendingMove} (h : item ∈ pending)
    (hfree : locationsOverlap target item.source = false) :
    locationsOverlap target (resolveScratch scratchOffset item.source) = false := by
  have hfrag := hshape.isFragment hgroup h
  rcases hshape.source_cases item h with hlive | hscratch
  · rw [hlive] at hfree ⊢
    rwa [resolveScratch_of_inFrame hfrag.source_place hfrag.source_frame hgroup.spill_le]
  · have hres : resolveScratch scratchOffset item.source =
        { item.source with index := scratchOffset } :=
      if_pos ⟨hscratch.kind_eq, hscratch.index_eq⟩
    rw [hres]
    exact not_overlap_scratch htarget hscratch.kind_eq hoffset

end Shape

/-- The pending move still reads its own source. -/
def isLive (item : PendingMove) : Bool :=
  item.source == item.move.sourceLocation

/-- When no pending move is ready, none of them reads the scratch slot. -/
lemma all_live_of_stuck (hgroup : CheckedGroup spillBytes group)
    (hshape : Shape scratchBytes group pending done)
    (hstuck : pending.find? (isReady pending) = none) : ∀ item ∈ pending, isLive item = true := by
  refine all_live_of_deadlocked (fun item : PendingMove => item.move.targetLocation)
    (fun item : PendingMove => item.move.sourceLocation)
    (fun a b => locationsOverlap a b = true)
    (fun a b => samePhysicalStorage a b = true ∧ 0 < b.words) isLive
    (hshape.pairwise hgroup) (fun _ _ => locationsOverlap_symm)
    (fun a b c hac hbc => locationsOverlap_of_same_same hac.1 hbc.1 hac.2)
    (fun a b c hac hbc => locationsOverlap_of_same hac hbc.1) ?_ ?_
  · intro item hitem
    have hblocked := List.find?_eq_none.1 hstuck item hitem
    simp only [isReady, List.all_eq_true, not_forall, Bool.not_eq_eq_eq_not] at hblocked
    obtain ⟨other, hother, hov⟩ := hblocked
    have hov : locationsOverlap item.move.targetLocation other.source = true := by simpa using hov
    rcases hshape.source_cases other hother with hlive | hscratch
    · exact ⟨other, hother, by simp [isLive, hlive], by rw [← hlive]; exact hov⟩
    · have hframe := (hshape.isFragment hgroup hitem).target_frame
      have hindex : spillBytes ≤ other.source.index := by
        rw [hscratch.index_eq, scratchPlaceholder]; exact hgroup.spill_le
      rw [not_overlap_scratch hframe hscratch.kind_eq hindex] at hov
      exact absurd hov (by simp)
  · intro sub hsub hdead
    have hsub' : (sub.map PendingMove.move).Sublist (movesToSchedule group) :=
      (hsub.map _).trans hshape.sublist
    have hdead' : Deadlocked EdgeMove.targetLocation EdgeMove.sourceLocation
        (fun a b => locationsOverlap a b = true) (sub.map PendingMove.move) := by
      intro m hm
      obtain ⟨item, hitem, rfl⟩ := List.mem_map.1 hm
      obtain ⟨other, hother, hov⟩ := hdead item hitem
      exact ⟨other.move, List.mem_map_of_mem hother, hov⟩
    have hexact := hgroup.exact_deadlocks _ (List.mem_sublists.2 hsub') hdead'
    intro item hitem
    obtain ⟨m, hm, hsame⟩ := hexact item.move (List.mem_map_of_mem hitem)
    obtain ⟨other, hother, rfl⟩ := List.mem_map.1 hm
    exact ⟨other, hother, hsame,
      (hshape.isFragment hgroup (hsub.subset hother)).source_place.words_pos⟩

/-! ### One turn of the loop -/

/-- What decreases with every turn: a copy removes a pending move, and a save
redirects one that still reads its own source. -/
def measure (pending : List PendingMove) : ℕ :=
  pending.length + pending.countP isLive

variable {base σ : Machine} {scratchOffset : ℕ} {identity : EdgeMove}

/-- What a turn of the loop establishes, for the steps it leaves to be emitted. -/
structure Turn (spillBytes scratchBytes : ℕ) (group : List EdgeMove) (pending : List PendingMove)
    (done : List EdgeMove) (identity : EdgeMove) (step : EdgeCopyStep)
    (pending' : List PendingMove) (bytes : ℕ) (done' : List EdgeMove) : Prop where
  eq_next : drainStep identity pending = .next step pending' bytes
  edge : step.sourceBlock = identity.sourceBlock ∧ step.targetBlock = identity.targetBlock ∧
    step.edgeIndex = identity.edgeIndex
  bytes_cases : bytes = 0 ∨ bytes = 4 ∨ bytes = 16
  shape : Shape (max scratchBytes bytes) group pending' done'
  lt : measure pending' < measure pending
  values : ∀ base scratchOffset σ, spillBytes ≤ scratchOffset →
    scratchOffset + max scratchBytes bytes ≤ 2 ^ 16 →
    Values base scratchOffset pending done σ →
    Values base scratchOffset pending' done' (σ.runStep (resolveStep scratchOffset step))

lemma InScratch.mono {item : PendingMove} {bytes : ℕ} (h : InScratch scratchBytes item)
    (hle : scratchBytes ≤ bytes) : InScratch bytes item :=
  ⟨h.kind_eq, h.index_eq, h.words_eq, h.mask_eq, h.words_le.trans hle⟩

lemma InScratch.not_live {item : PendingMove} (h : InScratch scratchBytes item)
    (hfrag : IsFragment spillBytes item.move) (hspill : spillBytes ≤ 2 ^ 16 - 1) :
    isLive item = false := by
  unfold isLive
  rw [beq_eq_false_iff_ne]
  intro heq
  have hk : item.move.sourceLocation.kind = .spill := heq ▸ h.kind_eq
  have hi : item.move.sourceLocation.index = scratchPlaceholder := heq ▸ h.index_eq
  have := hfrag.source_frame hk
  have := hfrag.source_place.words_pos
  unfold scratchPlaceholder at hi
  omega

lemma drainStep_of_ready {item : PendingMove}
    (hfind : pending.find? (isReady pending) = some item) :
    drainStep identity pending =
      .next (copyStep identity item) (pending.eraseP (isReady pending)) 0 := by
  cases pending with
  | nil => simp at hfind
  | cons breaker rest => simp only [drainStep, hfind]

/-- A ready move is copied. -/
lemma turn_of_ready (hgroup : CheckedGroup spillBytes group)
    (hshape : Shape scratchBytes group pending done) {item : PendingMove}
    (hfind : pending.find? (isReady pending) = some item) :
    Turn spillBytes scratchBytes group pending done identity (copyStep identity item)
      (pending.eraseP (isReady pending)) 0 (item.move :: done) := by
  obtain ⟨hready, before, after, hsplit, hbefore⟩ := List.find?_eq_some_iff_append.1 hfind
  have hitem : item ∈ pending := by rw [hsplit]; simp
  have hfrag := hshape.isFragment hgroup hitem
  have herase : pending.eraseP (isReady pending) = before ++ after := by
    have hskip : ∀ other ∈ before, ¬ isReady pending other = true := by
      intro other hother
      simpa using hbefore other hother
    conv_lhs => rw [hsplit]
    rw [List.eraseP_append_right _ (by rw [← hsplit]; exact hskip),
      List.eraseP_cons_of_pos (by rw [← hsplit]; exact hready)]
  have hsub : (before ++ after).Sublist pending := by
    rw [hsplit]; exact (List.Sublist.refl _).append (List.sublist_cons_self _ _)
  have hmask : (copyStep identity item).wordMask = item.move.wordMask :=
    if_pos hfrag.target_place.mask_ne_zero
  have hfree : ∀ other ∈ pending,
      locationsOverlap item.move.targetLocation other.source = false := by
    intro other hother
    have := List.all_eq_true.1 hready other hother
    simpa using this
  refine ⟨?_, ⟨rfl, rfl, rfl⟩, Or.inl rfl, ⟨?_, ?_, ?_⟩, ?_, ?_⟩
  · exact drainStep_of_ready hfind
  · rw [herase]
    exact (hsub.map _).trans hshape.sublist
  · rw [herase]
    refine List.Perm.trans ?_ hshape.perm
    rw [hsplit]
    simp only [List.map_append, List.map_cons, List.cons_append]
    rw [← List.append_assoc, ← List.append_assoc]
    exact (@List.perm_middle _ _ (done ++ before.map _) _).symm
  · rw [herase]
    intro other hother
    rw [Nat.max_zero]
    exact hshape.source_cases other (hsub.subset hother)
  · rw [herase, hsplit]
    simp only [measure, List.length_append, List.length_cons, List.countP_append, List.countP_cons]
    omega
  · intro base scratchOffset σ hoffset hend hvalues
    rw [Nat.max_zero] at hend
    have htarget : resolveScratch scratchOffset item.move.targetLocation =
        item.move.targetLocation :=
      resolveScratch_of_inFrame hfrag.target_place hfrag.target_frame hgroup.spill_le
    have hspec := runStep_spec (resolveStep scratchOffset (copyStep identity item)) σ
      (by rw [resolveStep, hmask]; exact hshape.resolved_place hgroup hend hitem)
      (by rw [resolveStep, hmask]; simp only [copyStep, htarget]; exact hfrag.target_place)
      (by simp only [resolveStep, copyStep, htarget]; exact hfrag.is_target)
      (by
        simp only [resolveStep, copyStep, htarget]
        exact hshape.resolved_not_overlap hgroup hoffset hfrag.target_frame hitem
          (hfree item hitem))
    obtain ⟨hcopied, hkept⟩ := hspec
    simp only [resolveStep, copyStep, htarget] at hcopied hkept
    rw [if_pos hfrag.target_place.mask_ne_zero] at hcopied hkept
    constructor
    · rw [herase]
      intro other hother word hword
      have hother' := hsub.subset hother
      rw [resolveStep, copyStep]
      simp only [htarget, if_pos hfrag.target_place.mask_ne_zero]
      rw [hkept _ _ (hshape.resolved_place hgroup hend hother')
        (hshape.resolved_not_overlap hgroup hoffset hfrag.target_frame hother'
          (hfree other hother')) word hword]
      exact hvalues.pending_value other hother' word hword
    · intro move hmove word hword
      rw [resolveStep, copyStep]
      simp only [htarget, if_pos hfrag.target_place.mask_ne_zero]
      rcases List.mem_cons.1 hmove with rfl | hmove
      · rw [hcopied word hword]
        exact hvalues.pending_value item hitem word hword
      · -- an earlier target is disjoint from this one
        have hmem : move ∈ group := hshape.perm.subset (List.mem_append_left _ hmove)
        have hpair := (List.Perm.pairwise_iff (fun {a b} hab hba =>
          hab (locationsOverlap_symm hba)) hshape.perm).2 hgroup.disjoint
        have hdisj := (List.pairwise_append.1 hpair).2.2 move hmove item.move
          (List.mem_map_of_mem hitem)
        rw [locationsOverlap_comm, Bool.not_eq_true] at hdisj
        rw [hkept _ _ (hgroup.fragments move hmem).target_place hdisj word hword]
        exact hvalues.done_value move hmove word hword

lemma redirectToScratch_of_same {saved : Location} {item : PendingMove}
    (h : samePhysicalStorage item.source saved = true) :
    redirectToScratch saved item =
      { item with
        source :=
          { placeholderFor saved with
            wordMask := normalizedWordMask item.move.sourceLocation } } :=
  if_pos h

lemma redirectToScratch_of_ne {saved : Location} {item : PendingMove}
    (h : ¬ samePhysicalStorage item.source saved = true) : redirectToScratch saved item = item :=
  if_neg h

@[simp] lemma redirectToScratch_move (saved : Location) (item : PendingMove) :
    (redirectToScratch saved item).move = item.move := by
  unfold redirectToScratch
  split <;> rfl

/-- Without a ready move, the source of every pending move is a pending target. -/
lemma exists_target_of_stuck (hgroup : CheckedGroup spillBytes group)
    (hshape : Shape scratchBytes group pending done)
    (hstuck : pending.find? (isReady pending) = none) {item : PendingMove} (h : item ∈ pending) :
    ∃ other ∈ pending,
      samePhysicalStorage other.move.targetLocation item.move.sourceLocation = true := by
  have hdead : Deadlocked EdgeMove.targetLocation EdgeMove.sourceLocation
      (fun a b => locationsOverlap a b = true) (pending.map PendingMove.move) := by
    intro m hm
    obtain ⟨item, hitem, rfl⟩ := List.mem_map.1 hm
    have hblocked := List.find?_eq_none.1 hstuck item hitem
    simp only [isReady, List.all_eq_true, not_forall, Bool.not_eq_eq_eq_not] at hblocked
    obtain ⟨other, hother, hov⟩ := hblocked
    have hlive : other.source = other.move.sourceLocation := by
      simpa [isLive] using all_live_of_stuck hgroup hshape hstuck other hother
    exact ⟨other.move, List.mem_map_of_mem hother, by rw [← hlive]; simpa using hov⟩
  have hexact := hgroup.exact_deadlocks _ (List.mem_sublists.2 hshape.sublist) hdead
  obtain ⟨m, hm, hsame, -⟩ := exists_target_of_source
    EdgeMove.targetLocation EdgeMove.sourceLocation (fun a b => locationsOverlap a b = true)
    (fun a b => samePhysicalStorage a b = true ∧ 0 < b.words)
    (List.pairwise_map.2 (hshape.pairwise hgroup))
    (fun a b c hac hbc => locationsOverlap_of_same_same hac.1 hbc.1 hac.2)
    (fun m hm => by
      obtain ⟨n, hn, hsame⟩ := hexact m hm
      obtain ⟨other, hother, rfl⟩ := List.mem_map.1 hn
      exact ⟨other.move, hn, hsame, (hshape.isFragment hgroup hother).source_place.words_pos⟩)
    item.move (List.mem_map_of_mem h)
  obtain ⟨other, hother, rfl⟩ := List.mem_map.1 hm
  exact ⟨other, hother, hsame⟩

lemma drainStep_of_stuck {breaker : PendingMove} {rest : List PendingMove}
    (hstuck : (breaker :: rest).find? (isReady (breaker :: rest)) = none)
    (himm : breaker.source.kind ≠ .immediate) (hnone : breaker.source.kind ≠ .none)
    (hwords : breaker.source.words = 1 ∨ breaker.source.words = 4) :
    drainStep identity (breaker :: rest) =
      .next (saveScratchStep identity breaker)
        ((breaker :: rest).map (redirectToScratch breaker.source)) (breaker.source.words * 4) := by
  simp only [drainStep, hstuck]
  rw [if_neg (by simp [himm, hnone]), if_neg (by omega)]

/-- Without a ready move a source is saved. -/
lemma turn_of_stuck (hgroup : CheckedGroup spillBytes group)
    {breaker : PendingMove} {rest : List PendingMove}
    (hshape : Shape scratchBytes group (breaker :: rest) done)
    (hstuck : (breaker :: rest).find? (isReady (breaker :: rest)) = none) :
    Turn spillBytes scratchBytes group (breaker :: rest) done identity
      (saveScratchStep identity breaker)
      ((breaker :: rest).map (redirectToScratch breaker.source))
      (breaker.source.words * 4) done := by
  have hsource : ∀ item ∈ breaker :: rest, item.source = item.move.sourceLocation := by
    intro item hitem
    simpa [isLive] using all_live_of_stuck hgroup hshape hstuck item hitem
  have hbreaker : breaker ∈ breaker :: rest := by simp
  have hfrag := hshape.isFragment hgroup hbreaker
  have hplace : Place breaker.source breaker.move.wordMask := by
    rw [hsource breaker hbreaker]; exact hfrag.source_place
  have hwords : breaker.source.words = 1 ∨ breaker.source.words = 4 := by
    rcases hplace.shape with ⟨_, _, _, h⟩ | ⟨_, h, _⟩
    · exact Or.inl h
    · exact Or.inr h
  have htarget : isMoveTarget breaker.source = true := by
    obtain ⟨other, hother, hsame⟩ := exists_target_of_stuck hgroup hshape hstuck hbreaker
    rw [hsource breaker hbreaker]
    exact (samePhysicalStorage_cases (samePhysicalStorage_symm hsame)).2.2.2.1
  have hmask : normalizedWordMask breaker.source = breaker.move.wordMask :=
    hplace.normalizedWordMask_eq
  -- what a redirected move looks like
  have hredirect : ∀ item ∈ breaker :: rest,
      samePhysicalStorage item.source breaker.source = true →
      InScratch (breaker.source.words * 4) (redirectToScratch breaker.source item) := by
    intro item hitem hsame
    have hwords_eq := (samePhysicalStorage_cases hsame).2.2.1
    rw [hsource item hitem] at hwords_eq
    rw [redirectToScratch_of_same hsame]
    exact ⟨rfl, rfl, hwords_eq.symm,
      (hshape.isFragment hgroup hitem).source_place.normalizedWordMask_eq, le_refl _⟩
  have hself : samePhysicalStorage breaker.source breaker.source = true := by
    unfold samePhysicalStorage isMoveTarget at *
    cases hk : breaker.source.kind <;> simp_all
  have hmoves : ((breaker :: rest).map (redirectToScratch breaker.source)).map PendingMove.move =
      (breaker :: rest).map PendingMove.move := by
    simp
  refine ⟨?_, ⟨rfl, rfl, rfl⟩, by omega, ⟨?_, ?_, ?_⟩, ?_, ?_⟩
  · refine drainStep_of_stuck hstuck ?_ ?_ hwords <;> intro hk <;>
      simp [isMoveTarget, hk] at htarget
  · rw [hmoves]; exact hshape.sublist
  · rw [hmoves]; exact hshape.perm
  · intro item' hitem'
    obtain ⟨item, hitem, rfl⟩ := List.mem_map.1 hitem'
    by_cases hsame : samePhysicalStorage item.source breaker.source = true
    · exact Or.inr ((hredirect item hitem hsame).mono (le_max_right _ _))
    · rw [redirectToScratch_of_ne hsame]
      exact Or.inl (hsource item hitem)
  · have hnot : isLive (redirectToScratch breaker.source breaker) = false :=
      (hredirect breaker hbreaker hself).not_live (by simpa using hfrag) hgroup.spill_le
    have hall : (breaker :: rest).countP isLive = (breaker :: rest).length :=
      List.countP_eq_length.2 (all_live_of_stuck hgroup hshape hstuck)
    have hle : (rest.map (redirectToScratch breaker.source)).countP isLive ≤
        (rest.map (redirectToScratch breaker.source)).length := List.countP_le_length
    rw [measure, measure, hall]
    simp only [List.map_cons, List.length_cons, List.countP_cons, hnot, List.length_map] at hle ⊢
    simp only [Bool.false_eq_true, if_false]
    omega
  · intro base scratchOffset σ hoffset hend hvalues
    have hle : breaker.source.words * 4 ≤ max scratchBytes (breaker.source.words * 4) :=
      le_max_right _ _
    set slot : Location :=
      { placeholderFor breaker.source with index := scratchOffset } with hslot
    have hresolve : resolveScratch scratchOffset (placeholderFor breaker.source) = slot :=
      if_pos ⟨rfl, rfl⟩
    have hresolveSource : resolveScratch scratchOffset breaker.source = breaker.source := by
      rw [hsource breaker hbreaker]
      exact resolveScratch_of_inFrame hfrag.source_place hfrag.source_frame hgroup.spill_le
    have hslotPlace : Place slot breaker.move.wordMask := by
      refine ⟨hmask, ?_, by simp [hslot, placeholderFor], fun _ => ?_⟩
      · rcases hplace.shape with ⟨w, hlt, hm, h1⟩ | ⟨hm, h4, _⟩
        · exact Or.inl ⟨w, hlt, hm, h1⟩
        · exact Or.inr ⟨hm, h4, Or.inr rfl⟩
      · simp only [hslot, placeholderFor]; omega
    have hfree : ∀ place, InFrame spillBytes place → locationsOverlap slot place = false := by
      intro place hframe
      rw [locationsOverlap_comm]
      exact not_overlap_scratch hframe rfl hoffset
    have hstep : resolveStep scratchOffset (saveScratchStep identity breaker) =
        { saveScratchStep identity breaker with
          sourceLocation := breaker.source
          targetLocation := slot } := by
      simp only [resolveStep, saveScratchStep, hresolve, hresolveSource]
    obtain ⟨hsaved, hkept⟩ := runStep_spec
      (resolveStep scratchOffset (saveScratchStep identity breaker)) σ
      (by rw [hstep]; simp only [saveScratchStep, hmask]; exact hplace)
      (by rw [hstep]; simp only [saveScratchStep, hmask]; exact hslotPlace)
      (by rw [hstep]; rfl)
      (by
        rw [hstep]
        refine hfree _ ?_
        rw [hsource breaker hbreaker]
        exact hfrag.source_frame)
    rw [hstep] at hsaved hkept ⊢
    simp only [saveScratchStep, hmask] at hsaved hkept ⊢
    constructor
    · intro item' hitem' word hword
      obtain ⟨item, hitem, rfl⟩ := List.mem_map.1 hitem'
      have hifrag := hshape.isFragment hgroup hitem
      have hvalue := hvalues.pending_value item hitem
      rw [redirectToScratch_move] at hword ⊢
      have hiplace : Place item.source item.move.wordMask := by
        rw [hsource item hitem]; exact hifrag.source_place
      have hires : resolveScratch scratchOffset item.source = item.source := by
        rw [hsource item hitem]
        exact resolveScratch_of_inFrame hifrag.source_place hifrag.source_frame hgroup.spill_le
      by_cases hsame : samePhysicalStorage item.source breaker.source = true
      · -- the word is read from the slot of the same word of the saved source
        obtain ⟨word', hword', haddr, hslotEq⟩ :=
          exists_word_of_same hiplace hplace hsame hword
        have hscratch := hredirect item hitem hsame
        have hplace' : Place (resolveScratch scratchOffset
            (redirectToScratch breaker.source item).source) item.move.wordMask := by
          rw [redirectToScratch_of_same hsame]
          refine ⟨?_, ?_, ?_, fun _ => ?_⟩
          · exact hifrag.source_place.normalizedWordMask_eq
          · have hwords_eq := (samePhysicalStorage_cases hsame).2.2.1
            rcases hiplace.shape with ⟨w, hlt, hm, h1⟩ | ⟨hm, h4, _⟩
            · exact Or.inl ⟨w, hlt, hm, hwords_eq ▸ h1⟩
            · exact Or.inr ⟨hm, hwords_eq ▸ h4, Or.inr rfl⟩
          · rintro (h | h) <;> cases h
          · simp only [resolveScratch, placeholderFor, and_self, if_true]; omega
        have hread : address (resolveScratch scratchOffset
            (redirectToScratch breaker.source item).source) word = address slot word' := by
          rw [hplace'.address_eq hword, hslotPlace.address_eq hword']
          rw [redirectToScratch_of_same hsame]
          have hwords_eq := (samePhysicalStorage_cases hsame).2.2.1
          simp only [resolveScratch, placeholderFor, hslot, and_self, if_true, Place.slotOf]
          simp only [Place.slotOf, hwords_eq] at hslotEq
          rw [hslotEq]
        rw [readComponent_of_address_eq hplace'
          (by rw [redirectToScratch_of_same hsame]; rfl) hword hread _ breaker.move.source,
          hsaved word' hword' breaker.move.source,
          readComponent_of_address_eq hplace htarget hword' haddr.symm _ item.move.source,
          ← hvalue word hword, hires]
      · rw [redirectToScratch_of_ne hsame, hires,
          hkept _ _ hiplace (hfree _ (by rw [hsource item hitem]; exact hifrag.source_frame))
            word hword, ← hvalue word hword, hires]
    · intro move hmove word hword
      have hmem : move ∈ group := hshape.perm.subset (List.mem_append_left _ hmove)
      have hmfrag := hgroup.fragments move hmem
      rw [hkept _ _ hmfrag.target_place (hfree _ hmfrag.target_frame) word hword]
      exact hvalues.done_value move hmove word hword

end Loop

end VitaSX2.RegionAllocation
