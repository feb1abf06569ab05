/-
What the linear scan can do to the locations.

Every step of the scan gives a register below the allocatable ones to an interval
that had no location before the scan of its block, or puts such an interval into the
frame.  Everything that later modules know about the scan follows from this.
-/
import VitaSX2.Region.Locations.Scan

namespace VitaSX2.RegionAllocation

/-- An interval without its location. -/
def Interval.bare (interval : Interval) : Interval := { interval with location := {} }

/-! ### Single moves -/

namespace Assignment

variable {assignment assignment' : Assignment} {index i : ℕ}

lemma at_eq {interval : Interval} (h : assignment.intervals[i]? = some interval) :
    assignment.at i = interval := by
  rw [Assignment.at, List.getD_eq_getElem?_getD, h, Option.getD_some]

lemma at_setLocation_of_ne (location : Location) (h : index ≠ i) :
    (assignment.setLocation index location).at i = assignment.at i := by
  rw [Assignment.at, Assignment.at, setLocation, List.getD_eq_getElem?_getD,
    List.getD_eq_getElem?_getD, List.getElem?_modify]
  simp [h]

lemma at_setLocation_self (location : Location) (h : i < assignment.intervals.length) :
    (assignment.setLocation i location).at i = { assignment.at i with location := location } := by
  simp [Assignment.at, setLocation, List.getD_eq_getElem?_getD, h]

/-- An interval has the new location, or what it had before. -/
lemma at_setLocation_cases (location : Location) :
    ((assignment.setLocation index location).at i).location = location ∨
      (assignment.setLocation index location).at i = assignment.at i := by
  by_cases hne : index = i
  · subst hne
    by_cases hlt : index < assignment.intervals.length
    · rw [at_setLocation_self location hlt]
      exact .inl rfl
    · refine .inr ?_
      simp [Assignment.at, setLocation, List.getD_eq_getElem?_getD, not_lt.mp hlt]
  · exact .inr (at_setLocation_of_ne location hne)

lemma bare_setLocation (location : Location) :
    (assignment.setLocation index location).intervals.map Interval.bare =
      assignment.intervals.map Interval.bare := by
  refine List.ext_getElem? fun i => ?_
  simp only [setLocation, List.getElem?_map, List.getElem?_modify, Option.map_eq_map, Option.map_map]
  congr 1
  funext interval
  simp only [Function.comp_apply]
  split <;> rfl

lemma toFrame_intervals (words wordMask group : ℕ) :
    (assignment.toFrame index words wordMask group).intervals =
      (assignment.setLocation index ⟨.spill, 0, words % 2 ^ 8, wordMask⟩).intervals := rfl

/-- What `allocate_spill` leaves behind. -/
lemma allocateSpill_cases {representation : Representation}
    (h : assignment.allocateSpill index representation = some assignment') :
    ∃ words, assignment' = assignment.toFrame index words representation.wordMask index := by
  dsimp only [allocateSpill] at h
  generalize (if representation.kind = .neonQ then 16 else representation.words * 4) = bytes at h
  split at h
  · cases h
  split at h
  · cases h
  cases h
  exact ⟨_, rfl⟩

end Assignment

namespace LocationInput

variable (input : LocationInput)

/-- A register that the scan may give out. -/
structure Allocatable (location : Location) : Prop where
  kind : location.kind = .core ∨ location.kind = .vfpS ∨ location.kind = .neonQ
  core : location.kind = .core →
    location.index + location.words ≤ input.allocatableCoreRegisterWords

/-- The moves of a scan that changes the locations of certain intervals only. -/
inductive Moves (allowed : ℕ → Prop) : Assignment → Assignment → Prop
  | refl (assignment : Assignment) : Moves allowed assignment assignment
  | spill {before middle after : Assignment} (index : ℕ) (representation : Representation)
      (h : Moves allowed before middle) (hindex : allowed index)
      (hspill : middle.allocateSpill index representation = some after) : Moves allowed before after
  | register {before middle : Assignment} (index : ℕ) (location : Location)
      (h : Moves allowed before middle) (hindex : allowed index)
      (hlocation : input.Allocatable location) :
      Moves allowed before (middle.setLocation index location)

variable {input} {allowed : ℕ → Prop} {plan : AffinityPlan} {blockIndex : ℕ}

namespace Moves

variable {before middle after : Assignment}

lemma trans (h : input.Moves allowed before middle) (h' : input.Moves allowed middle after) :
    input.Moves allowed before after := by
  induction h' with
  | refl => exact h
  | spill index representation _ hindex hspill ih => exact ih.spill index representation hindex hspill
  | register index location _ hindex hlocation ih => exact ih.register index location hindex hlocation

lemma mono {wider : ℕ → Prop} (hsub : ∀ i, allowed i → wider i)
    (h : input.Moves allowed before after) : input.Moves wider before after := by
  induction h with
  | refl => exact .refl _
  | spill index representation _ hindex hspill ih =>
    exact ih.spill index representation (hsub _ hindex) hspill
  | register index location _ hindex hlocation ih =>
    exact ih.register index location (hsub _ hindex) hlocation

/-- Apart from their locations, the intervals stay as they are. -/
lemma bare (h : input.Moves allowed before after) :
    after.intervals.map Interval.bare = before.intervals.map Interval.bare := by
  induction h with
  | refl => rfl
  | spill index representation _ _ hspill ih =>
    obtain ⟨words, rfl⟩ := Assignment.allocateSpill_cases hspill
    rw [Assignment.toFrame_intervals, Assignment.bare_setLocation, ih]
  | register index location _ _ _ ih => rw [Assignment.bare_setLocation, ih]

/-- The other intervals stay as they are. -/
lemma untouched (h : input.Moves allowed before after) {i : ℕ} (hi : ¬ allowed i) :
    after.at i = before.at i := by
  induction h with
  | refl => rfl
  | spill index representation _ hindex hspill ih =>
    obtain ⟨words, rfl⟩ := Assignment.allocateSpill_cases hspill
    have hne : index ≠ i := fun heq => hi (heq ▸ hindex)
    exact (Assignment.at_setLocation_of_ne _ hne).trans ih
  | register index location _ hindex _ ih =>
    have hne : index ≠ i := fun heq => hi (heq ▸ hindex)
    exact (Assignment.at_setLocation_of_ne _ hne).trans ih

/-- A place that the scan does not give out is held by nobody new. -/
lemma unclaimed (h : input.Moves allowed before after) {location : Location}
    (hlocation : ¬ input.Allocatable location) (hspill : location.kind ≠ .spill) {i : ℕ}
    (hafter : (after.at i).location = location) : (before.at i).location = location := by
  induction h with
  | refl => exact hafter
  | spill index representation _ _ hmove ih =>
    obtain ⟨words, rfl⟩ := Assignment.allocateSpill_cases hmove
    rcases Assignment.at_setLocation_cases ⟨.spill, 0, words % 2 ^ 8, representation.wordMask⟩ with
      hnew | hold
    · exact absurd (congrArg Location.kind (hafter.symm.trans hnew)) hspill
    · exact ih (hold ▸ hafter)
  | register index given _ _ hgiven ih =>
    rcases Assignment.at_setLocation_cases given with hnew | hold
    · exact absurd ((hafter.symm.trans hnew) ▸ hgiven) hlocation
    · exact ih (hold ▸ hafter)

/-- The scan is one of the ways in which locations are assigned. -/
lemma assigned (h : input.Moves allowed before after) (hbefore : Assigned before) :
    Assigned after := by
  induction h with
  | refl => exact hbefore
  | spill index representation _ _ hspill ih => exact .spill index representation ih hspill
  | register index location _ _ hlocation ih =>
    refine .location index location (fun hspill => ?_) ih
    rcases hlocation.kind with hkind | hkind | hkind <;> rw [hkind] at hspill <;> cases hspill

end Moves

/-! ### The steps of the scan -/

/-- The active intervals are among those that the scan may change. -/
structure ScanActive (allowed : ℕ → Prop) (state : ScanState) : Prop where
  core : ∀ i ∈ state.activeCore, allowed i
  vfp : ∀ i ∈ state.activeVfp, allowed i
  neon : ∀ i ∈ state.activeNeon, allowed i

variable {state state' : ScanState} {assignment assignment' : Assignment} {active : List ℕ}
  {index : ℕ}

lemma map_eq_ok {ε α β : Type} {f : α → β} {x : Except ε α} {b : β} (h : x.map f = .ok b) :
    ∃ a, x = .ok a ∧ f a = b := by
  cases x with
  | error e => cases h
  | ok a => exact ⟨a, rfl, Except.ok.inj h⟩

lemma mem_expire {start i : ℕ} (h : i ∈ assignment.expire start active) : i ∈ active :=
  (List.mem_filter.mp h).1

lemma allowed_append (hactive : ∀ i ∈ active, allowed i) (hindex : allowed index) :
    ∀ i ∈ active ++ [index], allowed i := by
  intro i hi
  rcases List.mem_append.mp hi with hi | hi
  · exact hactive i hi
  · exact List.mem_singleton.mp hi ▸ hindex

lemma spillInterval_moves (hindex : allowed index)
    (h : input.spillInterval blockIndex assignment index = .ok assignment') :
    input.Moves allowed assignment assignment' := by
  unfold spillInterval at h
  split at h
  · cases h
  next _ hspill =>
    cases h
    exact .spill index _ (.refl _) hindex hspill

lemma spillAll_moves {victims : List ℕ} (hvictims : ∀ i ∈ victims, allowed i)
    (h : victims.foldlM (input.spillInterval blockIndex) assignment = .ok assignment') :
    input.Moves allowed assignment assignment' := by
  induction victims generalizing assignment with
  | nil =>
    cases h
    exact .refl _
  | cons victim victims ih =>
    rw [List.foldlM_cons] at h
    cases hvictim : input.spillInterval blockIndex assignment victim with
    | error failure =>
      rw [hvictim] at h
      cases h
    | ok middle =>
      rw [hvictim] at h
      exact (spillInterval_moves (hvictims victim List.mem_cons_self) hvictim).trans
        (ih (fun i hi => hvictims i (List.mem_cons_of_mem _ hi)) h)

lemma scanVfp_moves (hindex : allowed index) (hactive : ScanActive allowed state)
    (h : input.scanVfp plan blockIndex state index = .ok state') :
    input.Moves allowed state.assignment state'.assignment ∧ ScanActive allowed state' := by
  have hvfp : ∀ start, ∀ i ∈ state.assignment.expire start state.activeVfp, allowed i :=
    fun start i hi => hactive.vfp i (mem_expire hi)
  dsimp only [scanVfp] at h
  split at h
  next s _ =>
    cases h
    exact ⟨.register index _ (.refl _) hindex ⟨.inr (.inl rfl), nofun⟩,
      hactive.core, allowed_append (hvfp _) hindex, hactive.neon⟩
  next =>
    obtain ⟨assignment, hspill, rfl⟩ := map_eq_ok h
    exact ⟨spillInterval_moves hindex hspill, hactive.core, hvfp _, hactive.neon⟩

lemma neonVictim_mem {victim : ℕ} (h : neonVictim plan assignment active index = some victim) :
    victim ∈ active := by
  unfold neonVictim at h
  refine List.foldlRecOn (motive := fun found : Option ℕ => ∀ i, found = some i → i ∈ active)
    active _ ?_ ?_ victim h
  · exact nofun
  intro found hfound candidate hcandidate i hi
  split at hi
  next => exact hfound i hi
  next =>
    split at hi
    next => exact Option.some.inj hi ▸ hcandidate
    next other =>
      split at hi
      next => exact Option.some.inj hi ▸ hcandidate
      next => exact hfound i hi

lemma scanNeon_moves (hindex : allowed index) (hactive : ScanActive allowed state)
    (h : input.scanNeon plan blockIndex state index = .ok state') :
    input.Moves allowed state.assignment state'.assignment ∧ ScanActive allowed state' := by
  have hneon : ∀ start, ∀ i ∈ state.assignment.expire start state.activeNeon, allowed i :=
    fun start i hi => hactive.neon i (mem_expire hi)
  dsimp only [scanNeon] at h
  split at h
  next q _ =>
    cases h
    exact ⟨.register index _ (.refl _) hindex ⟨.inr (.inr rfl), nofun⟩,
      hactive.core, hactive.vfp, allowed_append (hneon _) hindex⟩
  next =>
    split at h
    next victim hvictim =>
      obtain ⟨assignment, hspill, rfl⟩ := map_eq_ok h
      have hmoves := spillInterval_moves (hneon _ victim (neonVictim_mem hvictim)) hspill
      refine ⟨.register index _ hmoves hindex ⟨.inr (.inr rfl), nofun⟩,
        hactive.core, hactive.vfp, allowed_append (fun i hi => ?_) hindex⟩
      exact hneon _ i (List.mem_filter.mp hi).1
    next =>
      obtain ⟨assignment, hspill, rfl⟩ := map_eq_ok h
      exact ⟨spillInterval_moves hindex hspill, hactive.core, hactive.vfp, hneon _⟩

/-- The window that is chosen lies below the allocatable words, and its victims hold
registers of the block. -/
lemma bestEviction_spec {words stop : ℕ} {best : Eviction}
    (h : input.bestEviction assignment active words stop = some best) :
    best.first + words ≤ input.allocatableCoreRegisterWords ∧ ∀ i ∈ best.victims, i ∈ active := by
  unfold bestEviction at h
  refine List.foldlRecOn (motive := fun found : Option Eviction => ∀ best, found = some best →
    best.first + words ≤ input.allocatableCoreRegisterWords ∧ ∀ i ∈ best.victims, i ∈ active)
    (List.range (input.allocatableCoreRegisterWords + 1 - words)) _ ?_ ?_ best h
  · exact nofun
  intro found hfound first hfirst best hbest
  have hwindow : first + words ≤ input.allocatableCoreRegisterWords := by
    have := List.mem_range.mp hfirst
    omega
  dsimp only at hbest
  split at hbest
  next => exact hfound best hbest
  next =>
    split at hbest
    next =>
      cases hbest
      exact ⟨hwindow, fun i hi => (List.mem_filter.mp hi).1⟩
    next other =>
      split at hbest
      next =>
        cases hbest
        exact ⟨hwindow, fun i hi => (List.mem_filter.mp hi).1⟩
      next => exact hfound best hbest

lemma scanCore_moves (hindex : allowed index) (hactive : ScanActive allowed state)
    (h : input.scanCore plan blockIndex state index = .ok state') :
    input.Moves allowed state.assignment state'.assignment ∧ ScanActive allowed state' := by
  have hcore : ∀ start, ∀ i ∈ state.assignment.expire start state.activeCore, allowed i :=
    fun start i hi => hactive.core i (mem_expire hi)
  dsimp only [scanCore] at h
  split at h
  next first hfirst =>
    cases h
    have hfree := List.find?_some hfirst
    rw [Bool.and_eq_true, decide_eq_true_eq] at hfree
    exact ⟨.register index _ (.refl _) hindex ⟨.inl rfl, fun _ => hfree.1⟩,
      allowed_append (hcore _) hindex, hactive.vfp, hactive.neon⟩
  next =>
    split at h
    next best hbest =>
      obtain ⟨assignment, hspill, rfl⟩ := map_eq_ok h
      obtain ⟨hwindow, hvictims⟩ := bestEviction_spec hbest
      have hmoves := spillAll_moves (fun i hi => hcore _ i (hvictims i hi)) hspill
      refine ⟨.register index _ hmoves hindex ⟨.inl rfl, fun _ => hwindow⟩,
        allowed_append (fun i hi => ?_) hindex, hactive.vfp, hactive.neon⟩
      exact hcore _ i (List.mem_filter.mp hi).1
    next =>
      obtain ⟨assignment, hspill, rfl⟩ := map_eq_ok h
      exact ⟨spillInterval_moves hindex hspill, hcore _, hactive.vfp, hactive.neon⟩

/-- What the visit of one interval does. -/
lemma scanInterval_moves (hindex : allowed index) (hactive : ScanActive allowed state)
    (h : input.scanInterval plan blockIndex state index = .ok state') :
    input.Moves allowed state.assignment state'.assignment ∧ ScanActive allowed state' := by
  unfold scanInterval at h
  split at h
  · exact scanVfp_moves hindex hactive h
  · exact scanNeon_moves hindex hactive h
  · exact scanCore_moves hindex hactive h
  · obtain ⟨assignment, hspill, rfl⟩ := map_eq_ok h
    exact ⟨spillInterval_moves hindex hspill, hactive.core, hactive.vfp, hactive.neon⟩

/-! ### The scan of a block and of the region -/

/-- An interval that has no location. -/
def Unplaced (assignment : Assignment) (index : ℕ) : Prop :=
  (assignment.at index).location.kind = .none

lemma unplaced_of_mem_scanOrder (h : index ∈ input.scanOrder assignment blockIndex) :
    Unplaced assignment index := by
  have hmem := ((input.sorting.perm _ _).mem_iff.mp h)
  simp only [List.mem_filter, Bool.and_eq_true, beq_iff_eq] at hmem
  exact hmem.2.2

lemma scanIntervals_moves {order : List ℕ} (horder : ∀ i ∈ order, allowed i)
    (hactive : ScanActive allowed state)
    (h : order.foldlM (input.scanInterval plan blockIndex) state = .ok state') :
    input.Moves allowed state.assignment state'.assignment := by
  induction order generalizing state with
  | nil =>
    cases h
    exact .refl _
  | cons index order ih =>
    rw [List.foldlM_cons] at h
    cases hindex : input.scanInterval plan blockIndex state index with
    | error failure =>
      rw [hindex] at h
      cases h
    | ok middle =>
      rw [hindex] at h
      obtain ⟨hmoves, hmiddle⟩ := scanInterval_moves (horder index List.mem_cons_self) hactive hindex
      exact hmoves.trans (ih (fun i hi => horder i (List.mem_cons_of_mem _ hi)) hmiddle h)

lemma scanBlock_moves (h : input.scanBlock plan assignment blockIndex = .ok assignment') :
    input.Moves (Unplaced assignment) assignment assignment' := by
  obtain ⟨state', hstate, rfl⟩ := map_eq_ok h
  have hstart : ScanActive (Unplaced assignment) { assignment := assignment } := ⟨nofun, nofun, nofun⟩
  exact scanIntervals_moves (fun i hi => unplaced_of_mem_scanOrder hi) hstart hstate

/-- An interval with a location keeps it, whatever the scan does. -/
theorem linearScan_moves (h : input.linearScan plan assignment = .ok assignment') :
    input.Moves (Unplaced assignment) assignment assignment' := by
  have hblocks : ∀ (blocks : List ℕ) (middle : Assignment),
      input.Moves (Unplaced assignment) assignment middle →
      blocks.foldlM (input.scanBlock plan) middle = .ok assignment' →
      input.Moves (Unplaced assignment) assignment assignment' := by
    intro blocks
    induction blocks with
    | nil =>
      intro middle hmoves h
      cases h
      exact hmoves
    | cons block blocks ih =>
      intro middle hmoves h
      rw [List.foldlM_cons] at h
      cases hblock : input.scanBlock plan middle block with
      | error failure =>
        rw [hblock] at h
        cases h
      | ok next =>
        rw [hblock] at h
        refine ih next (hmoves.trans ((scanBlock_moves hblock).mono fun i hi => ?_)) h
        -- what is unplaced now has been unplaced from the beginning
        by_contra hplaced
        rw [Unplaced, hmoves.untouched hplaced] at hi
        exact hplaced hi
  exact hblocks _ assignment (.refl _) h

end LocationInput

end VitaSX2.RegionAllocation
