/-
What a failed `Acquire` leaves behind.

A failed call gives back the regions that it has allocated, but not the targets that it has
created.  It changes nothing exactly when it creates none.  A run of failed calls that create
no target is then invisible to all later calls.
-/
import VitaSX2.Gxm.AcquireAlike

namespace VitaSX2.RenderStore

open Allocator

/-- The calls of the planner. -/
inductive Call
  | acquire (key : PairKey) (width height : ℕ)
  | markLoaded (residency : ℕ) (plane : Plane)
  | markWritten (residency : ℕ) (plane : Plane)
  | markBackingCurrent (key : TargetKey)
  | markBackingWritten (key : TargetKey)
  | reset

/-- The arguments are refused before any table is looked at. -/
def PairKey.Refused (key : PairKey) (width height : ℕ) : Prop :=
  ((key.color = none ∧ key.depth = none) ∨ width = 0 ∨ height = 0) ∨
    (key.color.any (·.depth) || key.depth.any (!·.depth)) = true

namespace Planner

/-- A call and its result. -/
def call (p : Planner) : Call → Planner × Bool
  | .acquire key width height =>
    ((p.acquire key width height).1, (p.acquire key width height).2.isSome)
  | .markLoaded residency plane => p.markLoaded residency plane
  | .markWritten residency plane => p.markWritten residency plane
  | .markBackingCurrent key => p.markBackingCurrent key
  | .markBackingWritten key => p.markBackingWritten key
  | .reset => (fresh, true)

/-- The results of some calls in a row. -/
def results (p : Planner) : List Call → List Bool
  | [] => []
  | c :: calls => (p.call c).2 :: (p.call c).1.results calls

def after (p : Planner) (calls : List Call) : Planner := calls.foldl (fun p c => (p.call c).1) p

/-- The occupancy, the live targets and the live residencies are the same. -/
structure Unchanged (p p' : Planner) : Prop where
  allocator : SameOccupancy p'.allocator p.allocator
  targets : p'.targets = p.targets
  residencies : p'.residencies = p.residencies

/-- A call of `Acquire` that creates no target: its arguments are refused, every target of the
pair is live, or no target slot is free. -/
def CreatesNone (p : Planner) (key : PairKey) (width height : ℕ) : Prop :=
  key.Refused width height ∨ maximumTargets ≤ p.targets.length ∨
    ∀ plane target, key.target plane = some target → (p.findTarget target).isSome = true

/-! ### Targets that are created -/

variable {p q : Planner}

/-- A lookup that creates nothing. -/
def Settled (p : Planner) (target : Option TargetKey) : Prop :=
  ∀ key, target = some key → (p.findTarget key).isSome = true ∨ maximumTargets ≤ p.targets.length

lemma resolve_tables (p : Planner) (target : Option TargetKey) :
    (p.resolve target).1.allocator = p.allocator ∧
      (p.resolve target).1.residencies = p.residencies ∧
      p.targets.length ≤ (p.resolve target).1.targets.length := by
  cases target with
  | none => exact ⟨rfl, rfl, Nat.le_refl _⟩
  | some key =>
    rw [resolve, findOrCreateTarget]
    split
    · exact ⟨rfl, rfl, Nat.le_refl _⟩
    · split
      · exact ⟨rfl, rfl, by simp⟩
      · exact ⟨rfl, rfl, Nat.le_refl _⟩

/-- The planner is the same after a lookup exactly when nothing is created. -/
lemma resolve_same_iff (p : Planner) (target : Option TargetKey) :
    (p.resolve target).1.targets.length = p.targets.length ↔ p.Settled target := by
  cases target with
  | none => exact iff_of_true rfl nofun
  | some key =>
    rw [resolve, findOrCreateTarget]
    split
    · next found hfound =>
      refine iff_of_true rfl ?_
      rintro _ ⟨⟩
      exact Or.inl (by rw [hfound]; rfl)
    · next hnone =>
      split
      · next hroom =>
        refine iff_of_false (by simp) fun hsettled => ?_
        rcases hsettled key rfl with hfound | hfull
        · rw [hnone] at hfound
          cases hfound
        · exact Nat.not_le.2 hroom hfull
      · next hfull =>
        refine iff_of_true rfl ?_
        rintro _ ⟨⟩
        exact Or.inr (Nat.not_lt.1 hfull)

lemma resolve_of_settled {target : Option TargetKey} (h : p.Settled target) :
    (p.resolve target).1 = p := by
  cases target with
  | none => rfl
  | some key =>
    rw [resolve, findOrCreateTarget]
    split
    · rfl
    · next hnone =>
      rcases h key rfl with hfound | hfull
      · rw [hnone] at hfound
        cases hfound
      · rw [if_neg (Nat.not_lt.2 hfull)]

/-- The planner after both lookups of `Acquire`. -/
def resolved (p : Planner) (key : PairKey) : Planner :=
  ((p.resolve key.color).1.resolve key.depth).1

lemma resolved_same_iff (p : Planner) (key : PairKey) :
    (p.resolved key).targets.length = p.targets.length ↔
      ∀ plane, p.Settled (key.target plane) := by
  have hfirst := (resolve_tables p key.color).2.2
  have hsecond := (resolve_tables (p.resolve key.color).1 key.depth).2.2
  constructor
  · intro h
    have hcolor := (resolve_same_iff p key.color).1 (Nat.le_antisymm (h ▸ hsecond) hfirst)
    have hdepth := (resolve_same_iff p key.depth).1 (by
      rw [resolved, resolve_of_settled hcolor] at h
      exact h)
    intro plane
    cases plane with
    | color => exact hcolor
    | depth => exact hdepth
  · intro h
    have hcolor : p.Settled key.color := h .color
    rw [resolved, resolve_of_settled hcolor]
    exact (resolve_same_iff p key.depth).2 (h .depth)

lemma resolved_of_settled {key : PairKey} (h : ∀ plane, p.Settled (key.target plane)) :
    p.resolved key = p := by
  have hcolor : p.Settled key.color := h .color
  have hdepth : p.Settled key.depth := h .depth
  rw [resolved, resolve_of_settled hcolor, resolve_of_settled hdepth]

lemma settled_iff (p : Planner) (key : PairKey) :
    (∀ plane, p.Settled (key.target plane)) ↔ maximumTargets ≤ p.targets.length ∨
      ∀ plane target, key.target plane = some target → (p.findTarget target).isSome = true := by
  constructor
  · intro h
    by_cases hfull : maximumTargets ≤ p.targets.length
    · exact Or.inl hfull
    · exact Or.inr fun plane target hkey => (h plane target hkey).resolve_right hfull
  · rintro (hfull | hfound) plane target hkey
    · exact Or.inr hfull
    · exact Or.inl (hfound plane target hkey)

/-! ### One failed call -/

/-- A failed `Acquire` is refused, or keeps the tables of the lookups and the occupancy. -/
lemma acquire_failed {p' : Planner} {key : PairKey} {width height : ℕ}
    (h : p.acquire key width height = (p', none)) :
    (key.Refused width height ∧ p' = p) ∨
      (¬key.Refused width height ∧ SameOccupancy p'.allocator p.allocator ∧
        p'.targets = (p.resolved key).targets ∧ p'.residencies = p.residencies) := by
  have htables : (p.resolved key).allocator = p.allocator ∧
      (p.resolved key).residencies = p.residencies :=
    ⟨(resolve_tables _ key.depth).1.trans (resolve_tables p key.color).1,
      (resolve_tables _ key.depth).2.1.trans (resolve_tables p key.color).2.1⟩
  have hsame : SameOccupancy (p.resolved key).allocator p.allocator := by
    rw [htables.1]
    exact SameOccupancy.refl _
  rw [acquire] at h
  split at h
  · next hargs => exact Or.inl ⟨Or.inl hargs, (Prod.mk.inj h).1.symm⟩
  · next hargs =>
    split at h
    · next hplanes => exact Or.inl ⟨Or.inr hplanes, (Prod.mk.inj h).1.symm⟩
    · next hplanes =>
      refine Or.inr ⟨not_or.2 ⟨hargs, hplanes⟩, ?_⟩
      rcases hcolor : p.resolve key.color with ⟨p₁, color⟩
      rcases hdepth : p₁.resolve key.depth with ⟨p₂, depth⟩
      have hresolved : p.resolved key = p₂ := by rw [resolved, hcolor, hdepth]
      rw [hresolved] at htables hsame ⊢
      simp only [hcolor, hdepth] at h
      split at h
      · obtain rfl := (Prod.mk.inj h).1
        exact ⟨hsame, rfl, htables.2⟩
      · split at h
        · next index hindex =>
          -- the residency that is found is there
          obtain ⟨hlt, -⟩ := List.findIdx?_eq_some_iff_getElem.1 hindex
          have hnone := (Prod.mk.inj h).2
          rw [List.getElem?_eq_getElem hlt] at hnone
          cases hnone
        · split at h
          · obtain rfl := (Prod.mk.inj h).1
            exact ⟨hsame, rfl, htables.2⟩
          · split at h
            · next allocator hpair =>
              obtain rfl := (Prod.mk.inj h).1
              exact ⟨(allocatePair_failed hpair).trans hsame, rfl, htables.2⟩
            · cases h

/-- **A failed `Acquire` changes nothing exactly when it creates no target.** -/
theorem unchanged_iff {p' : Planner} {key : PairKey} {width height : ℕ}
    (h : p.acquire key width height = (p', none)) :
    Unchanged p p' ↔ p.CreatesNone key width height := by
  rcases acquire_failed h with ⟨hrefused, rfl⟩ | ⟨hgood, hallocator, htargets, hresidencies⟩
  · exact iff_of_true ⟨SameOccupancy.refl _, rfl, rfl⟩ (Or.inl hrefused)
  · have hsettled := settled_iff p key
    constructor
    · intro hunchanged
      have hlength : (p.resolved key).targets.length = p.targets.length := by
        rw [← htargets, hunchanged.targets]
      exact Or.inr (hsettled.1 ((resolved_same_iff p key).1 hlength))
    · rintro (hrefused | hnone)
      · exact absurd hrefused hgood
      · refine ⟨hallocator, ?_, hresidencies⟩
        rw [htargets, resolved_of_settled (hsettled.2 hnone)]

/-! ### Later calls -/

/-- The residency without the generations of its regions. -/
def bare (r : Residency) : Residency :=
  { r with colorRegion := r.colorRegion.place, depthRegion := r.depthRegion.place }

@[simp] lemma key_bare (r : Residency) : (bare r).key = r.key := rfl

lemma bare_setVersion (r : Residency) (version : BitVec 64) (plane : Plane) :
    bare (r.setVersion version plane) = (bare r).setVersion version plane := by
  cases plane <;> rfl

/-- Planners that differ in generations at most. -/
structure Alike (p q : Planner) : Prop where
  allocator : p.allocator.Alike q.allocator
  targets : p.targets = q.targets
  residencies : p.residencies.map bare = q.residencies.map bare

lemma Unchanged.alike {p' : Planner} (h : Unchanged p p') : Alike p' p :=
  ⟨h.allocator.alike, h.targets, by rw [h.residencies]⟩

namespace Alike

lemma refl (p : Planner) : Alike p p := ⟨Allocator.Alike.refl _, rfl, rfl⟩

lemma trans {p' : Planner} (h : Alike p q) (h' : Alike q p') : Alike p p' :=
  ⟨h.allocator.trans h'.allocator, h.targets.trans h'.targets, h.residencies.trans h'.residencies⟩

lemma findTarget (h : Alike p q) (key : TargetKey) : p.findTarget key = q.findTarget key := by
  rw [Planner.findTarget, Planner.findTarget, h.targets]

lemma findOrCreateTarget (h : Alike p q) (key : TargetKey) :
    (p.findOrCreateTarget key).2 = (q.findOrCreateTarget key).2 ∧
      Alike (p.findOrCreateTarget key).1 (q.findOrCreateTarget key).1 := by
  rw [Planner.findOrCreateTarget, Planner.findOrCreateTarget, h.findTarget, h.targets]
  split
  · exact ⟨rfl, h⟩
  · split
    · exact ⟨rfl, h.allocator, rfl, h.residencies⟩
    · exact ⟨rfl, h⟩

lemma resolve (h : Alike p q) (target : Option TargetKey) :
    (p.resolve target).2 = (q.resolve target).2 ∧
      Alike (p.resolve target).1 (q.resolve target).1 := by
  cases target with
  | none => exact ⟨rfl, h⟩
  | some key => exact h.findOrCreateTarget key

lemma length_eq (h : Alike p q) : p.residencies.length = q.residencies.length := by
  simpa using congrArg List.length h.residencies

lemma findIdx?_eq (h : Alike p q) (key : PairKey) :
    (p.residencies.findIdx? fun r => r.key = key) = q.residencies.findIdx? fun r => r.key = key := by
  have hmap : ∀ residencies : List Residency, (residencies.findIdx? fun r => r.key = key) =
      (residencies.map bare).findIdx? fun r => r.key = key := by
    intro residencies
    rw [List.findIdx?_map]
    rfl
  rw [hmap p.residencies, hmap q.residencies, h.residencies]

lemma acquire (h : Alike p q) (key : PairKey) (width height : ℕ) :
    (p.acquire key width height).2.isSome = (q.acquire key width height).2.isSome ∧
      Alike (p.acquire key width height).1 (q.acquire key width height).1 := by
  rw [Planner.acquire, Planner.acquire]
  split
  · exact ⟨rfl, h⟩
  · split
    · exact ⟨rfl, h⟩
    · rcases hcolor : p.resolve key.color with ⟨p₁, color⟩
      rcases hcolor' : q.resolve key.color with ⟨q₁, color'⟩
      rcases hdepth : p₁.resolve key.depth with ⟨p₂, depth⟩
      rcases hdepth' : q₁.resolve key.depth with ⟨q₂, depth'⟩
      obtain ⟨hfound, halike⟩ := h.resolve key.color
      rw [hcolor, hcolor'] at hfound halike
      obtain rfl : color = color' := hfound
      obtain ⟨hfound', halike'⟩ := Alike.resolve halike key.depth
      simp only [hdepth, hdepth'] at hfound' halike'
      obtain rfl : depth = depth' := hfound'
      simp only [hdepth, hdepth']
      split
      · exact ⟨rfl, halike'⟩
      · rw [halike'.findIdx?_eq key]
        split
        · next index hindex =>
          refine ⟨?_, halike'⟩
          have hboth := congrArg (fun l : List Residency => l[index]?.isSome) halike'.residencies
          simpa using hboth
        · rw [halike'.length_eq]
          split
          · exact ⟨rfl, halike'⟩
          · obtain ⟨hallocator, hregions⟩ := allocatePair_alike halike'.allocator key width height
            rcases hp : p₂.allocator.allocatePair key width height with ⟨a, found⟩
            rcases hq : q₂.allocator.allocatePair key width height with ⟨b, found'⟩
            rw [hp, hq] at hallocator hregions
            cases hregions with
            | none => exact ⟨rfl, hallocator, halike'.targets, halike'.residencies⟩
            | some hplaces =>
              refine ⟨rfl, hallocator, halike'.targets, ?_⟩
              simp only [List.map_append, halike'.residencies, List.map_cons, List.map_nil, bare,
                hplaces.1, hplaces.2]

lemma residencyTarget (h : Alike p q) (index : ℕ) (plane : Plane) :
    (p.residencyTarget index plane).map (Prod.map bare id) =
      (q.residencyTarget index plane).map (Prod.map bare id) := by
  have hget : p.residencies[index]?.map bare = q.residencies[index]?.map bare := by
    simpa using congrArg (fun l : List Residency => l[index]?) h.residencies
  have hfind : p.findTarget = q.findTarget := funext h.findTarget
  have hbare : ∀ s : Planner, (s.residencyTarget index plane).map (Prod.map bare id) =
      (s.residencies[index]?.map bare).bind fun r =>
        ((r.key.target plane).bind s.findTarget).map fun target => (r, target) := by
    intro s
    rw [Planner.residencyTarget]
    cases s.residencies[index]? with
    | none => rfl
    | some r =>
      simp only [Option.bind_some, Option.map_some, key_bare, Option.map_map]
      rfl
  rw [hbare, hbare, hget, hfind]

/-- The entry of a residency takes a version alike. -/
lemma setVersion (h : Alike p q) {targets targets' : List TargetState} (htargets : targets = targets')
    {r r' : Residency} (hr : bare r = bare r') (index : ℕ) (version : BitVec 64) (plane : Plane) :
    Alike { p with targets, residencies := p.residencies.set index (r.setVersion version plane) }
      { q with
        targets := targets', residencies := q.residencies.set index (r'.setVersion version plane) } :=
  ⟨h.allocator, htargets, by
    simp only [List.map_set, h.residencies, bare_setVersion, hr]⟩

lemma markLoaded (h : Alike p q) (index : ℕ) (plane : Plane) :
    (p.markLoaded index plane).2 = (q.markLoaded index plane).2 ∧
      Alike (p.markLoaded index plane).1 (q.markLoaded index plane).1 := by
  have hfound := h.residencyTarget index plane
  rw [Planner.markLoaded, Planner.markLoaded]
  cases hp : p.residencyTarget index plane with
  | none =>
    rw [hp] at hfound
    rw [Option.map_eq_none_iff.1 hfound.symm]
    exact ⟨rfl, h⟩
  | some found =>
    obtain ⟨r, target⟩ := found
    rw [hp] at hfound
    obtain ⟨⟨r', target'⟩, hq, hsame⟩ := Option.map_eq_some_iff.1 hfound.symm
    obtain ⟨hr, rfl⟩ := Prod.mk.inj hsame
    rw [hq]
    exact ⟨rfl, h.setVersion h.targets hr.symm index _ plane⟩

lemma markWritten (h : Alike p q) (index : ℕ) (plane : Plane) :
    (p.markWritten index plane).2 = (q.markWritten index plane).2 ∧
      Alike (p.markWritten index plane).1 (q.markWritten index plane).1 := by
  have hfound := h.residencyTarget index plane
  rw [Planner.markWritten, Planner.markWritten]
  cases hp : p.residencyTarget index plane with
  | none =>
    rw [hp] at hfound
    rw [Option.map_eq_none_iff.1 hfound.symm]
    exact ⟨rfl, h⟩
  | some found =>
    obtain ⟨r, target⟩ := found
    rw [hp] at hfound
    obtain ⟨⟨r', target'⟩, hq, hsame⟩ := Option.map_eq_some_iff.1 hfound.symm
    obtain ⟨hr, rfl⟩ := Prod.mk.inj hsame
    rw [hq]
    exact ⟨rfl, h.setVersion (by rw [updateTarget, updateTarget, h.targets]; rfl) hr.symm index _
      plane⟩

lemma updateTarget (h : Alike p q) (key : TargetKey) (f : TargetState → TargetState) :
    Alike (p.updateTarget key f) (q.updateTarget key f) :=
  ⟨h.allocator, by rw [Planner.updateTarget, Planner.updateTarget, h.targets], h.residencies⟩

lemma markBackingCurrent (h : Alike p q) (key : TargetKey) :
    (p.markBackingCurrent key).2 = (q.markBackingCurrent key).2 ∧
      Alike (p.markBackingCurrent key).1 (q.markBackingCurrent key).1 := by
  rw [Planner.markBackingCurrent, Planner.markBackingCurrent, h.findTarget]
  split
  · exact ⟨rfl, h⟩
  · exact ⟨rfl, h.updateTarget key _⟩

lemma markBackingWritten (h : Alike p q) (key : TargetKey) :
    (p.markBackingWritten key).2 = (q.markBackingWritten key).2 ∧
      Alike (p.markBackingWritten key).1 (q.markBackingWritten key).1 := by
  rcases hp : p.findOrCreateTarget key with ⟨p₁, found⟩
  rcases hq : q.findOrCreateTarget key with ⟨q₁, found'⟩
  obtain ⟨hfound, halike⟩ := h.findOrCreateTarget key
  rw [hp, hq] at hfound halike
  obtain rfl : found = found' := hfound
  rw [Planner.markBackingWritten, Planner.markBackingWritten, hp, hq]
  cases found with
  | none => exact ⟨rfl, halike⟩
  | some target => exact ⟨rfl, Alike.updateTarget halike key _⟩

/-- A call answers alike planners alike. -/
theorem call (h : Alike p q) (c : Call) :
    (p.call c).2 = (q.call c).2 ∧ Alike (p.call c).1 (q.call c).1 := by
  cases c with
  | acquire key width height => exact h.acquire key width height
  | markLoaded residency plane => exact h.markLoaded residency plane
  | markWritten residency plane => exact h.markWritten residency plane
  | markBackingCurrent key => exact h.markBackingCurrent key
  | markBackingWritten key => exact h.markBackingWritten key
  | reset => exact ⟨rfl, Alike.refl _⟩

/-- And so do all calls that follow. -/
theorem results (h : Alike p q) (calls : List Call) : p.results calls = q.results calls := by
  induction calls generalizing p q with
  | nil => rfl
  | cons c calls ih =>
    obtain ⟨hresult, halike⟩ := h.call c
    rw [Planner.results, Planner.results, hresult, ih halike]

end Alike

/-! ### Runs of failed calls -/

/-- Calls of `Acquire` that all fail and create no target. -/
def FailQuietly (p : Planner) : List (PairKey × ℕ × ℕ) → Prop
  | [] => True
  | (key, width, height) :: requests =>
    (p.acquire key width height).2 = none ∧ p.CreatesNone key width height ∧
      (p.acquire key width height).1.FailQuietly requests

def requestCall (request : PairKey × ℕ × ℕ) : Call := .acquire request.1 request.2.1 request.2.2

lemma Unchanged.trans {p' p'' : Planner} (h : Unchanged p p') (h' : Unchanged p' p'') :
    Unchanged p p'' :=
  ⟨h'.allocator.trans h.allocator, h'.targets.trans h.targets, h'.residencies.trans h.residencies⟩

lemma FailQuietly.unchanged {requests : List (PairKey × ℕ × ℕ)} (h : p.FailQuietly requests) :
    Unchanged p (p.after (requests.map requestCall)) := by
  induction requests generalizing p with
  | nil => exact ⟨SameOccupancy.refl _, rfl, rfl⟩
  | cons request requests ih =>
    obtain ⟨key, width, height⟩ := request
    obtain ⟨hfailed, hnone, hrest⟩ := h
    have hstep : p.acquire key width height = ((p.acquire key width height).1, none) := by
      rw [← hfailed]
    exact ((unchanged_iff hstep).2 hnone).trans (ih hrest)

/-- **Failed calls are atomic exactly when they create no target.**  Then a run of them changes
nothing, and every later call succeeds or fails as it would have without them. -/
theorem acquire_atomic (p : Planner) :
    (∀ key width height, (p.acquire key width height).2 = none →
      (Unchanged p (p.acquire key width height).1 ↔ p.CreatesNone key width height)) ∧
    ∀ requests, p.FailQuietly requests →
      Unchanged p (p.after (requests.map requestCall)) ∧
        ∀ calls, (p.after (requests.map requestCall)).results calls = p.results calls := by
  refine ⟨fun key width height hfailed => ?_, fun requests h => ⟨h.unchanged, fun calls => ?_⟩⟩
  · exact unchanged_iff (by rw [← hfailed])
  · exact h.unchanged.alike.results calls

/-- A color target of the given base that is too wide for the store. -/
def wideRequest (base : ℕ) : PairKey × ℕ × ℕ :=
  (⟨some ⟨base, 10, 0, 4096, 32, 0, false⟩, none⟩, 4096, 32)

/-- A failed call leaves its target behind, and 128 of them leave no slot for another one. -/
theorem acquire_not_atomic :
    (¬∀ (calls : List Call) (key : PairKey) (width height : ℕ),
      ((fresh.after calls).acquire key width height).2 = none →
        Unchanged (fresh.after calls) ((fresh.after calls).acquire key width height).1) ∧
      fresh.results [.markBackingWritten ⟨128, 10, 0, 640, 448, 0, false⟩] = [true] ∧
      (fresh.after ((List.range 128).map fun base => requestCall (wideRequest base))).results
        [.markBackingWritten ⟨128, 10, 0, 640, 448, 0, false⟩] = [false] := by
  refine ⟨fun h => ?_, by decide +kernel, by decide +kernel⟩
  have hsame := h [] (wideRequest 0).1 4096 32 (by decide +kernel)
  exact absurd (congrArg List.length hsame.targets) (by decide +kernel)

end Planner

end VitaSX2.RenderStore
