/-
Runs of values at consecutive places.

A list of runs stands for the values that it gives to places.  Runs that are
sorted by their start are coalesced from left to right: a run that overlaps or
touches the last one is joined to it when the values agree.  The result is the
canonical list for those values, and there is only one.
-/
import Mathlib.Data.Set.Card
import Mathlib.Order.Interval.Finset.Nat

namespace VitaSX2.Runs

/-- Values at consecutive places. -/
structure Run (α : Type*) where
  start : ℕ
  items : List α

variable {α : Type*}

namespace Run

variable (run : Run α)

/-- The place after the last one. -/
def stop : ℕ := run.start + run.items.length

/-- The run gives a value to a place. -/
def At (place : ℕ) (value : α) : Prop :=
  run.start ≤ place ∧ run.items[place - run.start]? = some value

variable {run} {place : ℕ} {value : α}

lemma At.lt_stop (h : run.At place value) : place < run.stop := by
  obtain ⟨hlength, -⟩ := List.getElem?_eq_some_iff.mp h.2
  have := h.1
  rw [stop]
  omega

lemma exists_at (hstart : run.start ≤ place) (hstop : place < run.stop) :
    ∃ value, run.At place value := by
  rw [stop] at hstop
  exact ⟨run.items[place - run.start], hstart, List.getElem?_eq_getElem (by omega)⟩

lemma At.unique {other : α} (h : run.At place value) (h' : run.At place other) : value = other :=
  Option.some.inj (h.2.symm.trans h'.2)

lemma at_iff_of_append {start : ℕ} {front back : List α} :
    (Run.mk start (front ++ back)).At place value ↔
      (Run.mk start front).At place value ∨
        (Run.mk (start + front.length) back).At place value := by
  unfold At
  dsimp only
  by_cases hplace : place - start < front.length
  · rw [List.getElem?_append_left hplace]
    constructor
    · exact Or.inl
    · rintro (h | ⟨hstart, hback⟩)
      · exact h
      · obtain ⟨hlength, -⟩ := List.getElem?_eq_some_iff.mp hback
        omega
  · rw [List.getElem?_append_right (by omega), Nat.sub_sub]
    constructor
    · rintro ⟨hstart, h⟩
      exact Or.inr ⟨by omega, h⟩
    · rintro (⟨hstart, hfront⟩ | ⟨hstart, hback⟩)
      · obtain ⟨hlength, -⟩ := List.getElem?_eq_some_iff.mp hfront
        omega
      · exact ⟨by omega, hback⟩

end Run

/-- The value that runs give to a place. -/
def Gives (runs : List (Run α)) (place : ℕ) (value : α) : Prop :=
  ∃ run ∈ runs, run.At place value

/-- No place is given two values. -/
def Consistent (runs : List (Run α)) : Prop :=
  ∀ place value other, Gives runs place value → Gives runs place other → value = other

/-- Runs that are in order, apart from each other and not empty. -/
structure Canonical (runs : List (Run α)) : Prop where
  nonempty : ∀ run ∈ runs, run.items ≠ []
  apart : runs.Pairwise fun run next => run.stop < next.start

section Gives

variable {run : Run α} {runs others : List (Run α)} {place : ℕ} {value : α}

@[simp]
lemma gives_nil : ¬Gives ([] : List (Run α)) place value := fun ⟨_, h, _⟩ => nomatch h

@[simp]
lemma gives_cons :
    Gives (run :: runs) place value ↔ run.At place value ∨ Gives runs place value := by
  simp [Gives]

lemma gives_append :
    Gives (runs ++ others) place value ↔ Gives runs place value ∨ Gives others place value := by
  simp only [Gives, List.mem_append, or_and_right, exists_or]

lemma Gives.of_subset (h : Gives runs place value) (hsub : runs ⊆ others) :
    Gives others place value := by
  obtain ⟨run, hmem, hat⟩ := h
  exact ⟨run, hsub hmem, hat⟩

lemma consistent_congr (h : ∀ place value, Gives runs place value ↔ Gives others place value) :
    Consistent runs ↔ Consistent others := by
  simp only [Consistent, h]

lemma Consistent.of_subset (h : Consistent others) (hsub : runs ⊆ others) : Consistent runs :=
  fun _ _ _ hvalue hother => h _ _ _ (hvalue.of_subset hsub) (hother.of_subset hsub)

/-- Runs that start later give nothing to earlier places. -/
lemma Gives.start_le {bound : ℕ} (h : Gives runs place value)
    (hstart : ∀ run ∈ runs, bound ≤ run.start) : bound ≤ place := by
  obtain ⟨run, hmem, hat⟩ := h
  exact (hstart run hmem).trans hat.1

end Gives

/-- A run that ends before the others start agrees with them. -/
lemma consistent_cons_of_apart {current : Run α} {rest : List (Run α)}
    (hapart : ∀ run ∈ rest, current.stop < run.start) :
    Consistent (current :: rest) ↔ Consistent rest := by
  constructor
  · exact fun h => h.of_subset (List.subset_cons_self _ _)
  · have hnot : ∀ {place : ℕ} {value other : α},
        current.At place value → ¬Gives rest place other := by
      intro place value other hat hgives
      have := hgives.start_le hapart
      have := hat.lt_stop
      omega
    intro h place value other hvalue hother
    rw [gives_cons] at hvalue hother
    rcases hvalue with hvalue | hvalue <;> rcases hother with hother | hother
    · exact hvalue.unique hother
    · exact absurd hother (hnot hvalue)
    · exact absurd hvalue (hnot hother)
    · exact h place value other hvalue hother

/-! ### Joining two runs -/

lemma take_drop_eq_iff {offset count : ℕ} {xs ys : List α} :
    (xs.drop offset).take count = ys.take count ↔ ∀ i < count, xs[offset + i]? = ys[i]? := by
  constructor
  · intro h i hi
    have := congrArg (·[i]?) h
    simpa [List.getElem?_take_of_lt hi] using this
  · intro h
    refine List.ext_getElem? fun i => ?_
    by_cases hi : i < count
    · rw [List.getElem?_take_of_lt hi, List.getElem?_take_of_lt hi, List.getElem?_drop]
      exact h i hi
    · rw [List.getElem?_take_eq_none (by omega), List.getElem?_take_eq_none (by omega)]

section Absorb

variable [DecidableEq α]

/-- The places of a run that the run before it has already. -/
def overlap (current next : Run α) : ℕ := min (current.stop - next.start) next.items.length

/-- The run that `current` becomes with a run that starts inside it or right
behind it. -/
def absorb (current next : Run α) : Option (Run α) :=
  if (current.items.drop (next.start - current.start)).take (overlap current next) =
      next.items.take (overlap current next) then
    some { current with items := current.items ++ next.items.drop (overlap current next) }
  else none

variable {current next joined : Run α}

/-- Two runs are joined exactly when they agree. -/
theorem absorb_isSome_iff (hstart : current.start ≤ next.start) :
    (absorb current next).isSome ↔ Consistent [current, next] := by
  have hstop : current.stop = current.start + current.items.length := rfl
  rw [absorb, Option.isSome_ite, take_drop_eq_iff]
  constructor
  · intro h place value other hvalue hother
    -- Where only one of the two runs gives values, it gives one.
    have hboth : ∀ {v w}, current.At place v → next.At place w → v = w := by
      intro v w hv hw
      have hplace := hv.lt_stop
      obtain ⟨hlength, -⟩ := List.getElem?_eq_some_iff.mp hw.2
      have hat := h (place - next.start) (by rw [overlap]; have := hw.1; omega)
      rw [hw.2, show next.start - current.start + (place - next.start) = place - current.start by
        have := hw.1; omega, hv.2] at hat
      exact Option.some.inj hat
    simp only [gives_cons, gives_nil, or_false] at hvalue hother
    rcases hvalue with hvalue | hvalue <;> rcases hother with hother | hother
    · exact hvalue.unique hother
    · exact hboth hvalue hother
    · exact (hboth hother hvalue).symm
    · exact hvalue.unique hother
  · intro h i hi
    rw [overlap] at hi
    have hcurrent : current.start ≤ next.start + i ∧ next.start + i < current.stop := by omega
    have hnext : next.start ≤ next.start + i ∧ next.start + i < next.stop := by
      rw [Run.stop]
      omega
    obtain ⟨value, hvalue⟩ := Run.exists_at hcurrent.1 hcurrent.2
    obtain ⟨other, hother⟩ := Run.exists_at hnext.1 hnext.2
    have heq := h (next.start + i) value other (by simp [hvalue]) (by simp [hother])
    have hat := hvalue.2
    have hat' := hother.2
    rw [show next.start + i - current.start = next.start - current.start + i by omega] at hat
    rw [Nat.add_sub_cancel_left] at hat'
    rw [hat, hat', heq]

lemma start_absorb (h : absorb current next = some joined) : joined.start = current.start := by
  unfold absorb at h
  split at h
  · cases h
    rfl
  · cases h

lemma items_absorb_ne_nil (h : absorb current next = some joined) (hitems : current.items ≠ []) :
    joined.items ≠ [] := by
  unfold absorb at h
  split at h
  · cases h
    exact List.append_ne_nil_of_left_ne_nil hitems _
  · cases h

/-- The joined run gives what the two runs give. -/
theorem at_absorb (hstart : current.start ≤ next.start) (hstop : next.start ≤ current.stop)
    (h : absorb current next = some joined) {place : ℕ} {value : α} :
    joined.At place value ↔ Gives [current, next] place value := by
  have hconsistent := (absorb_isSome_iff hstart).mp (h ▸ rfl)
  -- Behind the first run, what is left of the second one.
  have hrest : (Run.mk current.stop (next.items.drop (overlap current next))).At place value ↔
      current.stop ≤ place ∧ next.At place value := by
    unfold Run.At
    dsimp only
    rw [List.getElem?_drop]
    constructor
    · rintro ⟨hplace, hat⟩
      obtain ⟨hlength, -⟩ := List.getElem?_eq_some_iff.mp hat
      rw [overlap] at hat hlength
      refine ⟨hplace, by omega, ?_⟩
      rwa [show place - next.start =
        min (current.stop - next.start) next.items.length + (place - current.stop) by omega]
    · rintro ⟨hplace, hle, hat⟩
      obtain ⟨hlength, -⟩ := List.getElem?_eq_some_iff.mp hat
      refine ⟨hplace, ?_⟩
      rw [overlap]
      rwa [show min (current.stop - next.start) next.items.length + (place - current.stop) =
        place - next.start by omega]
  unfold absorb at h
  split at h
  next =>
    cases h
    rw [Run.at_iff_of_append, show current.start + current.items.length = current.stop from rfl,
      hrest, gives_cons, gives_cons]
    simp only [gives_nil, or_false]
    constructor
    · rintro (h | ⟨-, h⟩)
      · exact Or.inl h
      · exact Or.inr h
    · rintro (h | h)
      · exact Or.inl h
      · by_cases hplace : current.stop ≤ place
        · exact Or.inr ⟨hplace, h⟩
        · obtain ⟨other, hother⟩ := Run.exists_at (hstart.trans h.1) (not_le.mp hplace)
          have heq := hconsistent place value other (by simp [h]) (by simp [hother])
          exact Or.inl (heq ▸ hother)
  next => cases h

/-! ### Coalescing -/

/-- The runs behind `current`, in order, joined to it and to each other. -/
def coalesce (current : Run α) : List (Run α) → Option (List (Run α))
  | [] => some [current]
  | next :: rest =>
    if current.stop < next.start then (coalesce next rest).map (current :: ·)
    else (absorb current next).bind fun joined => coalesce joined rest

/-- Two runs and what they are joined to give the same, in front of any others. -/
lemma gives_absorb (hstart : current.start ≤ next.start) (hstop : next.start ≤ current.stop)
    (h : absorb current next = some joined) (rest : List (Run α)) (place : ℕ) (value : α) :
    Gives (joined :: rest) place value ↔ Gives (current :: next :: rest) place value := by
  rw [gives_cons, at_absorb hstart hstop h, ← gives_append]
  rfl

/-- What coalescing promises of its result. -/
structure Coalesced (current : Run α) (rest out : List (Run α)) : Prop where
  canonical : Canonical out
  start_le : ∀ run ∈ out, current.start ≤ run.start
  gives : ∀ place value, Gives out place value ↔ Gives (current :: rest) place value

/-- Coalescing succeeds exactly when the runs agree. -/
theorem coalesce_isSome_iff {rest : List (Run α)}
    (hsorted : (current :: rest).Pairwise fun run next => run.start ≤ next.start) :
    (coalesce current rest).isSome ↔ Consistent (current :: rest) := by
  induction rest generalizing current with
  | nil =>
    refine ⟨fun _ place value other hvalue hother => ?_, fun _ => rfl⟩
    simp only [gives_cons, gives_nil, or_false] at hvalue hother
    exact hvalue.unique hother
  | cons next rest ih =>
    rw [List.pairwise_cons] at hsorted
    obtain ⟨hfirst, hrest⟩ := hsorted
    have hstart := hfirst next List.mem_cons_self
    rw [coalesce]
    split
    next hapart =>
      rw [Option.isSome_map, ih hrest]
      refine (consistent_cons_of_apart fun run hrun => ?_).symm
      rcases List.mem_cons.mp hrun with rfl | hrun
      · exact hapart
      · exact hapart.trans_le (List.rel_of_pairwise_cons hrest hrun)
    next htouch =>
      have hstop := not_lt.mp htouch
      cases habsorb : absorb current next with
      | none =>
        refine ⟨fun h => (nomatch h), fun h => ?_⟩
        have hpair : Consistent [current, next] := h.of_subset (by simp)
        rw [← absorb_isSome_iff hstart, habsorb] at hpair
        cases hpair
      | some joined =>
        rw [Option.bind_some, ih, consistent_congr (gives_absorb hstart hstop habsorb rest)]
        rw [List.pairwise_cons, start_absorb habsorb]
        exact ⟨fun run hrun => hfirst run (List.mem_cons_of_mem _ hrun), hrest.of_cons⟩

/-- The result of coalescing. -/
theorem coalesced_of_eq_some {rest out : List (Run α)}
    (hsorted : (current :: rest).Pairwise fun run next => run.start ≤ next.start)
    (hitems : ∀ run ∈ current :: rest, run.items ≠ []) (h : coalesce current rest = some out) :
    Coalesced current rest out := by
  induction rest generalizing current out with
  | nil =>
    cases h
    exact {
      canonical := ⟨hitems, List.pairwise_singleton _ _⟩
      start_le := fun run hrun => by rw [List.mem_singleton.mp hrun]
      gives := fun _ _ => Iff.rfl }
  | cons next rest ih =>
    rw [List.pairwise_cons] at hsorted
    obtain ⟨hfirst, hrest⟩ := hsorted
    have hstart := hfirst next List.mem_cons_self
    rw [coalesce] at h
    split at h
    next hapart =>
      obtain ⟨tail, htail, rfl⟩ := Option.map_eq_some_iff.mp h
      have hcoalesced := ih hrest (fun run hrun => hitems run (List.mem_cons_of_mem _ hrun)) htail
      refine ⟨⟨?_, ?_⟩, ?_, ?_⟩
      · intro run hrun
        rcases List.mem_cons.mp hrun with rfl | hrun
        · exact hitems _ List.mem_cons_self
        · exact hcoalesced.canonical.nonempty run hrun
      · refine List.pairwise_cons.mpr ⟨fun run hrun => ?_, hcoalesced.canonical.apart⟩
        exact hapart.trans_le (hcoalesced.start_le run hrun)
      · intro run hrun
        rcases List.mem_cons.mp hrun with rfl | hrun
        · exact le_rfl
        · exact hstart.trans (hcoalesced.start_le run hrun)
      · intro place value
        rw [gives_cons, gives_cons, hcoalesced.gives]
    next htouch =>
      obtain ⟨joined, habsorb, h⟩ := Option.bind_eq_some_iff.mp h
      have hjoined := start_absorb habsorb
      have hcoalesced : Coalesced joined rest out := by
        refine ih ?_ ?_ h
        · rw [List.pairwise_cons, hjoined]
          exact ⟨fun run hrun => hfirst run (List.mem_cons_of_mem _ hrun), hrest.of_cons⟩
        · intro run hrun
          rcases List.mem_cons.mp hrun with rfl | hrun
          · exact items_absorb_ne_nil habsorb (hitems _ List.mem_cons_self)
          · exact hitems run (List.mem_cons_of_mem _ (List.mem_cons_of_mem _ hrun))
      exact {
        canonical := hcoalesced.canonical
        start_le := fun run hrun => hjoined ▸ hcoalesced.start_le run hrun
        gives := fun place value => (hcoalesced.gives place value).trans
          (gives_absorb hstart (not_lt.mp htouch) habsorb rest place value) }

end Absorb

/-! ### Canonical lists -/

section Canonical

variable {run other : Run α} {runs others : List (Run α)} {place : ℕ} {value : α}

lemma Canonical.tail (h : Canonical (run :: runs)) : Canonical runs :=
  ⟨fun next hnext => h.nonempty next (List.mem_cons_of_mem _ hnext), h.apart.of_cons⟩

lemma Canonical.start_lt_stop (h : Canonical (run :: runs)) : run.start < run.stop := by
  have := List.length_pos_of_ne_nil (h.nonempty run List.mem_cons_self)
  rw [Run.stop]
  omega

/-- The runs behind the first one start behind its end. -/
lemma Canonical.stop_lt (h : Canonical (run :: runs)) (hgives : Gives runs place value) :
    run.stop < place :=
  hgives.start_le fun _ hnext => (List.pairwise_cons.mp h.apart).1 _ hnext

/-- Up to its end the first run gives all there is. -/
lemma Canonical.at_iff (h : Canonical (run :: runs)) (hplace : place ≤ run.stop) :
    Gives (run :: runs) place value ↔ run.At place value := by
  rw [gives_cons]
  refine ⟨fun hgives => hgives.resolve_right fun hrest => ?_, Or.inl⟩
  have := h.stop_lt hrest
  omega

/-- Behind its end it gives nothing. -/
lemma Canonical.gives_tail_iff (h : Canonical (run :: runs)) :
    Gives runs place value ↔ Gives (run :: runs) place value ∧ run.stop < place := by
  rw [gives_cons]
  constructor
  · exact fun hgives => ⟨Or.inr hgives, h.stop_lt hgives⟩
  · rintro ⟨hgives, hplace⟩
    refine hgives.resolve_left fun hat => ?_
    have := hat.lt_stop
    omega

/-- Every place of the first run is given a value. -/
lemma Canonical.exists_gives (h : Canonical (run :: runs)) (hstart : run.start ≤ place)
    (hstop : place < run.stop) : ∃ value, Gives (run :: runs) place value := by
  obtain ⟨value, hat⟩ := Run.exists_at hstart hstop
  exact ⟨value, (h.at_iff hstop.le).mpr hat⟩

lemma Canonical.start_le_of_gives (h : Canonical (run :: runs))
    (hgives : Gives (run :: runs) place value) : run.start ≤ place := by
  rcases gives_cons.mp hgives with hat | hrest
  · exact hat.1
  · have := h.stop_lt hrest
    have := h.start_lt_stop
    omega

section Heads

variable (h : Canonical (run :: runs)) (hother : Canonical (other :: others))
  (hgives : ∀ place value, Gives (run :: runs) place value ↔ Gives (other :: others) place value)

include h hother hgives

lemma Canonical.start_le_start : run.start ≤ other.start := by
  obtain ⟨value, hvalue⟩ := hother.exists_gives le_rfl hother.start_lt_stop
  exact h.start_le_of_gives ((hgives _ _).mpr hvalue)

lemma Canonical.stop_le_stop (hstart : run.start = other.start) : run.stop ≤ other.stop := by
  by_contra hlt
  have := hother.start_lt_stop
  obtain ⟨value, hvalue⟩ := h.exists_gives (show run.start ≤ other.stop by omega) (by omega)
  have := ((hother.at_iff le_rfl).mp ((hgives _ _).mp hvalue)).lt_stop
  omega

end Heads

lemma places_cons : {place | ∃ value, Gives (run :: runs) place value} =
    Set.Ico run.start run.stop ∪ {place | ∃ value, Gives runs place value} := by
  ext place
  simp only [Set.mem_ofPred_eq, Set.mem_union, Set.mem_Ico, gives_cons, exists_or]
  refine or_congr_left ⟨fun ⟨value, hat⟩ => ⟨hat.1, hat.lt_stop⟩, fun hplace => ?_⟩
  exact Run.exists_at hplace.1 hplace.2

lemma finite_places (runs : List (Run α)) : {place | ∃ value, Gives runs place value}.Finite := by
  induction runs with
  | nil => simp
  | cons run runs ih =>
    rw [places_cons]
    exact (Set.finite_Ico _ _).union ih

/-- The places of canonical runs are as many as their items. -/
theorem Canonical.ncard_places (h : Canonical runs) :
    {place | ∃ value, Gives runs place value}.ncard = (runs.map (·.items.length)).sum := by
  induction runs with
  | nil => simp
  | cons run runs ih =>
    have hdisjoint : Disjoint (Set.Ico run.start run.stop)
        {place | ∃ value, Gives runs place value} := by
      refine Set.disjoint_left.mpr fun place hplace ⟨value, hvalue⟩ => ?_
      have := h.stop_lt hvalue
      have := hplace.2
      omega
    rw [places_cons, Set.ncard_union_eq hdisjoint (Set.finite_Ico _ _) (finite_places runs),
      ih h.tail, List.map_cons, List.sum_cons, ← Finset.coe_Ico, Set.ncard_coe_finset, Nat.card_Ico,
      Run.stop, Nat.add_sub_cancel_left]

/-- There is one canonical list for the values that it gives. -/
theorem Canonical.unique (h : Canonical runs) (hother : Canonical others)
    (hgives : ∀ place value, Gives runs place value ↔ Gives others place value) :
    runs = others := by
  induction runs generalizing others with
  | nil =>
    cases others with
    | nil => rfl
    | cons other others =>
      obtain ⟨value, hvalue⟩ := hother.exists_gives le_rfl hother.start_lt_stop
      exact absurd ((hgives _ _).mpr hvalue) gives_nil
  | cons run runs ih =>
    cases others with
    | nil =>
      obtain ⟨value, hvalue⟩ := h.exists_gives le_rfl h.start_lt_stop
      exact absurd ((hgives _ _).mp hvalue) gives_nil
    | cons other others =>
      have hgives' := fun place value => (hgives place value).symm
      have hstart : run.start = other.start :=
        le_antisymm (h.start_le_start hother hgives) (hother.start_le_start h hgives')
      have hstop : run.stop = other.stop :=
        le_antisymm (h.stop_le_stop hother hgives hstart)
          (hother.stop_le_stop h hgives' hstart.symm)
      have hat : ∀ place value, run.At place value ↔ other.At place value := by
        intro place value
        by_cases hplace : place ≤ run.stop
        · rw [← h.at_iff hplace, ← hother.at_iff (hstop ▸ hplace), hgives]
        · exact ⟨fun hat => absurd hat.lt_stop (by omega), fun hat => absurd hat.lt_stop (by omega)⟩
      have hitems : run.items = other.items := by
        refine List.ext_getElem? fun i => Option.ext fun value => ?_
        have := hat (run.start + i) value
        simpa [Run.At, hstart] using this
      have htail : runs = others := by
        refine ih h.tail hother.tail fun place value => ?_
        rw [h.gives_tail_iff, hother.gives_tail_iff, hgives, hstop]
      obtain ⟨start, items⟩ := run
      cases hstart
      cases hitems
      rw [htail]

end Canonical

end VitaSX2.Runs
