/-
Copies of runs from one memory to another.

A run is a number of consecutive places that are copied one after the other.  Runs cover
an index set when their places are those of the indices; the copy then takes the place of
every index and leaves all others alone.
-/
import Mathlib.Algebra.Group.Nat.Defs
import Mathlib.Data.List.Induction
import Mathlib.Data.Nat.Notation
import Mathlib.Data.Set.Function

namespace VitaSX2.RunCopy

variable {α : Type*}

/-- Consecutive places of a destination and of a source. -/
structure Run where
  destination : ℕ
  source : ℕ
  length : ℕ
deriving DecidableEq, Repr

/-- The run of the way back. -/
def Run.swap (run : Run) : Run := ⟨run.source, run.destination, run.length⟩

@[simp] lemma Run.swap_destination (run : Run) : run.swap.destination = run.source := rfl

@[simp] lemma Run.swap_source (run : Run) : run.swap.source = run.destination := rfl

@[simp] lemma Run.swap_length (run : Run) : run.swap.length = run.length := rfl

/-- One run is copied. -/
def copyRun (source memory : ℕ → α) (run : Run) : ℕ → α := fun place =>
  if run.destination ≤ place ∧ place < run.destination + run.length then
    source (run.source + (place - run.destination))
  else memory place

/-- Runs are copied one after the other. -/
def copyRuns (source memory : ℕ → α) (runs : List Run) : ℕ → α :=
  runs.foldl (copyRun source) memory

section Covers

variable {ι : Type*} {destination source : ι → ℕ} {indices indices' : Set ι}
  {runs runs' : List Run} {values memory : ℕ → α}

/-- The places of the runs are those of the indices. -/
structure Covers (runs : List Run) (destination source : ι → ℕ) (indices : Set ι) : Prop where
  index : ∀ run ∈ runs, ∀ k < run.length, ∃ i ∈ indices,
    destination i = run.destination + k ∧ source i = run.source + k
  run : ∀ i ∈ indices, ∃ run ∈ runs, ∃ k < run.length,
    destination i = run.destination + k ∧ source i = run.source + k

lemma covers_nil : Covers [] destination source (∅ : Set ι) := by
  constructor
  · exact fun run hrun => nomatch hrun
  · exact fun i hi => hi.elim

/-- A single run covers the indices that its places are numbered by. -/
lemma covers_singleton {run : Run} (index : ℕ → ι)
    (hindex : ∀ k < run.length, index k ∈ indices ∧ destination (index k) = run.destination + k ∧
      source (index k) = run.source + k)
    (hall : ∀ i ∈ indices, ∃ k < run.length, index k = i) :
    Covers [run] destination source indices := by
  constructor
  · intro other hother k hk
    obtain rfl := List.mem_singleton.mp hother
    exact ⟨index k, hindex k hk⟩
  · intro i hi
    obtain ⟨k, hk, rfl⟩ := hall i hi
    exact ⟨run, List.mem_singleton_self _, k, hk, (hindex k hk).2⟩

lemma Covers.append (h : Covers runs destination source indices)
    (h' : Covers runs' destination source indices') :
    Covers (runs ++ runs') destination source (indices ∪ indices') := by
  constructor
  · intro run hrun k hk
    rcases List.mem_append.mp hrun with hrun | hrun
    · obtain ⟨i, hi, hplaces⟩ := h.index run hrun k hk
      exact ⟨i, Or.inl hi, hplaces⟩
    · obtain ⟨i, hi, hplaces⟩ := h'.index run hrun k hk
      exact ⟨i, Or.inr hi, hplaces⟩
  · rintro i (hi | hi)
    · obtain ⟨run, hrun, hplaces⟩ := h.run i hi
      exact ⟨run, List.mem_append_left _ hrun, hplaces⟩
    · obtain ⟨run, hrun, hplaces⟩ := h'.run i hi
      exact ⟨run, List.mem_append_right _ hrun, hplaces⟩

/-- The runs of many parts cover the union of what the parts cover. -/
lemma Covers.flatMap {β : Type*} {parts : List β} {runsOf : β → List Run} {indicesOf : β → Set ι}
    (h : ∀ part ∈ parts, Covers (runsOf part) destination source (indicesOf part)) :
    Covers (parts.flatMap runsOf) destination source {i | ∃ part ∈ parts, i ∈ indicesOf part} := by
  constructor
  · intro run hrun k hk
    obtain ⟨part, hpart, hrun⟩ := List.mem_flatMap.mp hrun
    obtain ⟨i, hi, hplaces⟩ := (h part hpart).index run hrun k hk
    exact ⟨i, ⟨part, hpart, hi⟩, hplaces⟩
  · rintro i ⟨part, hpart, hi⟩
    obtain ⟨run, hrun, hplaces⟩ := (h part hpart).run i hi
    exact ⟨run, List.mem_flatMap.mpr ⟨part, hpart, hrun⟩, hplaces⟩

/-- The runs of the way back cover the same indices. -/
lemma Covers.swap (h : Covers runs destination source indices) :
    Covers (runs.map Run.swap) source destination indices := by
  constructor
  · intro run hrun k hk
    obtain ⟨run, hmem, rfl⟩ := List.mem_map.mp hrun
    obtain ⟨i, hi, hdestination, hsource⟩ := h.index run hmem k hk
    exact ⟨i, hi, hsource, hdestination⟩
  · intro i hi
    obtain ⟨run, hrun, k, hk, hdestination, hsource⟩ := h.run i hi
    exact ⟨run.swap, List.mem_map_of_mem hrun, k, hk, hsource, hdestination⟩

/-- What the copy of some runs leaves alone. -/
lemma copyRuns_of_notMem {place : ℕ}
    (h : ∀ run ∈ runs, ¬ (run.destination ≤ place ∧ place < run.destination + run.length)) :
    copyRuns values memory runs place = memory place := by
  unfold copyRuns
  induction runs generalizing memory with
  | nil => rfl
  | cons run runs ih =>
    rw [List.foldl_cons, ih fun other hother => h other (List.mem_cons_of_mem _ hother), copyRun,
      if_neg (h run List.mem_cons_self)]

/-- A place in one of the runs takes the value that all runs give it. -/
lemma copyRuns_of_mem {place : ℕ} {value : α}
    (hsame : ∀ run ∈ runs, ∀ k < run.length, run.destination + k = place →
      values (run.source + k) = value)
    (hmem : ∃ run ∈ runs, run.destination ≤ place ∧ place < run.destination + run.length) :
    copyRuns values memory runs place = value := by
  unfold copyRuns
  induction runs using List.reverseRecOn with
  | nil =>
    obtain ⟨run, hrun, -⟩ := hmem
    cases hrun
  | append_singleton runs last ih =>
    rw [List.foldl_append, List.foldl_cons, List.foldl_nil, copyRun]
    split_ifs with hlast
    · exact hsame last List.mem_concat_self _ (by omega) (by omega)
    · refine ih (fun run hrun => hsame run (List.mem_append_left _ hrun)) ?_
      obtain ⟨run, hrun, hplace⟩ := hmem
      rcases List.mem_append.mp hrun with hrun | hrun
      · exact ⟨run, hrun, hplace⟩
      · obtain rfl := List.mem_singleton.mp hrun
        exact absurd hplace hlast

/-- The place of an index takes its value. -/
theorem Covers.copyRuns_apply (h : Covers runs destination source indices)
    (hinj : Set.InjOn destination indices) {i : ι} (hi : i ∈ indices) :
    copyRuns values memory runs (destination i) = values (source i) := by
  refine copyRuns_of_mem (fun run hrun k hk hplace => ?_) ?_
  · obtain ⟨j, hj, hdestination, hsource⟩ := h.index run hrun k hk
    obtain rfl := hinj hj hi (hdestination.trans hplace)
    rw [hsource]
  · obtain ⟨run, hrun, k, hk, hplace, -⟩ := h.run i hi
    exact ⟨run, hrun, by omega, by omega⟩

/-- A place of no index keeps its value. -/
theorem Covers.copyRuns_frame (h : Covers runs destination source indices) {place : ℕ}
    (hplace : ∀ i ∈ indices, destination i ≠ place) :
    copyRuns values memory runs place = memory place := by
  refine copyRuns_of_notMem fun run hrun hin => ?_
  obtain ⟨i, hi, hdestination, -⟩ := h.index run hrun (place - run.destination) (by omega)
  exact hplace i hi (by omega)

end Covers

end VitaSX2.RunCopy
