/-
Indices that are put into groups, and the joining of two groups.

A table gives each index the name of its group, or none.  Joining renames one
group to another; as long as the two have no members that meet, the members of a
group still do not meet.
-/
import Mathlib.Data.Finset.Card
import Mathlib.Data.List.Basic

namespace VitaSX2.Grouping

variable {κ : Type*} [DecidableEq κ]

/-- The group of an index. -/
def groupAt (groups : List (Option κ)) (index : ℕ) : Option κ :=
  groups.getD index none

/-- The members of the second group go over to the first one. -/
def join (source target : κ) (groups : List (Option κ)) : List (Option κ) :=
  groups.map fun group => if group = some target then some source else group

/-- The groups that have a member. -/
def names (groups : List (Option κ)) : Finset κ :=
  (groups.filterMap id).toFinset

/-- No two members of one group meet. -/
def Separate (meets : ℕ → ℕ → Prop) (groups : List (Option κ)) : Prop :=
  ∀ i j name, i ≠ j → groupAt groups i = some name → groupAt groups j = some name → ¬ meets i j

variable {groups : List (Option κ)} {source target name : κ} {index : ℕ}

omit [DecidableEq κ] in
lemma mem_of_groupAt (h : groupAt groups index = some name) : some name ∈ groups := by
  rw [groupAt, List.getD_eq_getElem?_getD] at h
  cases hget : groups[index]? with
  | none =>
    rw [hget] at h
    cases h
  | some group =>
    rw [hget, Option.getD_some] at h
    exact h ▸ List.mem_of_getElem? hget

lemma mem_names : name ∈ names groups ↔ some name ∈ groups := by
  simp [names]

lemma groupAt_join :
    groupAt (join source target groups) index =
      if groupAt groups index = some target then some source else groupAt groups index := by
  rw [groupAt, groupAt, join, List.getD_eq_getElem?_getD, List.getD_eq_getElem?_getD,
    List.getElem?_map]
  cases groups[index]? with
  | none => rfl
  | some group => rfl

/-- Joining two groups leaves fewer of them. -/
lemma card_names_join (hsource : some source ∈ groups) (htarget : some target ∈ groups)
    (hne : source ≠ target) : (names (join source target groups)).card < (names groups).card := by
  refine Finset.card_lt_card ⟨fun name hname => ?_, fun hsub => ?_⟩
  · obtain ⟨group, hgroup, heq⟩ := List.mem_map.mp (mem_names.mp hname)
    rw [mem_names]
    split at heq
    next => exact (Option.some.inj heq) ▸ hsource
    next => exact heq ▸ hgroup
  · obtain ⟨group, -, heq⟩ := List.mem_map.mp (mem_names.mp (hsub (mem_names.mpr htarget)))
    split at heq
    next => exact hne (Option.some.inj heq)
    next hgroup => exact hgroup heq

lemma card_names_le : (names groups).card ≤ groups.length :=
  (List.toFinset_card_le _).trans (List.length_filterMap_le _ _)

/-- Groups without members that meet may be joined. -/
lemma Separate.join {meets : ℕ → ℕ → Prop} (h : Separate meets groups)
    (hsymm : ∀ i j, meets i j → meets j i)
    (hapart : ∀ i j, groupAt groups i = some source → groupAt groups j = some target →
      ¬ meets i j) :
    Separate meets (join source target groups) := by
  intro i j name hij hi hj hmeets
  rw [groupAt_join] at hi hj
  split at hi <;> split at hj
  next hi' hj' => exact h i j target hij hi' hj' hmeets
  next hi' hj' =>
    cases hi
    exact hapart j i hj hi' (hsymm i j hmeets)
  next hi' hj' =>
    cases hj
    exact hapart i j hi hj' hmeets
  next => exact h i j name hij hi hj hmeets

end VitaSX2.Grouping
