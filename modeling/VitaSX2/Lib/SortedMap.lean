/-
Ordered maps as lists of entries in the order of their keys (`std::map`).

An operation on a key is read off a split of the list around that key.
-/
import Mathlib.Data.List.Basic
import Mathlib.Data.Nat.Notation

namespace VitaSX2.SortedMap

variable {β : Type*}

/-- The keys ascend. -/
abbrev Sorted (entries : List (ℕ × β)) : Prop :=
  entries.Pairwise fun left right => left.1 < right.1

/-- `emplace`: a key that is there keeps its value. -/
def emplace (key : ℕ) (value : β) : List (ℕ × β) → List (ℕ × β)
  | [] => [(key, value)]
  | entry :: entries =>
    if key < entry.1 then (key, value) :: entry :: entries
    else if key = entry.1 then entry :: entries
    else entry :: emplace key value entries

/-- `erase` of the entry of a key. -/
def erase (key : ℕ) : List (ℕ × β) → List (ℕ × β)
  | [] => []
  | entry :: entries => if entry.1 = key then entries else entry :: erase key entries

/-- `find`. -/
def find (key : ℕ) (entries : List (ℕ × β)) : Option (ℕ × β) :=
  entries.find? fun entry => entry.1 = key

/-- `lower_bound`. -/
def lowerBound (key : ℕ) (entries : List (ℕ × β)) : Option (ℕ × β) :=
  entries.find? fun entry => key ≤ entry.1

/-- The entry in front of `lower_bound`. -/
def prevBound (key : ℕ) (entries : List (ℕ × β)) : Option (ℕ × β) :=
  (entries.takeWhile fun entry => entry.1 < key).getLast?

section Split

variable {key : ℕ} {value : β} {front back : List (ℕ × β)}

/-- A new key goes where the keys pass it. -/
lemma emplace_append (hfront : ∀ entry ∈ front, entry.1 < key)
    (hback : ∀ entry ∈ back, key < entry.1) :
    emplace key value (front ++ back) = front ++ (key, value) :: back := by
  induction front with
  | nil =>
    cases back with
    | nil => rfl
    | cons entry back => exact if_pos (hback entry List.mem_cons_self)
  | cons entry front ih =>
    have hentry := hfront entry List.mem_cons_self
    rw [List.cons_append, emplace, if_neg (by omega), if_neg (by omega),
      ih fun other hother => hfront other (List.mem_cons_of_mem _ hother), List.cons_append]

lemma erase_append (hfront : ∀ entry ∈ front, entry.1 < key) :
    erase key (front ++ (key, value) :: back) = front ++ back := by
  induction front with
  | nil => exact if_pos rfl
  | cons entry front ih =>
    have hentry := hfront entry List.mem_cons_self
    rw [List.cons_append, erase, if_neg (by omega),
      ih fun other hother => hfront other (List.mem_cons_of_mem _ hother), List.cons_append]

lemma lowerBound_append (hfront : ∀ entry ∈ front, entry.1 < key)
    (hback : ∀ entry ∈ back, key ≤ entry.1) : lowerBound key (front ++ back) = back.head? := by
  rw [lowerBound, List.find?_append, List.find?_eq_none.mpr, Option.none_or]
  · cases back with
    | nil => rfl
    | cons entry back => simp [hback entry List.mem_cons_self]
  · intro entry hentry
    have := hfront entry hentry
    simp
    omega

lemma prevBound_append (hfront : ∀ entry ∈ front, entry.1 < key)
    (hback : ∀ entry ∈ back, key ≤ entry.1) : prevBound key (front ++ back) = front.getLast? := by
  rw [prevBound, List.takeWhile_append_of_pos (by simpa using hfront)]
  cases back with
  | nil => simp
  | cons entry back =>
    rw [List.takeWhile_cons_of_neg, List.append_nil]
    have := hback entry List.mem_cons_self
    simp
    omega

lemma mem_of_find {entries : List (ℕ × β)} {entry : ℕ × β} (h : find key entries = some entry) :
    entry ∈ entries ∧ entry.1 = key :=
  ⟨List.mem_of_find?_eq_some h, by simpa using List.find?_some h⟩

end Split

end VitaSX2.SortedMap
