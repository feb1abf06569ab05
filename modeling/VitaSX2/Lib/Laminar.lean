/-
Sets of which any two are nested or disjoint, and the chains of their parents.

The parent of a set is the smallest set around it.  The sets around a set are the
set itself and those around its parent, so they are counted along the parents.
-/
import Mathlib.Data.Finset.Card

namespace VitaSX2.Laminar

variable {ι : Type*} [DecidableEq ι] (sets : ℕ → Finset ι) (count : ℕ)

/-- Any two of the sets are nested or disjoint, none is empty and none occurs twice. -/
structure Family : Prop where
  nested : ∀ i < count, ∀ j < count,
    sets i ⊆ sets j ∨ sets j ⊆ sets i ∨ Disjoint (sets i) (sets j)
  nonempty : ∀ i < count, (sets i).Nonempty
  injective : ∀ i < count, ∀ j < count, sets i = sets j → i = j

/-- The smallest set that strictly contains a set, if any does. -/
def IsParent (child : ℕ) : Option ℕ → Prop
  | none => ∀ j < count, ¬ sets child ⊂ sets j
  | some parent => parent < count ∧ sets child ⊂ sets parent ∧
    ∀ j < count, sets child ⊂ sets j → sets parent ⊆ sets j

/-- The sets around a set, itself among them. -/
def around (child : ℕ) : Finset ℕ := (Finset.range count).filter fun j => sets child ⊆ sets j

variable {sets count} {child parent i j : ℕ}

lemma mem_around : j ∈ around sets count child ↔ j < count ∧ sets child ⊆ sets j := by
  rw [around, Finset.mem_filter, Finset.mem_range]

omit [DecidableEq ι] in
/-- A smallest set around a set is contained in all others around it. -/
lemma Family.isParent (h : Family sets count) (hchild : child < count) (hparent : parent < count)
    (hsub : sets child ⊂ sets parent)
    (hleast : ∀ j < count, sets child ⊂ sets j → (sets parent).card ≤ (sets j).card) :
    IsParent sets count child (some parent) := by
  refine ⟨hparent, hsub, fun j hj hsubj => ?_⟩
  rcases h.nested parent hparent j hj with hle | hle | hdisjoint
  · exact hle
  · exact (Finset.eq_of_subset_of_card_le hle (hleast j hj hsubj)).symm.subset
  · obtain ⟨x, hx⟩ := h.nonempty child hchild
    exact absurd (hsubj.subset hx) (Finset.disjoint_left.mp hdisjoint (hsub.subset hx))

omit [DecidableEq ι] in
lemma Family.ssubset (h : Family sets count) (hi : i < count) (hj : j < count)
    (hsub : sets i ⊆ sets j) (hne : j ≠ i) : sets i ⊂ sets j :=
  Finset.ssubset_iff_subset_ne.mpr ⟨hsub, fun heq => hne (h.injective i hi j hj heq).symm⟩

/-- Nothing is around a set without a parent. -/
lemma Family.card_around_none (h : Family sets count) (hchild : child < count)
    (hparent : IsParent sets count child none) : (around sets count child).card = 1 := by
  rw [Finset.card_eq_one]
  refine ⟨child, Finset.eq_singleton_iff_unique_mem.mpr ⟨?_, fun j hj => ?_⟩⟩
  · exact mem_around.mpr ⟨hchild, Finset.Subset.refl _⟩
  · obtain ⟨hj, hsub⟩ := mem_around.mp hj
    by_contra hne
    exact hparent j hj (h.ssubset hchild hj hsub hne)

/-- Around a set are the set and what is around its parent. -/
lemma Family.card_around_some (h : Family sets count) (hchild : child < count)
    (hparent : IsParent sets count child (some parent)) :
    (around sets count child).card = (around sets count parent).card + 1 := by
  obtain ⟨hlt, hsub, hleast⟩ := hparent
  have hnot : child ∉ around sets count parent := fun hmem =>
    hsub.not_subset (mem_around.mp hmem).2
  have heq : around sets count child = insert child (around sets count parent) := by
    ext j
    rw [Finset.mem_insert, mem_around, mem_around]
    constructor
    · rintro ⟨hj, hsubj⟩
      by_cases hne : j = child
      · exact Or.inl hne
      · exact Or.inr ⟨hj, hleast j hj (h.ssubset hchild hj hsubj hne)⟩
    · rintro (rfl | ⟨hj, hsubj⟩)
      · exact ⟨hchild, Finset.Subset.refl _⟩
      · exact ⟨hj, hsub.subset.trans hsubj⟩
  rw [heq, Finset.card_insert_of_notMem hnot]

/-! ### Depths

The same set may occur more than once, and only the sets around one element need be
nested. -/

/-- The parent of a set is a smallest set that strictly contains it, and the depth
counts the parents. -/
structure Depths (sets : ℕ → Finset ι) (count : ℕ) (parent : ℕ → Option ℕ) (depth : ℕ → ℕ) :
    Prop where
  root : ∀ i < count, parent i = none → depth i = 0 ∧ ∀ j < count, ¬ sets i ⊂ sets j
  child : ∀ i < count, ∀ p, parent i = some p → p < count ∧ depth i = depth p + 1 ∧
    sets i ⊂ sets p ∧ ∀ j < count, sets i ⊂ sets j → (sets p).card ≤ (sets j).card

/-- The sets around an element are nested. -/
def ChainAt (sets : ℕ → Finset ι) (count : ℕ) (x : ι) : Prop :=
  ∀ i < count, ∀ j < count, x ∈ sets i → x ∈ sets j → sets i ⊆ sets j ∨ sets j ⊆ sets i

variable {parents : ℕ → Option ℕ} {depth : ℕ → ℕ} {x : ι}

omit [DecidableEq ι] in
/-- A parent is contained in every set that strictly contains its child. -/
lemma Depths.parent_subset (h : Depths sets count parents depth) (hchain : ChainAt sets count x)
    (hi : i < count) (hj : j < count) (hx : x ∈ sets j) (hsub : sets j ⊂ sets i)
    (hparent : parents j = some parent) : sets parent ⊆ sets i := by
  obtain ⟨hlt, -, hjp, hleast⟩ := h.child j hj parent hparent
  rcases hchain parent hlt i hi (hjp.subset hx) (hsub.subset hx) with hle | hle
  · exact hle
  · exact (Finset.eq_of_subset_of_card_le hle (hleast i hi hsub)).symm.subset

omit [DecidableEq ι] in
/-- A set around another one is at most as deep, and less deep when it is larger. -/
theorem Depths.le (h : Depths sets count parents depth) (hchain : ChainAt sets count x)
    (hi : i < count) (hj : j < count) (hx : x ∈ sets j) (hsub : sets j ⊆ sets i) :
    depth i ≤ depth j ∧ (¬ sets i ⊆ sets j → depth i < depth j) := by
  induction hdepth : depth j generalizing i j with
  | zero =>
    cases hj' : parents j with
    | some parent =>
      obtain ⟨-, hsucc, -⟩ := h.child j hj parent hj'
      omega
    | none =>
      obtain ⟨-, hlargest⟩ := h.root j hj hj'
      refine ⟨?_, fun hnot => absurd ⟨hsub, hnot⟩ (hlargest i hi)⟩
      cases hi' : parents i with
      | none => exact (h.root i hi hi').1.le
      | some parent =>
        obtain ⟨hlt, -, hip, -⟩ := h.child i hi parent hi'
        exact absurd (Finset.ssubset_of_subset_of_ssubset hsub hip) (hlargest parent hlt)
  | succ n ih =>
    cases hj' : parents j with
    | none =>
      obtain ⟨hzero, -⟩ := h.root j hj hj'
      omega
    | some parent =>
      obtain ⟨hlt, hsucc, hjp, -⟩ := h.child j hj parent hj'
      have hxp : x ∈ sets parent := hjp.subset hx
      by_cases hsame : sets i ⊆ sets j
      · -- Both sets are one, and their parents are compared.
        refine ⟨?_, fun hnot => absurd hsame hnot⟩
        cases hi' : parents i with
        | none =>
          obtain ⟨hzero, -⟩ := h.root i hi hi'
          omega
        | some above =>
          obtain ⟨habove, hsucc', hip, -⟩ := h.child i hi above hi'
          have hle := (ih habove hlt hxp (h.parent_subset hchain habove hj hx
            (Finset.ssubset_of_subset_of_ssubset hsub hip) hj') (by omega)).1
          omega
      · have hle := (ih hi hlt hxp (h.parent_subset hchain hi hj hx ⟨hsub, hsame⟩ hj')
          (by omega)).1
        exact ⟨by omega, fun _ => by omega⟩

omit [DecidableEq ι] in
/-- The deepest set around an element is contained in all others around it. -/
theorem Depths.deepest_subset (h : Depths sets count parents depth)
    (hchain : ChainAt sets count x) (hi : i < count) (hx : x ∈ sets i)
    (hdeepest : ∀ j < count, x ∈ sets j → depth j ≤ depth i) (hj : j < count) (hxj : x ∈ sets j) :
    sets i ⊆ sets j := by
  rcases hchain i hi j hj hx hxj with hle | hle
  · exact hle
  · by_contra hnot
    have hlt := (h.le hchain hi hj hxj hle).2 hnot
    have hle := hdeepest j hj hxj
    omega

end VitaSX2.Laminar
