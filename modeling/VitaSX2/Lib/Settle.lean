/-
A pass that is repeated until it reports that it changed nothing.

A pass works on a table with a flag that says whether it changed something.  The
loop ends when every change lowers a measure, and its result is what one last
pass without a change returned.
-/
import Mathlib.Order.Basic

namespace VitaSX2.Settle

variable {α β : Type*}

/-- `while (changed) { changed = false; … }`, with a bound on the passes. -/
def settle (pass : α → α × Bool) : ℕ → α → Option α
  | 0, _ => none
  | fuel + 1, a => if (pass a).2 then settle pass fuel (pass a).1 else some (pass a).1

/-- The invariant holds afterwards, and the measure has gone down if the flag
has been raised. -/
def Advance (I : α → Prop) (measure : α → ℕ) (t t' : α × Bool) : Prop :=
  I t'.1 ∧ measure t'.1 ≤ measure t.1 ∧ (t'.2 = true → t.2 = true ∨ measure t'.1 < measure t.1)

variable {I : α → Prop} {measure : α → ℕ}

namespace Advance

lemma refl {t : α × Bool} (h : I t.1) : Advance I measure t t := ⟨h, Nat.le_refl _, Or.inl⟩

lemma trans {t t' t'' : α × Bool} (h : Advance I measure t t') (h' : Advance I measure t' t'') :
    Advance I measure t t'' := by
  obtain ⟨-, hle, hflag⟩ := h
  obtain ⟨hI, hle', hflag'⟩ := h'
  refine ⟨hI, Nat.le_trans hle' hle, fun hraised => ?_⟩
  rcases hflag' hraised with h | h
  · exact (hflag h).imp_right fun hlt => Nat.lt_of_le_of_lt hle' hlt
  · exact Or.inr (Nat.lt_of_lt_of_le h hle)

/-- A change. -/
lemma change {t : α × Bool} {a : α} (h : I a) (hlt : measure a < measure t.1) :
    Advance I measure t (a, true) :=
  ⟨h, Nat.le_of_lt hlt, fun _ => Or.inr hlt⟩

/-- An update that leaves the measure and the flag alone. -/
lemma silent {t : α × Bool} {a : α} (h : I a) (hle : measure a ≤ measure t.1) :
    Advance I measure t (a, t.2) :=
  ⟨h, hle, Or.inl⟩

lemma foldl (update : α × Bool → β → α × Bool) (l : List β)
    (h : ∀ t : α × Bool, I t.1 → ∀ b ∈ l, Advance I measure t (update t b)) {t : α × Bool}
    (ht : I t.1) : Advance I measure t (l.foldl update t) :=
  l.foldlRecOn (motive := fun t' => Advance I measure t t') update (refl ht)
    fun t' ht' b hb => ht'.trans (h t' ht'.1 b hb)

end Advance

/-! ### Quiet passes -/

section Quiet

variable {update : α × Bool → β → α × Bool}

lemma flag_foldl (hstay : ∀ a b, (update (a, true) b).2 = true) (l : List β) (a : α) :
    (l.foldl update (a, true)).2 = true := by
  induction l generalizing a with
  | nil => rfl
  | cons b rest ih =>
    have hnext : update (a, true) b = ((update (a, true) b).1, true) :=
      Prod.ext rfl (hstay a b)
    rw [List.foldl_cons, hnext]
    exact ih _

/-- A fold of updates that raise the flag when they change something has changed
nothing if the flag is still down. -/
lemma foldl_quiet (hstay : ∀ a b, (update (a, true) b).2 = true)
    (hraise : ∀ a b, update (a, false) b = (a, false) ∨ (update (a, false) b).2 = true)
    {l : List β} {a a' : α} (h : l.foldl update (a, false) = (a', false)) :
    a' = a ∧ ∀ b ∈ l, update (a, false) b = (a, false) := by
  induction l with
  | nil =>
    cases h
    exact ⟨rfl, by simp⟩
  | cons b rest ih =>
    rw [List.foldl_cons] at h
    rcases hraise a b with hquiet | hraised
    · rw [hquiet] at h
      obtain ⟨heq, hrest⟩ := ih h
      exact ⟨heq, List.forall_mem_cons.mpr ⟨hquiet, hrest⟩⟩
    · have hnext : update (a, false) b = ((update (a, false) b).1, true) :=
        Prod.ext rfl hraised
      have hflag := flag_foldl hstay rest (update (a, false) b).1
      rw [← hnext, h] at hflag
      cases hflag

end Quiet

variable {pass : α → α × Bool}

/-- The result comes from a quiet pass over a table with the invariant. -/
theorem exists_quiet_pass (hpass : ∀ a, I a → Advance I measure (a, false) (pass a)) {fuel : ℕ}
    {a b : α} (ha : I a) (h : settle pass fuel a = some b) :
    ∃ a', I a' ∧ pass a' = (b, false) := by
  induction fuel generalizing a with
  | zero => simp [settle] at h
  | succ fuel ih =>
    unfold settle at h
    split at h
    next => exact ih (hpass a ha).1 h
    next hquiet =>
      cases h
      exact ⟨a, ha, Prod.ext rfl (by simpa using hquiet)⟩

/-- More passes than the measure at the start are never needed. -/
theorem exists_settle (hpass : ∀ a, I a → Advance I measure (a, false) (pass a)) {fuel : ℕ} {a : α}
    (ha : I a) (hfuel : measure a < fuel) : ∃ b, settle pass fuel a = some b := by
  induction fuel generalizing a with
  | zero => exact absurd hfuel (Nat.not_lt_zero _)
  | succ fuel ih =>
    unfold settle
    split
    next hchanged =>
      obtain ⟨hI, -, hflag⟩ := hpass a ha
      have hlt : measure (pass a).1 < measure a := (hflag hchanged).resolve_left (by simp)
      exact ih hI (by omega)
    next => exact ⟨_, rfl⟩

end VitaSX2.Settle
