/-
Deadlocks among destructive moves.

A finite family of moves, each with a target and a source, is *deadlocked* when
every move of it would overwrite the source of a move of the family: whatever
move goes first destroys a value that is still needed.  When the overlaps are
exact (a target that meets a source is that source) and the targets are
pairwise disjoint, a deadlocked family is a union of cycles, so that every
source of the family is the target of a move of the family.  This is what makes
it possible to break a deadlock by saving a single source.
-/
import Mathlib.Data.Fintype.EquivFin
import Mathlib.Data.List.Basic
import Mathlib.Data.List.Pairwise

namespace VitaSX2.Deadlock

variable {M L : Type*} (target source : M → L) (overlaps same : L → L → Prop)

/-- Every move of the list overwrites a part of the source of a move of the list. -/
def Deadlocked (moves : List M) : Prop :=
  ∀ m ∈ moves, ∃ n ∈ moves, overlaps (target m) (source n)

/-- Every move of the list overwrites exactly the source of a move of the list. -/
def ExactlyDeadlocked (moves : List M) : Prop :=
  ∀ m ∈ moves, ∃ n ∈ moves, same (target m) (source n)

instance [DecidableRel overlaps] (moves : List M) :
    Decidable (Deadlocked target source overlaps moves) :=
  inferInstanceAs (Decidable (∀ m ∈ moves, ∃ n ∈ moves, overlaps (target m) (source n)))

instance [DecidableRel same] (moves : List M) :
    Decidable (ExactlyDeadlocked target source same moves) :=
  inferInstanceAs (Decidable (∀ m ∈ moves, ∃ n ∈ moves, same (target m) (source n)))

/-- In an exactly deadlocked list with disjoint targets every source is the
target of some move of the list. -/
theorem exists_target_of_source {moves : List M}
    (hdisj : moves.Pairwise fun m n => ¬ overlaps (target m) (target n))
    (hmerge : ∀ a b c : L, same a c → same b c → overlaps a b)
    (hdead : ExactlyDeadlocked target source same moves) :
    ∀ n ∈ moves, ∃ m ∈ moves, same (target m) (source n) := by
  have hstep : ∀ i : Fin moves.length, ∃ j : Fin moves.length,
      same (target (moves.get i)) (source (moves.get j)) := by
    intro i
    obtain ⟨n, hn, hsame⟩ := hdead _ (List.get_mem moves i)
    obtain ⟨j, rfl⟩ := List.get_of_mem hn
    exact ⟨j, hsame⟩
  choose next hnext using hstep
  have hinj : Function.Injective next := by
    intro i j hij
    have hov : overlaps (target (moves.get i)) (target (moves.get j)) :=
      hmerge _ _ _ (hnext i) (hij ▸ hnext j)
    have hov' : overlaps (target (moves.get j)) (target (moves.get i)) :=
      hmerge _ _ _ (hij ▸ hnext j) (hnext i)
    rcases lt_trichotomy i j with hlt | heq | hlt
    · exact absurd hov (List.pairwise_iff_get.1 hdisj i j hlt)
    · exact heq
    · exact absurd hov' (List.pairwise_iff_get.1 hdisj j i hlt)
  intro n hn
  obtain ⟨j, rfl⟩ := List.get_of_mem hn
  obtain ⟨i, rfl⟩ := (Finite.injective_iff_surjective.1 hinj) j
  exact ⟨moves.get i, List.get_mem moves i, hnext i⟩

/-- Take the moves of a deadlocked list whose sources may still be overwritten
(`live`).  If the list stays deadlocked on the live sources alone, and the
deadlocks are exact, then every source of the list is live. -/
theorem all_live_of_deadlocked {moves : List M} (live : M → Bool)
    (hdisj : moves.Pairwise fun m n => ¬ overlaps (target m) (target n))
    (hsymm : ∀ a b : L, overlaps a b → overlaps b a)
    (hmerge : ∀ a b c : L, same a c → same b c → overlaps a b)
    (htrans : ∀ a b c : L, overlaps a c → same b c → overlaps a b)
    (hlive : ∀ m ∈ moves, ∃ n ∈ moves, live n ∧ overlaps (target m) (source n))
    (hexact : ∀ sub, sub.Sublist moves → Deadlocked target source overlaps sub →
      ExactlyDeadlocked target source same sub) :
    ∀ m ∈ moves, live m = true := by
  have hsub : (moves.filter live).Sublist moves := List.filter_sublist
  have hdead : Deadlocked target source overlaps (moves.filter live) := by
    intro m hm
    obtain ⟨n, hn, hln, hov⟩ := hlive m (hsub.subset hm)
    exact ⟨n, List.mem_filter.2 ⟨hn, hln⟩, hov⟩
  have hsource := exists_target_of_source target source overlaps same (hdisj.sublist hsub) hmerge
    (hexact _ hsub hdead)
  intro m hm
  by_contra hdeadMove
  -- the target of `m` would meet a live source, hence the target of a live move
  obtain ⟨n, hn, hln, hov⟩ := hlive m hm
  obtain ⟨k, hk, hsame⟩ := hsource n (List.mem_filter.2 ⟨hn, hln⟩)
  have hmk : overlaps (target m) (target k) := htrans _ _ _ hov hsame
  have hlk : live k = true := (List.mem_filter.1 hk).2
  obtain ⟨i, rfl⟩ := List.get_of_mem hm
  obtain ⟨j, rfl⟩ := List.get_of_mem (hsub.subset hk)
  rcases lt_trichotomy i j with hlt | heq | hlt
  · exact List.pairwise_iff_get.1 hdisj i j hlt hmk
  · exact hdeadMove (heq ▸ hlk)
  · exact List.pairwise_iff_get.1 hdisj j i hlt (hsymm _ _ hmk)

end VitaSX2.Deadlock
