/-
Deferred operations.

A journal holds operations that are not yet executed, and its replay executes
them in their order.  An operation whose effect a later one hides may be left out
of a journal, and what commutes with every operation of a journal may overtake it.
-/
import Mathlib.Data.List.Basic

namespace VitaSX2.Deferral

variable {S O : Type*} (apply : S → O → S)

def replay (journal : List O) (s : S) : S := journal.foldl apply s

@[simp] lemma replay_nil (s : S) : replay apply [] s = s := rfl

@[simp] lemma replay_append (journal journal' : List O) (s : S) :
    replay apply (journal ++ journal') s = replay apply journal' (replay apply journal s) :=
  List.foldl_append

@[simp] lemma replay_singleton (o : O) (s : S) : replay apply [o] s = apply s o := rfl

variable {apply} {journal : List O}

/-- A relation that the operations keep is kept by their replay. -/
theorem replay_rel {apply' : S → O → S} (R : S → S → Prop)
    (step : ∀ o ∈ journal, ∀ s t, R s t → R (apply s o) (apply' t o)) {s t : S} (h : R s t) :
    R (replay apply journal s) (replay apply' journal t) :=
  List.foldl_rel h step

theorem replay_congr {apply' : S → O → S} (h : ∀ o ∈ journal, ∀ s, apply s o = apply' s o) (s : S) :
    replay apply journal s = replay apply' journal s :=
  List.foldl_ext _ _ s fun s o ho => h o ho s

/-- A relation that every operation keeps is kept when operations that stay inside
it are left out on one side. -/
theorem replay_filter (agree : S → S → Prop) (keep : O → Bool)
    (htrans : ∀ r s t, agree r s → agree s t → agree r t)
    (hstep : ∀ o ∈ journal, ∀ s t, agree s t → agree (apply s o) (apply t o))
    (hdrop : ∀ o ∈ journal, keep o = false → ∀ s, agree s (apply s o)) {s t : S} (h : agree s t) :
    agree (replay apply (journal.filter keep) s) (replay apply journal t) := by
  induction journal generalizing s t with
  | nil => exact h
  | cons o journal ih =>
    have ih := @ih (fun o ho => hstep o (List.mem_cons_of_mem _ ho))
      (fun o ho => hdrop o (List.mem_cons_of_mem _ ho))
    cases hkeep : keep o with
    | true =>
      rw [List.filter_cons_of_pos hkeep]
      exact ih (hstep o List.mem_cons_self _ _ h)
    | false =>
      rw [List.filter_cons_of_neg (by simp [hkeep])]
      exact ih (htrans _ _ _ h (hdrop o List.mem_cons_self hkeep _))

/-- What commutes with the operations of a journal commutes with its replay. -/
theorem replay_comm {f : S → S} (h : ∀ o ∈ journal, ∀ s, f (apply s o) = apply (f s) o) (s : S) :
    f (replay apply journal s) = replay apply journal (f s) := by
  induction journal generalizing s with
  | nil => rfl
  | cons o journal ih =>
    have ih := ih fun o ho => h o (List.mem_cons_of_mem _ ho)
    change f (replay apply journal (apply s o)) = replay apply journal (apply (f s) o)
    rw [ih, h o List.mem_cons_self]

end VitaSX2.Deferral
