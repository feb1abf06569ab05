/-
Threads that take their steps one at a time over a shared state.

A step is a move of one thread, which sees its own control state and the shared
state, or a move of the surroundings, which sees only the shared state.  An
assertion about one thread survives every interleaving when its own moves keep
it and no move of anyone else disturbs it.
-/
import Mathlib.Logic.Function.Basic
import Mathlib.Logic.Relation

namespace VitaSX2.Interleaving

variable {ι σ τ : Type*}

/-- A shared state and the control state of every thread. -/
@[ext]
structure State (ι σ τ : Type*) where
  shared : σ
  threads : ι → τ

/-- What the threads and their surroundings may do. -/
structure System (ι σ τ : Type*) where
  move : ι → σ → τ → σ → τ → Prop
  ambient : σ → σ → Prop

namespace System

variable [DecidableEq ι] (system : System ι σ τ)

/-- One step of one thread or of the surroundings. -/
inductive Step : State ι σ τ → State ι σ τ → Prop
  | thread {state : State ι σ τ} (i : ι) {shared' : σ} {thread' : τ} :
      system.move i state.shared (state.threads i) shared' thread' →
      Step state ⟨shared', Function.update state.threads i thread'⟩
  | ambient {state : State ι σ τ} {shared' : σ} :
      system.ambient state.shared shared' → Step state ⟨shared', state.threads⟩

/-- The states of all runs from a state. -/
def Reachable (start state : State ι σ τ) : Prop := Relation.ReflTransGen system.Step start state

/-- A global assertion and one about each thread: every move keeps the assertion
of the thread that makes it and those of the others. -/
structure Stable (shared : σ → Prop) (thread : ι → σ → τ → Prop) : Prop where
  move : ∀ {i s t s' t'}, shared s → thread i s t → system.move i s t s' t' →
    shared s' ∧ thread i s' t'
  other : ∀ {i j s t u s' t'}, i ≠ j → shared s → thread i s t → thread j s u →
    system.move i s t s' t' → thread j s' u
  ambient : ∀ {s s'}, shared s → system.ambient s s' → shared s'
  ambientThread : ∀ {j s u s'}, shared s → thread j s u → system.ambient s s' → thread j s' u

variable {system} {shared : σ → Prop} {thread : ι → σ → τ → Prop}

/-- One step keeps stable assertions. -/
lemma Stable.step (h : system.Stable shared thread) {state state' : State ι σ τ}
    (hshared : shared state.shared) (hthread : ∀ i, thread i state.shared (state.threads i))
    (hstep : system.Step state state') :
    shared state'.shared ∧ ∀ i, thread i state'.shared (state'.threads i) := by
  cases hstep with
  | thread i hmove =>
    obtain ⟨hshared', hthread'⟩ := h.move hshared (hthread i) hmove
    refine ⟨hshared', fun j => ?_⟩
    by_cases hj : j = i
    · subst hj
      simpa using hthread'
    · show thread j _ (Function.update state.threads i _ j)
      rw [Function.update_of_ne hj]
      exact h.other (Ne.symm hj) hshared (hthread i) (hthread j) hmove
  | ambient hmove =>
    exact ⟨h.ambient hshared hmove, fun j => h.ambientThread hshared (hthread j) hmove⟩

/-- Stable assertions that hold at the start hold in every state of every run. -/
theorem Stable.reachable (h : system.Stable shared thread) {start state : State ι σ τ}
    (hshared : shared start.shared) (hthread : ∀ i, thread i start.shared (start.threads i))
    (hreach : system.Reachable start state) :
    shared state.shared ∧ ∀ i, thread i state.shared (state.threads i) := by
  induction hreach with
  | refl => exact ⟨hshared, hthread⟩
  | tail _ hstep ih => exact h.step ih.1 ih.2 hstep

/-- What holds at the start and is kept by every step holds in every state of every run. -/
theorem Reachable.invariant {P : State ι σ τ → Prop} {start state : State ι σ τ}
    (hreach : system.Reachable start state) (hstart : P start)
    (hstep : ∀ {state state'}, P state → system.Step state state' → P state') : P state := by
  induction hreach with
  | refl => exact hstart
  | tail _ hnext ih => exact hstep ih hnext

end System

end VitaSX2.Interleaving
