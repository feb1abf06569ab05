/-
A forward analysis of a graph with a worklist.

Every node that has been reached carries a fact.  A visit carries the fact of a
node over its edges; a target whose fact grows is visited again.  When no visit is
pending, the facts are closed: what holds after a node holds before each of its
targets.

A fact is known by the states it holds of, so the order of the facts is the
inclusion of these sets and needs no laws of its own.
-/
import Mathlib.Logic.Function.Basic
import Mathlib.Data.List.Basic

namespace VitaSX2.Dataflow

/-- A graph with a fact for each reached node: what a node does to a fact, where
it leads, and how two facts of one node are joined. -/
structure Analysis (ι F : Type*) where
  transfer : ι → F → F
  targets : ι → List ι
  /-- The joined fact, and whether it differs from the first one. -/
  join : F → F → F × Bool

/-- The facts so far, and the nodes whose visit is pending. -/
structure Progress (ι F : Type*) where
  facts : ι → Option F
  work : List ι

variable {ι F σ : Type*} [DecidableEq ι] (analysis : Analysis ι F)

/-- A node whose fact has changed is pushed, unless it is pending already. -/
def Progress.push (progress : Progress ι F) (node : ι) : Progress ι F :=
  if node ∈ progress.work then progress else { progress with work := node :: progress.work }

/-- One edge: the fact after its source reaches its target. -/
def propagate (fact : F) (progress : Progress ι F) (target : ι) : Progress ι F :=
  match progress.facts target with
  | none =>
    { progress with facts := Function.update progress.facts target (some fact) }.push target
  | some current =>
    let joined := analysis.join current fact
    let progress :=
      { progress with facts := Function.update progress.facts target (some joined.1) }
    if joined.2 then progress.push target else progress

/-- The visit of a node that has been popped. -/
def visit (node : ι) (progress : Progress ι F) : Progress ι F :=
  match progress.facts node with
  | none => progress
  | some fact =>
    (analysis.targets node).foldl (propagate analysis (analysis.transfer node fact)) progress

/-- Visits until none is pending. -/
def solve : ℕ → Progress ι F → Option (ι → Option F)
  | _, ⟨facts, []⟩ => some facts
  | 0, ⟨_, _ :: _⟩ => none
  | fuel + 1, ⟨facts, node :: work⟩ => solve fuel (visit analysis node ⟨facts, work⟩)

/-- The facts reached from one node. -/
def solveFrom (fuel : ℕ) (entry : ι) (fact : F) : Option (ι → Option F) :=
  solve analysis fuel ⟨Function.update (fun _ => none) entry (some fact), [entry]⟩

/-! ### Closed facts -/

section Closed

variable (holds : F → σ → Prop)

/-- Whatever the first fact holds of, the second one does too. -/
def Weaker (strong weak : F) : Prop := ∀ s, holds strong s → holds weak s

/-- A join holds of what either side holds of, and is the first side when it says so. -/
structure LawfulJoin (analysis : Analysis ι F) : Prop where
  left : ∀ current fact, Weaker holds current (analysis.join current fact).1
  right : ∀ current fact, Weaker holds fact (analysis.join current fact).1
  unchanged : ∀ current fact, (analysis.join current fact).2 = false →
    (analysis.join current fact).1 = current

/-- A node has been reached with a fact weaker than the given one. -/
def ReachedBy (facts : ι → Option F) (fact : F) (node : ι) : Prop :=
  ∃ reached, facts node = some reached ∧ Weaker holds fact reached

/-- What holds after a reached node holds before its targets. -/
def ClosedAt (facts : ι → Option F) (node : ι) : Prop :=
  ∀ fact, facts node = some fact → ∀ target ∈ analysis.targets node,
    ReachedBy holds facts (analysis.transfer node fact) target

/-- The facts have grown, and whatever fact has changed belongs to a pending node. -/
structure Grown (progress next : Progress ι F) : Prop where
  facts : ∀ node fact, progress.facts node = some fact → ReachedBy holds next.facts fact node
  pending : ∀ node ∈ progress.work, node ∈ next.work
  changed : ∀ node, next.facts node ≠ progress.facts node → node ∈ next.work

variable {analysis holds}

omit [DecidableEq ι] in
lemma ReachedBy.trans {facts : ι → Option F} {strong weak : F} {node : ι}
    (h : ReachedBy holds facts weak node) (hweaker : Weaker holds strong weak) :
    ReachedBy holds facts strong node := by
  obtain ⟨reached, hfact, hreached⟩ := h
  exact ⟨reached, hfact, fun s hs => hreached s (hweaker s hs)⟩

namespace Grown

variable {progress middle next : Progress ι F}

omit [DecidableEq ι] in
lemma refl : Grown holds progress progress where
  facts _ fact h := ⟨fact, h, fun _ hs => hs⟩
  pending _ h := h
  changed _ h := absurd rfl h

omit [DecidableEq ι] in
lemma reachedBy (h : Grown holds progress next) {fact : F} {node : ι}
    (hreached : ReachedBy holds progress.facts fact node) :
    ReachedBy holds next.facts fact node := by
  obtain ⟨reached, hfact, hweaker⟩ := hreached
  exact (h.facts node reached hfact).trans hweaker

omit [DecidableEq ι] in
lemma trans (h : Grown holds progress middle) (h' : Grown holds middle next) :
    Grown holds progress next where
  facts node fact hfact := h'.reachedBy (h.facts node fact hfact)
  pending node hnode := h'.pending node (h.pending node hnode)
  changed node hnode := by
    by_cases heq : next.facts node = middle.facts node
    · rw [heq] at hnode
      exact h'.pending node (h.changed node hnode)
    · exact h'.changed node heq

end Grown

lemma facts_push (progress : Progress ι F) (node : ι) :
    (progress.push node).facts = progress.facts := by
  rw [Progress.push]
  split <;> rfl

lemma mem_push (progress : Progress ι F) (node : ι) : node ∈ (progress.push node).work := by
  rw [Progress.push]
  split
  next h => exact h
  next => exact List.mem_cons_self

lemma mem_push_of_mem {progress : Progress ι F} {node other : ι} (h : other ∈ progress.work) :
    other ∈ (progress.push node).work := by
  rw [Progress.push]
  split
  next => exact h
  next => exact List.mem_cons_of_mem _ h

/-- Setting the fact of one node to a weaker one and pushing the node. -/
lemma grown_push {progress : Progress ι F} {node : ι} {fact : F}
    (h : ∀ current, progress.facts node = some current → Weaker holds current fact) :
    Grown holds progress
      ({ progress with facts := Function.update progress.facts node (some fact) }.push node) where
  facts other current hcurrent := by
    rw [facts_push]
    by_cases heq : other = node
    · subst heq
      exact ⟨fact, Function.update_self .., h current hcurrent⟩
    · refine ⟨current, ?_, fun _ hs => hs⟩
      exact (Function.update_of_ne heq _ _).trans hcurrent
  pending other hother := mem_push_of_mem hother
  changed other hother := by
    rw [facts_push] at hother
    by_cases heq : other = node
    · exact heq ▸ mem_push _ _
    · exact absurd (Function.update_of_ne heq _ _) hother

lemma propagate_spec (hjoin : LawfulJoin holds analysis) (fact : F) (progress : Progress ι F)
    (target : ι) :
    Grown holds progress (propagate analysis fact progress target) ∧
      ReachedBy holds (propagate analysis fact progress target).facts fact target := by
  unfold propagate
  split
  next hnone =>
    refine ⟨grown_push fun current hcurrent => ?_, fact, ?_, fun _ hs => hs⟩
    · rw [hnone] at hcurrent
      cases hcurrent
    · rw [facts_push]
      exact Function.update_self ..
  next current hcurrent =>
    have hweaker := hjoin.left current fact
    dsimp only
    split
    next =>
      refine ⟨grown_push fun other hother => ?_, _, ?_, hjoin.right current fact⟩
      · rw [hcurrent] at hother
        cases hother
        exact hweaker
      · rw [facts_push]
        exact Function.update_self ..
    next hunchanged =>
      have hsame := hjoin.unchanged current fact (Bool.not_eq_true _ ▸ hunchanged)
      rw [hsame, ← hcurrent, Function.update_eq_self]
      exact ⟨Grown.refl, current, hcurrent, hsame ▸ hjoin.right current fact⟩

lemma foldl_propagate_spec (hjoin : LawfulJoin holds analysis) (fact : F) (targets : List ι)
    (progress : Progress ι F) :
    Grown holds progress (targets.foldl (propagate analysis fact) progress) ∧
      ∀ target ∈ targets, ReachedBy holds
        (targets.foldl (propagate analysis fact) progress).facts fact target := by
  induction targets generalizing progress with
  | nil => exact ⟨Grown.refl, fun _ h => absurd h List.not_mem_nil⟩
  | cons target rest ih =>
    obtain ⟨hgrown, hreached⟩ := propagate_spec hjoin fact progress target
    obtain ⟨hrest, hothers⟩ := ih (propagate analysis fact progress target)
    refine ⟨hgrown.trans hrest, fun other hother => ?_⟩
    rcases List.mem_cons.mp hother with rfl | hother
    · exact hrest.reachedBy hreached
    · exact hothers other hother

/-- Every node that is not pending is closed. -/
def Settled (analysis : Analysis ι F) (holds : F → σ → Prop) (progress : Progress ι F) : Prop :=
  ∀ node ∉ progress.work, ClosedAt analysis holds progress.facts node

omit [DecidableEq ι] in
lemma ClosedAt.grown {progress next : Progress ι F} (hgrown : Grown holds progress next)
    {node : ι} (hnode : node ∉ next.work) (h : ClosedAt analysis holds progress.facts node) :
    ClosedAt analysis holds next.facts node := by
  intro fact hfact target htarget
  have hsame : next.facts node = progress.facts node := by
    by_contra hne
    exact hnode (hgrown.changed node hne)
  exact hgrown.reachedBy (h fact (hsame ▸ hfact) target htarget)

lemma settled_visit (hjoin : LawfulJoin holds analysis) {node : ι} {facts : ι → Option F}
    {work : List ι} (h : Settled analysis holds ⟨facts, node :: work⟩) :
    Settled analysis holds (visit analysis node ⟨facts, work⟩) ∧
      Grown holds ⟨facts, work⟩ (visit analysis node ⟨facts, work⟩) := by
  unfold visit
  split
  next hnone =>
    refine ⟨fun other hother => ?_, Grown.refl⟩
    by_cases heq : other = node
    · intro fact hfact
      rw [heq] at hfact
      dsimp only at hnone hfact
      rw [hnone] at hfact
      cases hfact
    · exact h other fun hmem => (List.mem_cons.mp hmem).elim heq hother
  next fact hfact =>
    obtain ⟨hgrown, hreached⟩ := foldl_propagate_spec hjoin (analysis.transfer node fact)
      (analysis.targets node) ⟨facts, work⟩
    refine ⟨fun other hother => ?_, hgrown⟩
    by_cases heq : other = node
    · -- The fact of the node itself is the one it was visited with.
      intro current hcurrent target htarget
      subst heq
      have hsame := not_not.mp fun hne => hother (hgrown.changed other hne)
      rw [hsame, hfact] at hcurrent
      cases hcurrent
      exact hreached target htarget
    · refine (h other fun hmem => ?_).grown hgrown hother
      exact (List.mem_cons.mp hmem).elim heq fun hmem => hother (hgrown.pending other hmem)

/-- The result keeps what was reached and is closed everywhere. -/
theorem solve_spec (hjoin : LawfulJoin holds analysis) {fuel : ℕ} {progress : Progress ι F}
    {facts : ι → Option F} (h : solve analysis fuel progress = some facts)
    (hsettled : Settled analysis holds progress) :
    (∀ node fact, progress.facts node = some fact → ReachedBy holds facts fact node) ∧
      ∀ node, ClosedAt analysis holds facts node := by
  induction fuel generalizing progress with
  | zero =>
    obtain ⟨current, work⟩ := progress
    cases work with
    | nil =>
      cases h
      exact ⟨fun _ fact hfact => ⟨fact, hfact, fun _ hs => hs⟩,
        fun node => hsettled node List.not_mem_nil⟩
    | cons node work => cases h
  | succ fuel ih =>
    obtain ⟨current, work⟩ := progress
    cases work with
    | nil =>
      cases h
      exact ⟨fun _ fact hfact => ⟨fact, hfact, fun _ hs => hs⟩,
        fun node => hsettled node List.not_mem_nil⟩
    | cons node work =>
      obtain ⟨hnext, hgrown⟩ := settled_visit hjoin hsettled
      obtain ⟨hreached, hclosed⟩ := ih h hnext
      refine ⟨fun other fact hfact => ?_, hclosed⟩
      obtain ⟨middle, hmiddle, hweaker⟩ := hgrown.facts other fact hfact
      exact (hreached other middle hmiddle).trans hweaker

/-- The facts reached from a node are closed, and the node has been reached with
the fact it started with. -/
theorem solveFrom_spec (hjoin : LawfulJoin holds analysis) {fuel : ℕ} {entry : ι} {fact : F}
    {facts : ι → Option F} (h : solveFrom analysis fuel entry fact = some facts) :
    ReachedBy holds facts fact entry ∧ ∀ node, ClosedAt analysis holds facts node := by
  obtain ⟨hreached, hclosed⟩ := solve_spec hjoin h fun node hnode other hother => by
    have hne : node ≠ entry := fun heq => hnode (heq ▸ List.mem_singleton_self entry)
    have hnone : Function.update (fun _ => none) entry (some fact) node = none :=
      Function.update_of_ne hne _ _
    cases hnone.symm.trans hother
  exact ⟨hreached entry fact (Function.update_self entry (some fact) fun _ => none), hclosed⟩

end Closed

end VitaSX2.Dataflow
