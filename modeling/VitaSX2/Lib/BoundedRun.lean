/-
Runs that are cut after a number of steps.

A step either asks to go on or reports a result.  `run step n` makes at most `n`
steps and stops at the first result; cutting a run in two changes nothing, which
is what makes a resumable interpreter out of a one-shot one.
-/
import Mathlib.Data.Nat.Basic

namespace VitaSX2.BoundedRun

variable {σ ρ : Type*} (step : σ → σ × Option ρ)

/-- At most the given number of steps: the last state, the number of steps that
asked to go on, and the result, if one was reported. -/
def run : ℕ → σ → σ × ℕ × Option ρ
  | 0, s => (s, 0, none)
  | n + 1, s =>
    match step s with
    | (s', some r) => (s', 0, some r)
    | (s', none) =>
      match run n s' with
      | (t, k, r) => (t, k + 1, r)

variable {step}

lemma run_succ (n : ℕ) (s : σ) :
    run step (n + 1) s =
      match step s with
      | (s', some r) => (s', 0, some r)
      | (s', none) =>
        match run step n s' with
        | (t, k, r) => (t, k + 1, r) := rfl

/-- A run without a result made all its steps. -/
lemma steps_of_run_none : ∀ {n : ℕ} {s t : σ} {k : ℕ}, run step n s = (t, k, none) → k = n := by
  intro n
  induction n with
  | zero => intro s t k h; simp only [run, Prod.mk.injEq] at h; exact h.2.1.symm
  | succ n ih =>
    intro s t k h
    rw [run_succ] at h
    rcases hs : step s with ⟨s', _ | r⟩
    · rcases hr : run step n s' with ⟨t', k', r'⟩
      simp only [hs, hr, Prod.mk.injEq] at h
      obtain ⟨-, rfl, rfl⟩ := h
      rw [ih hr]
    · simp [hs] at h

/-- A run with a result makes fewer steps than it may. -/
lemma steps_of_run_some :
    ∀ {n : ℕ} {s t : σ} {k : ℕ} {r : ρ}, run step n s = (t, k, some r) → k < n := by
  intro n
  induction n with
  | zero => intro s t k r h; simp [run] at h
  | succ n ih =>
    intro s t k r h
    rw [run_succ] at h
    rcases hs : step s with ⟨s', _ | r'⟩
    · rcases hr : run step n s' with ⟨t', k', r'⟩
      simp only [hs, hr, Prod.mk.injEq] at h
      obtain ⟨-, rfl, rfl⟩ := h
      have := ih hr
      omega
    · simp only [hs, Prod.mk.injEq] at h
      omega

/-- A result that is reached early is reached under every larger bound. -/
lemma run_add_of_some {m : ℕ} : ∀ {s t : σ} {k : ℕ} {r : ρ} (n : ℕ),
    run step m s = (t, k, some r) → run step (m + n) s = (t, k, some r) := by
  induction m with
  | zero => intro s t k r n h; simp [run] at h
  | succ m ih =>
    intro s t k r n h
    rw [run_succ] at h
    rw [Nat.add_right_comm, run_succ]
    rcases hs : step s with ⟨s', _ | r'⟩
    · rcases hr : run step m s' with ⟨t', k', r'⟩
      simp only [hs, hr, Prod.mk.injEq] at h
      obtain ⟨rfl, rfl, rfl⟩ := h
      simp only [ih n hr]
    · simpa only [hs] using h

/-- A run goes on where a first part of it stopped. -/
lemma run_add_of_none {m : ℕ} : ∀ {s t : σ} {k : ℕ} (n : ℕ), run step m s = (t, k, none) →
    run step (m + n) s =
      ((run step n t).1, m + (run step n t).2.1, (run step n t).2.2) := by
  induction m with
  | zero =>
    intro s t k n h
    simp only [run, Prod.mk.injEq] at h
    obtain ⟨rfl, -, -⟩ := h
    simp
  | succ m ih =>
    intro s t k n h
    rw [run_succ] at h
    rw [Nat.add_right_comm, run_succ]
    rcases hs : step s with ⟨s', _ | r'⟩
    · rcases hr : run step m s' with ⟨t', k', r'⟩
      simp only [hs, hr, Prod.mk.injEq] at h
      obtain ⟨rfl, -, rfl⟩ := h
      simp only [ih n hr, Nat.add_right_comm]
    · simp [hs] at h

end VitaSX2.BoundedRun
