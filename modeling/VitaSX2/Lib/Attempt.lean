/-
Programs that return a value or a failure, and their outcomes.

A program that might not return is a value of `Option`; its outcome is stated as a
condition on the values and one on the failures.
-/
import Mathlib.Data.List.Forall2

namespace VitaSX2.Attempt

variable {ε α β : Type}

/-- The program returns, a value with one property or a failure with another one. -/
def Meets (value : α → Prop) (failure : ε → Prop) (x : ExceptT ε Option α) : Prop :=
  ∃ result, x.run = some result ∧ match result with
    | .ok a => value a
    | .error e => failure e

variable {P : α → Prop} {P' : β → Prop} {Q : ε → Prop} {x : ExceptT ε Option α}

lemma meets_pure {a : α} (h : P a) : Meets P Q (pure a : ExceptT ε Option α) := ⟨.ok a, rfl, h⟩

lemma meets_throw {e : ε} (h : Q e) : Meets P Q (throw e : ExceptT ε Option α) := ⟨.error e, rfl, h⟩

lemma meets_mk {result : Except ε α} (h : match result with
    | .ok a => P a
    | .error e => Q e) : Meets P Q (ExceptT.mk (some result)) := ⟨result, rfl, h⟩

lemma Meets.bind {f : α → ExceptT ε Option β} (h : Meets P Q x) (hf : ∀ a, P a → Meets P' Q (f a)) :
    Meets P' Q (x >>= f) := by
  obtain ⟨result, hrun, hresult⟩ := h
  cases result with
  | error e =>
    refine ⟨.error e, ?_, hresult⟩
    rw [ExceptT.run_bind, hrun]
    rfl
  | ok a =>
    obtain ⟨result, hrun', hresult'⟩ := hf a hresult
    refine ⟨result, ?_, hresult'⟩
    rw [ExceptT.run_bind, hrun]
    exact hrun'

/-- What has returned a value, step by step. -/
lemma exists_of_bind_eq {f : α → ExceptT ε Option β} {b : β}
    (h : (x >>= f).run = some (.ok b)) : ∃ a, x.run = some (.ok a) ∧ (f a).run = some (.ok b) := by
  rw [ExceptT.run_bind] at h
  obtain ⟨result, hrun, h⟩ := Option.bind_eq_some_iff.mp h
  cases result with
  | error e => cases h
  | ok a => exact ⟨a, hrun, h⟩

/-- The same for a program that always returns. -/
lemma exists_of_bind_ok {y : Except ε α} {f : α → Except ε β} {b : β} (h : y >>= f = .ok b) :
    ∃ a, y = .ok a ∧ f a = .ok b := by
  cases y with
  | error e => cases h
  | ok a => exact ⟨a, rfl, h⟩

lemma Meets.mono {P₁ : α → Prop} (h : Meets P Q x) (himp : ∀ a, P a → P₁ a) : Meets P₁ Q x := by
  obtain ⟨result, hrun, hresult⟩ := h
  refine ⟨result, hrun, ?_⟩
  cases result with
  | error e => exact hresult
  | ok a => exact himp a hresult

/-- One value for every member of a list. -/
lemma meets_mapM {f : β → ExceptT ε Option α} {R : β → α → Prop} {l : List β}
    (h : ∀ b ∈ l, Meets (R b) Q (f b)) : Meets (List.Forall₂ R l) Q (l.mapM f) := by
  induction l with
  | nil => exact meets_pure .nil
  | cons b l ih =>
    obtain ⟨hb, hl⟩ := List.forall_mem_cons.mp h
    rw [List.mapM_cons]
    exact hb.bind fun a ha => (ih hl).bind fun as has => meets_pure (.cons ha has)

end VitaSX2.Attempt
