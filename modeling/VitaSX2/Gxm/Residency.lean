/-
The residency planner of the render store (`VitaGxmRenderStore.cpp`).

A pair of a color and a depth target lives in one rectangle of both planes.  A
target may have copies in many pairs and one in the backing; the copies that are
current are those whose version is the version of the target.

The tables hold their live entries in order: none is given up before `Reset`.
-/
import Mathlib.Algebra.Group.Nat.Defs
import Mathlib.Algebra.GroupWithZero.Nat
import VitaSX2.Gxm.Allocator

namespace VitaSX2.RenderStore

/-- `RenderStoreTargetKey`. -/
structure TargetKey where
  baseBlock : ℕ
  bufferWidth : ℕ
  psm : ℕ
  width : ℕ
  height : ℕ
  scaleBits : ℕ
  depth : Bool
deriving DecidableEq

def TargetKey.plane (key : TargetKey) : Plane := if key.depth then .depth else .color

def maximumTargets : ℕ := 128
def maximumResidencies : ℕ := 128

structure PairKey where
  color : Option TargetKey
  depth : Option TargetKey
deriving DecidableEq

def PairKey.target (key : PairKey) : Plane → Option TargetKey
  | .color => key.color
  | .depth => key.depth

structure TargetState where
  key : TargetKey
  version : BitVec 64 := 1
  backingVersion : BitVec 64 := 1
  latestResidency : Option ℕ := none

structure Residency where
  key : PairKey
  colorRegion : Region
  depthRegion : Region
  colorVersion : BitVec 64 := 0
  depthVersion : BitVec 64 := 0

namespace Residency

def version (r : Residency) : Plane → BitVec 64
  | .color => r.colorVersion
  | .depth => r.depthVersion

def region (r : Residency) : Plane → Region
  | .color => r.colorRegion
  | .depth => r.depthRegion

def setVersion (r : Residency) (version : BitVec 64) : Plane → Residency
  | .color => { r with colorVersion := version }
  | .depth => { r with depthVersion := version }

@[simp] lemma version_setVersion_self (r : Residency) (v : BitVec 64) (plane : Plane) :
    (r.setVersion v plane).version plane = v := by cases plane <;> rfl

lemma version_setVersion_of_ne (r : Residency) (v : BitVec 64) {plane plane' : Plane}
    (h : plane' ≠ plane) : (r.setVersion v plane).version plane' = r.version plane' := by
  cases plane <;> cases plane' <;> first | rfl | exact absurd rfl h

@[simp] lemma key_setVersion (r : Residency) (v : BitVec 64) (plane : Plane) :
    (r.setVersion v plane).key = r.key := by cases plane <;> rfl

@[simp] lemma region_setVersion (r : Residency) (v : BitVec 64) (plane plane' : Plane) :
    (r.setVersion v plane).region plane' = r.region plane' := by
  cases plane <;> cases plane' <;> rfl

end Residency

structure Acquisition where
  residency : ℕ
  region : Region
  loadColor : Bool
  loadDepth : Bool
  newResidency : Bool

structure Planner where
  allocator : Allocator
  targets : List TargetState
  residencies : List Residency

/-- The version after a write; zero is left out. -/
def nextVersion (version : BitVec 64) : BitVec 64 :=
  if version + 1 = 0 then version + 1 + 1 else version + 1

/-- The regions of a new pair: both planes at one place, or nothing. -/
def Allocator.allocatePair (a : Allocator) (key : PairKey) (width height : ℕ) :
    Allocator × Option (Region × Region) :=
  match if key.color.isSome then a.allocate .color width height none else some (a, {}) with
  | none => (a, none)
  | some (a₁, color) =>
    let preferred := if key.color.isSome then some color else none
    match if key.depth.isSome then a₁.allocate .depth width height preferred else some (a₁, {}) with
    | none => (if key.color.isSome then a₁.release .color color else a₁, none)
    | some (a₂, depth) =>
      if key.color.isSome ∧ key.depth.isSome ∧
          (color.x ≠ depth.x ∨ color.y ≠ depth.y ∨ color.width ≠ depth.width ∨
            color.height ≠ depth.height) then
        ((a₂.release .color color).release .depth depth, none)
      else (a₂, some (color, depth))

namespace Planner

def findTarget (p : Planner) (key : TargetKey) : Option TargetState :=
  p.targets.find? fun target => target.key = key

/-- A change of the target with this key. -/
def updateTarget (p : Planner) (key : TargetKey) (f : TargetState → TargetState) : Planner :=
  { p with targets := p.targets.map fun target => if target.key = key then f target else target }

def findOrCreateTarget (p : Planner) (key : TargetKey) : Planner × Option TargetState :=
  match p.findTarget key with
  | some target => (p, some target)
  | none =>
    if p.targets.length < maximumTargets then
      ({ p with targets := p.targets ++ [{ key }] }, some { key })
    else (p, none)

/-- The target of one plane of a pair, if the pair has one. -/
def resolve (p : Planner) : Option TargetKey → Planner × Option TargetState
  | none => (p, none)
  | some key => p.findOrCreateTarget key

/-- What `Acquire` reports of a residency. -/
def acquisition (index : ℕ) (r : Residency) (color depth : Option TargetState) (new : Bool) :
    Acquisition where
  residency := index
  region := if color.isSome then r.colorRegion else r.depthRegion
  loadColor := color.any fun target => r.colorVersion ≠ target.version
  loadDepth := depth.any fun target => r.depthVersion ≠ target.version
  newResidency := new

def acquire (p : Planner) (key : PairKey) (width height : ℕ) : Planner × Option Acquisition :=
  if (key.color = none ∧ key.depth = none) ∨ width = 0 ∨ height = 0 then (p, none)
  else if key.color.any (·.depth) || key.depth.any (!·.depth) then (p, none)
  else
    let (p₁, color) := p.resolve key.color
    let (p₂, depth) := p₁.resolve key.depth
    if (key.color.isSome && color.isNone) || (key.depth.isSome && depth.isNone) then (p₂, none)
    else
      match p₂.residencies.findIdx? fun r => r.key = key with
      | some index =>
        (p₂, p₂.residencies[index]?.map fun r => acquisition index r color depth false)
      | none =>
        if maximumResidencies ≤ p₂.residencies.length then (p₂, none)
        else
          match p₂.allocator.allocatePair key width height with
          | (allocator, none) => ({ p₂ with allocator }, none)
          | (allocator, some (colorRegion, depthRegion)) =>
            let r : Residency := { key, colorRegion, depthRegion }
            ({ p₂ with allocator, residencies := p₂.residencies ++ [r] },
              some (acquisition p₂.residencies.length r color depth true))

/-- The residency and the target of one of its planes. -/
def residencyTarget (p : Planner) (index : ℕ) (plane : Plane) : Option (Residency × TargetState) :=
  p.residencies[index]?.bind fun r =>
    ((r.key.target plane).bind p.findTarget).map fun target => (r, target)

def markLoaded (p : Planner) (index : ℕ) (plane : Plane) : Planner × Bool :=
  match p.residencyTarget index plane with
  | none => (p, false)
  | some (r, target) =>
    ({ p with residencies := p.residencies.set index (r.setVersion target.version plane) }, true)

def markWritten (p : Planner) (index : ℕ) (plane : Plane) : Planner × Bool :=
  match p.residencyTarget index plane with
  | none => (p, false)
  | some (r, target) =>
    let version := nextVersion target.version
    let written := p.updateTarget target.key fun target =>
      { target with version, latestResidency := some index }
    ({ written with residencies := p.residencies.set index (r.setVersion version plane) }, true)

def markBackingCurrent (p : Planner) (key : TargetKey) : Planner × Bool :=
  match p.findTarget key with
  | none => (p, false)
  | some _ =>
    (p.updateTarget key fun target => { target with backingVersion := target.version }, true)

def markBackingWritten (p : Planner) (key : TargetKey) : Planner × Bool :=
  match p.findOrCreateTarget key with
  | (p, none) => (p, false)
  | (p, some target) =>
    let version := nextVersion target.version
    (p.updateTarget key fun target =>
      { target with version, backingVersion := version, latestResidency := none }, true)

def backingNeedsStore (p : Planner) (key : TargetKey) : Bool :=
  (p.findTarget key).any fun target => target.backingVersion ≠ target.version

def latestResidency (p : Planner) (key : TargetKey) : Option ℕ :=
  (p.findTarget key).bind (·.latestResidency)

/-- After `RenderStoreResidencyPlanner::Reset`. -/
def fresh : Planner where
  allocator := Allocator.fresh
  targets := []
  residencies := []

/-! ### Lookups -/

variable {p : Planner} {key key' : TargetKey}

lemma key_of_findTarget {target : TargetState} (h : p.findTarget key = some target) :
    target.key = key := by
  simpa using List.find?_some h

/-- An update keeps the keys, so the same targets are found. -/
lemma findTarget_updateTarget {f : TargetState → TargetState}
    (hf : ∀ target, (f target).key = target.key) :
    (p.updateTarget key f).findTarget key' =
      (p.findTarget key').map fun target => if target.key = key then f target else target := by
  have hsame : ((fun target : TargetState => decide (target.key = key')) ∘
      fun target => if target.key = key then f target else target) =
      fun target => decide (target.key = key') := by
    funext target
    by_cases h : target.key = key <;> simp [h, hf]
  rw [findTarget, updateTarget, List.find?_map, hsame]
  rfl

lemma findTarget_updateTarget_self {f : TargetState → TargetState} {target : TargetState}
    (hf : ∀ target, (f target).key = target.key) (h : p.findTarget key = some target) :
    (p.updateTarget key f).findTarget key = some (f target) := by
  simp [findTarget_updateTarget hf, h, key_of_findTarget h]

lemma findTarget_updateTarget_of_ne {f : TargetState → TargetState}
    (hf : ∀ target, (f target).key = target.key) (hne : key' ≠ key) :
    (p.updateTarget key f).findTarget key' = p.findTarget key' := by
  rw [findTarget_updateTarget hf]
  cases h : p.findTarget key' with
  | none => rfl
  | some target => simp [key_of_findTarget h, hne]

/-- A target is found after it was found or created, and no other one changes. -/
lemma findOrCreateTarget_spec {p' : Planner} {found : Option TargetState}
    (h : p.findOrCreateTarget key = (p', found)) :
    p'.allocator = p.allocator ∧ p'.residencies = p.residencies ∧
      (∀ target, found = some target → p'.findTarget key = some target) ∧
      ∀ key', p'.findTarget key' = p.findTarget key' ∨
        (key' = key ∧ p.findTarget key = none ∧ p'.findTarget key = some { key }) := by
  unfold findOrCreateTarget at h
  split at h
  next target hfound =>
    obtain ⟨rfl, rfl⟩ := Prod.mk.inj h
    exact ⟨rfl, rfl, fun _ heq => heq ▸ hfound, fun _ => Or.inl rfl⟩
  next hnone =>
    split at h
    next =>
      obtain ⟨rfl, rfl⟩ := Prod.mk.inj h
      have hnew : ({ p with targets := p.targets ++ [{ key }] } : Planner).findTarget key =
          some { key } := by
        simp only [findTarget] at hnone
        simp [findTarget, hnone]
      refine ⟨rfl, rfl, fun _ heq => heq ▸ hnew, fun key' => ?_⟩
      by_cases hkey : key' = key
      · exact Or.inr ⟨hkey, hnone, hnew⟩
      · left
        simp [findTarget, Ne.symm hkey]
    next =>
      obtain ⟨rfl, rfl⟩ := Prod.mk.inj h
      exact ⟨rfl, rfl, fun _ heq => (nomatch heq), fun _ => Or.inl rfl⟩

end Planner

end VitaSX2.RenderStore
