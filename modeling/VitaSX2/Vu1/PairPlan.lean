/-
One pair of the micro memory of VU1: its two words and the `PairPlan` that the
analysis and the step machine both read.

The table of the upper instructions is a parameter: an upper instruction writes
no integer register, and only its vector and flag destinations are read here.
-/
import VitaSX2.Vu1.LowerKind

namespace VitaSX2.Vu1

/-- `VU1_PROGSIZE`. -/
def vu1ProgSize : ℕ := 16384

/-- `PairBytes`. -/
def pairBytes : ℕ := 8

/-- `MaxVu1Pairs`. -/
def maxVu1Pairs : ℕ := vu1ProgSize / pairBytes

/-- A 16 KiB micro image. -/
abbrev Micro := Fin 16384 → BitVec 8

/-- `ReadWord`: a little-endian word. -/
def readWord (micro : Micro) (address : ℕ) : BitVec 32 :=
  micro (Fin.ofNat 16384 (address + 3)) ++ micro (Fin.ofNat 16384 (address + 2)) ++
    micro (Fin.ofNat 16384 (address + 1)) ++ micro (Fin.ofNat 16384 address)

/-- `GpuPairPlan`. -/
structure PairPlan where
  pc : ℕ
  upper : BitVec 32
  lower : BitVec 32
  upperViWrite : BitVec 32 := 0
  lowerViWrite : BitVec 32 := 0
  lowerKind : LowerKind := .none
  execUpper : Bool := false
  execLower : Bool := false
  immediateLower : Bool := false
  ebit : Bool
  dflag : Bool
  tflag : Bool
  lowerDiscardedByUpper : Bool := false
deriving DecidableEq, Repr

/-- The write masks of the upper instructions, or nothing for a word that the
interpreter has to own (`VuMicroAnalyzeUpperNoLowerCached`). -/
abbrev UpperTable := BitVec 32 → Option VuRegsNum

/-- `IsUpperNop`. -/
def isUpperNop (upper : BitVec 32) : Bool := upper &&& 0x07ffffff#32 == 0x000002ff#32

/-- `IsLowerNop`. -/
def isLowerNop (lower : BitVec 32) : Bool := lower == 0x8000033c#32

/-- The rule that discards a lower instruction whose destination the upper one
writes in the same cycle. -/
def discardLower (uregs lregs : VuRegsNum) : Bool :=
  (uregs.vfWrite != 0 && lregs.vfWrite == uregs.vfWrite) ||
    (uregs.viWrite.getLsbD regClipFlag && lregs.viWrite.getLsbD regClipFlag)

/-- `AnalyzePairForConfiguration` and `ExportGpuPairPlan`. -/
def analyzePair (upperTable : UpperTable) (pc : ℕ) (upper lower : BitVec 32) : Option PairPlan :=
  let plan : PairPlan :=
    { pc, upper, lower
      ebit := upper.getLsbD 30
      dflag := upper.getLsbD 28
      tflag := upper.getLsbD 27 }
  if !upper.getLsbD 31 && isUpperNop upper then
    if isLowerNop lower then some plan
    else
      (analyzeLowerNoUpper lower (decodeLower lower)).map fun lregs =>
        { plan with
          lowerKind := decodeLower lower
          lowerViWrite := lregs.viWrite
          execLower := true }
  else
    (upperTable upper).bind fun uregs =>
      let plan := { plan with execUpper := true, upperViWrite := uregs.viWrite }
      if upper.getLsbD 31 then some { plan with immediateLower := true }
      else if isLowerNop lower then some plan
      else
        (analyzeLowerNoUpper lower (decodeLower lower)).map fun lregs =>
          { plan with
            lowerKind := decodeLower lower
            lowerViWrite := lregs.viWrite
            execLower := !discardLower uregs lregs
            lowerDiscardedByUpper := discardLower uregs lregs }

/-- The plan of the pair at an address: `DecodePair`, and one entry of
`EncodeUniversalMicroProgram`. -/
def decodePair (upperTable : UpperTable) (micro : Micro) (pc : ℕ) : Option PairPlan :=
  analyzePair upperTable (pc % vu1ProgSize) (readWord micro (pc % vu1ProgSize + 4))
    (readWord micro (pc % vu1ProgSize))

/-- The lower instruction of a pair that takes a branch of some kind. -/
def PairPlan.branches (plan : PairPlan) : Bool := plan.execLower && isBranch plan.lowerKind

variable {upperTable : UpperTable} {pc : ℕ} {upper lower : BitVec 32} {plan : PairPlan}

/-- What the analysis of a pair fixes: where the pair is, and the registers of a
lower instruction that is executed. -/
lemma analyzePair_spec (h : analyzePair upperTable pc upper lower = some plan) :
    plan.pc = pc ∧
      (plan.execLower = true → plan.immediateLower = false ∧ plan.lowerDiscardedByUpper = false ∧
        ∃ lregs, analyzeLowerNoUpper plan.lower plan.lowerKind = some lregs ∧
          plan.lowerViWrite = lregs.viWrite) ∧
      (plan.execLower = false → plan.execUpper = true → plan.immediateLower = false →
        plan.lowerDiscardedByUpper = false → plan.lowerKind = .none) := by
  unfold analyzePair at h
  dsimp only at h
  split at h
  · split at h
    · cases h
      exact ⟨rfl, fun hlower => (nomatch hlower), fun _ _ _ _ => rfl⟩
    · obtain ⟨lregs, hlregs, rfl⟩ := Option.map_eq_some_iff.mp h
      exact ⟨rfl, fun _ => ⟨rfl, rfl, lregs, hlregs, rfl⟩, fun hlower => (nomatch hlower)⟩
  · obtain ⟨uregs, -, h⟩ := Option.bind_eq_some_iff.mp h
    split at h
    · cases h
      exact ⟨rfl, fun hlower => (nomatch hlower), fun _ _ himmediate => nomatch himmediate⟩
    · split at h
      · cases h
        exact ⟨rfl, fun hlower => (nomatch hlower), fun _ _ _ _ => rfl⟩
      · obtain ⟨lregs, hlregs, rfl⟩ := Option.map_eq_some_iff.mp h
        refine ⟨rfl, fun hlower => ⟨rfl, by simpa using hlower, lregs, hlregs, rfl⟩, ?_⟩
        intro hlower _ _ hkept
        dsimp only at hlower hkept
        rw [hkept] at hlower
        cases hlower

lemma decodePair_mod (micro : Micro) (pc : ℕ) :
    decodePair upperTable micro (pc % vu1ProgSize) = decodePair upperTable micro pc := by
  rw [decodePair, decodePair, Nat.mod_mod]

end VitaSX2.Vu1
