/-
The register analysis is sound for the step machine.

A value is known modulo the number of pairs in the micro memory, since that is all
a jump through a register sees of it.  The analysis takes register 0 for zero, and
so do the facts here.
-/
import VitaSX2.Vu1.BlockFacts
import VitaSX2.Vu1.Machine

namespace VitaSX2.Vu1

/-- A register holds one of the values, or anything. -/
def ViValue.Holds (value : ViValue) (x : BitVec 16) : Prop :=
  value.unknown = true ∨ ∃ known ∈ value.values, x.toNat % maxVu1Pairs = known % maxVu1Pairs

/-- A register as the analysis sees it. -/
def ViFile.read (vi : ViFile) (reg : Fin 16) : BitVec 16 := if reg = 0 then 0 else vi reg

/-- Every register holds one of its values. -/
def ViState.Holds (state : ViState) (vi : ViFile) : Prop :=
  ∀ reg, (state reg).Holds (vi.read reg)

lemma holds_known {value : ℕ} {x : BitVec 16} (h : x.toNat % maxVu1Pairs = value % maxVu1Pairs) :
    (ViValue.known value).Holds x :=
  Or.inr ⟨value, List.mem_singleton_self value, h⟩

lemma holds_entryViState (vi : ViFile) : ViState.Holds entryViState vi := by
  intro reg
  by_cases hreg : reg = 0
  · rw [hreg]
    exact holds_known rfl
  · rw [entryViState, Function.update_of_ne hreg]
    exact Or.inl rfl

/-! ### Joins -/

lemma joinViValue_spec (destination source : ViValue) (x : BitVec 16) :
    (destination.Holds x ∨ source.Holds x → (joinViValue destination source).1.Holds x) ∧
      ((joinViValue destination source).2 = false →
        (joinViValue destination source).1 = destination) := by
  unfold joinViValue
  split
  next hunknown => exact ⟨fun _ => Or.inl hunknown, fun _ => rfl⟩
  next hknown =>
    split
    next => exact ⟨fun _ => Or.inl rfl, fun h => nomatch h⟩
    next hsource =>
      refine ⟨?_, fun hquiet => ?_⟩
      · rintro ((hunknown | ⟨value, hvalue, hx⟩) | (hunknown | ⟨value, hvalue, hx⟩))
        · exact absurd hunknown hknown
        · exact Or.inr ⟨value, mem_foldl_insertKey.mpr (Or.inr hvalue), hx⟩
        · exact absurd hunknown hsource
        · exact Or.inr ⟨value, mem_foldl_insertKey.mpr (Or.inl hvalue), hx⟩
      · have hmem : ∀ value ∈ source.values, value ∈ destination.values := by simpa using hquiet
        dsimp only
        rw [foldl_insertKey_of_mem hmem]

lemma lawfulJoin (blocks : List BasicBlock) :
    Dataflow.LawfulJoin ViState.Holds (viAnalysis blocks) where
  left destination source vi h reg :=
    (joinViValue_spec (destination reg) (source reg) (vi.read reg)).1 (Or.inl (h reg))
  right destination source vi h reg :=
    (joinViValue_spec (destination reg) (source reg) (vi.read reg)).1 (Or.inr (h reg))
  unchanged destination source h := by
    have hquiet := of_decide_eq_false h
    rw [not_exists] at hquiet
    exact funext fun reg =>
      (joinViValue_spec (destination reg) (source reg) 0).2 (Bool.not_eq_true _ ▸ hquiet reg)

/-! ### One pair -/

section Pair

variable {D : Type} {semantics : Semantics D} {upperTable : UpperTable} {micro : Micro}
  {plan : PairPlan} {vu : Vu D}

lemma afterDelay_div (pc : ℕ) : afterDelay pc / pairBytes = (pc + 16) / 8 % maxVu1Pairs := by
  simp only [afterDelay, pairBytes, vu1ProgSize, maxVu1Pairs]
  omega

/-- The link that the machine writes is the one the analysis knows. -/
lemma link_mod (pc : ℕ) :
    (BitVec.ofNat 16 ((pc + 8 + 8) / 8)).toNat % maxVu1Pairs =
      afterDelay pc / pairBytes % maxVu1Pairs := by
  rw [afterDelay_div, BitVec.toNat_ofNat]
  simp only [vu1ProgSize, maxVu1Pairs, pairBytes]
  omega

/-- The state after a pair holds of the registers after the pair.  A link is known
only outside a delay slot, where no branch is under way. -/
lemma holds_applyPairViWrites {state : ViState} {delayed : Bool}
    (hplan : decodePair upperTable micro vu.pc = some plan) (h : ViState.Holds state vu.vi)
    (hbranch : delayed = false → vu.branch = 0) :
    ViState.Holds (applyPairViWrites state ⟨plan, delayed⟩)
      (executePair semantics plan (vu.issue plan)).vi := by
  intro reg
  unfold applyPairViWrites
  dsimp only
  by_cases hreg : reg = 0
  · rw [hreg, Function.update_self]
    exact holds_known rfl
  rw [Function.update_of_ne hreg]
  -- A register that is not written keeps what was known of it.
  have hwritten : (if reg ≠ 0 ∧ (plan.upperWrites ||| plan.lowerWrites).getLsbD reg then
      ({ unknown := true } : ViValue) else state reg).Holds
        ((executePair semantics plan (vu.issue plan)).vi.read reg) := by
    split
    next => exact Or.inl rfl
    next hkept =>
      rw [not_and, Bool.not_eq_true, BitVec.getLsbD_or, Bool.or_eq_false_iff] at hkept
      have hlower := (hkept hreg).2
      have hframe : (executePair semantics plan (vu.issue plan)).vi reg = vu.vi reg :=
        vi_executePair_frame hplan fun hexec => by
          rwa [PairPlan.lowerWrites, if_pos hexec] at hlower
      rw [ViFile.read, if_neg hreg, hframe]
      have hold := h reg
      rwa [ViFile.read, if_neg hreg] at hold
  split
  next hlink =>
    simp only [Bool.and_eq_true, Bool.not_eq_true', Bool.or_eq_true, beq_iff_eq, bne_iff_ne]
      at hlink
    obtain ⟨⟨⟨hdelayed, hexec⟩, hkind⟩, ⟨hnonzero, -⟩, -⟩ := hlink
    by_cases heq : reg = viIt plan.lower
    · have hissue : (vu.issue plan).branch = 0 := hbranch hdelayed
      rw [ViFile.read, if_neg hreg, heq, Function.update_self,
        vi_executePair_link hplan hexec hkind hissue hnonzero]
      refine holds_known ?_
      rw [(analyzePair_spec hplan).1, Vu.pc, Nat.mod_mod]
      exact link_mod _
    · rw [Function.update_of_ne heq]
      exact hwritten
  next => exact hwritten

end Pair

/-! ### The targets of an indirect branch -/

/-- The target that a jump through a register reaches. -/
def jumpTarget (value : BitVec 16) : ℕ := value.toNat * pairBytes % vu1ProgSize

lemma jumpTarget_congr {value : BitVec 16} {known : ℕ}
    (h : value.toNat % maxVu1Pairs = known % maxVu1Pairs) :
    jumpTarget value = known * pairBytes % vu1ProgSize := by
  simp only [jumpTarget, maxVu1Pairs, pairBytes, vu1ProgSize] at h ⊢
  omega

end VitaSX2.Vu1
