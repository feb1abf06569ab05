/-
The dominators that `Build` computes are the dominators of the graph.

The passes start with all blocks.  Every pass leaves the dominators of a block in
its set and lowers the sets towards their equations; when a pass changes nothing,
the equations hold, and what satisfies them dominates.
-/
import Mathlib.Algebra.Order.BigOperators.Group.Finset
import VitaSX2.Lib.Walks
import VitaSX2.Region.Island.Build

namespace VitaSX2.SemanticIsland

open Walks

/-- The graph of the internal edges. -/
def graph (edges : List EdgeRef) : Walks.Graph EdgeRef ℕ := ⟨edges, EdgeRef.source, EdgeRef.target⟩

/-- The edges join few blocks, all of which are reached from the entry. -/
structure Rooted (edges : List EdgeRef) (blockCount entry : ℕ) : Prop where
  small : blockCount < 64
  entry_lt : entry < blockCount
  source_lt : ∀ e ∈ edges, e.source < blockCount
  target_lt : ∀ e ∈ edges, e.target < blockCount
  reached : ∀ b < blockCount, (graph edges).Reaches entry b

/-! ### Sets of blocks -/

variable {edges : List EdgeRef} {blockCount entry : ℕ} {dominators : ℕ → BitVec 64}
  {mask mask' : BitVec 64} {b i : ℕ}

lemma getLsbD_bit (hb : b < 64) : (bit b).getLsbD i = decide (i = b) := by
  rw [bit, BitVec.getLsbD_shiftLeft, BitVec.getLsbD_one]
  by_cases hi : i = b
  · subst hi
    simp [hb]
  · have hone : ¬ (i - b = 0 ∧ ¬ i < b) := by omega
    by_cases hlt : i < b
    · simp [hlt, hi]
    · have hne : i - b ≠ 0 := fun hzero => hone ⟨hzero, hlt⟩
      simp [hi, hne]

lemma getLsbD_or_bit (hb : b < 64) : (mask ||| bit b).getLsbD i ↔ mask.getLsbD i ∨ i = b := by
  rw [BitVec.getLsbD_or, getLsbD_bit hb, Bool.or_eq_true, decide_eq_true_eq]

lemma getLsbD_allBlocks (h : blockCount < 64) :
    (allBlocks blockCount).getLsbD i = decide (i < blockCount) := by
  have hvalue : (allBlocks blockCount).toNat = 2 ^ blockCount - 1 := by
    have hlt : 2 ^ blockCount < 2 ^ 64 := Nat.pow_lt_pow_right (by decide) h
    have hpos : 0 < 2 ^ blockCount := Nat.two_pow_pos _
    rw [allBlocks, BitVec.toNat_sub, BitVec.toNat_shiftLeft, BitVec.toNat_ofNat, Nat.shiftLeft_eq]
    omega
  rw [BitVec.getLsbD, hvalue, Nat.testBit_two_pow_sub_one]

/-- The members of a mask. -/
def members (mask : BitVec 64) : Finset ℕ := (Finset.range 64).filter fun block => mask.getLsbD block

lemma mem_members : i ∈ members mask ↔ mask.getLsbD i := by
  rw [members, Finset.mem_filter, Finset.mem_range]
  exact and_iff_right_of_imp BitVec.lt_of_getLsbD

lemma popcount_eq_card : popcount mask = (members mask).card := by
  rw [popcount, List.countP_eq_length_filter, members, Finset.card, Finset.filter_val,
    Finset.range_val, Multiset.range, Multiset.filter_coe, Multiset.coe_card]
  simp only [Bool.decide_eq_true]

lemma eq_of_members (h : members mask = members mask') : mask = mask' := by
  apply BitVec.eq_of_getLsbD_eq
  intro i _
  rw [Bool.eq_iff_iff, ← mem_members, ← mem_members, h]

/-! ### Equations -/

lemma mem_predecessors {block : ℕ} :
    i ∈ predecessors edges block ↔ ∃ e ∈ edges, e.target = block ∧ e.source = i := by
  simp [predecessors, and_assoc]

lemma getLsbD_foldl_and (l : List ℕ) (start : BitVec 64) :
    (l.foldl (fun incoming predecessor => incoming &&& dominators predecessor) start).getLsbD i ↔
      start.getLsbD i ∧ ∀ p ∈ l, (dominators p).getLsbD i := by
  induction l generalizing start with
  | nil => simp
  | cons p l ih =>
    rw [List.foldl_cons, ih, BitVec.getLsbD_and, Bool.and_eq_true, List.forall_mem_cons, and_assoc]

lemma getLsbD_nextDominators (hsmall : blockCount < 64) {block : ℕ} (hblock : block < blockCount) :
    (nextDominators edges blockCount dominators block).getLsbD i ↔
      i = block ∨ i < blockCount ∧ predecessors edges block ≠ [] ∧
        ∀ p ∈ predecessors edges block, (dominators p).getLsbD i := by
  rw [nextDominators, getLsbD_or_bit (hblock.trans hsmall), or_comm]
  split
  next hnone => simp [hnone]
  next hsome => rw [getLsbD_foldl_and, getLsbD_allBlocks hsmall, decide_eq_true_eq, ne_eq, iff_true_intro hsome,
    true_and]

/-! ### One pass -/

/-- The sets hold the dominators, are sets of blocks, and are not below their
equations. -/
structure Above (edges : List EdgeRef) (blockCount entry : ℕ) (dominators : ℕ → BitVec 64) :
    Prop where
  entry_eq : dominators entry = bit entry
  lt : ∀ b < blockCount, ∀ i, (dominators b).getLsbD i → i < blockCount
  next_le : ∀ b < blockCount, b ≠ entry → ∀ i,
    (nextDominators edges blockCount dominators b).getLsbD i → (dominators b).getLsbD i
  holds : ∀ b < blockCount, ∀ i < blockCount, (graph edges).Dominates entry i b →
    (dominators b).getLsbD i

/-- The number of members of all sets. -/
def totalMembers (blockCount : ℕ) (dominators : ℕ → BitVec 64) : ℕ :=
  ∑ b ∈ Finset.range blockCount, (members (dominators b)).card

/-- A block other than the entry has a predecessor, and is dominated by what
dominates all of them. -/
lemma Rooted.predecessors_ne (h : Rooted edges blockCount entry) (hb : b < blockCount)
    (hne : b ≠ entry) : predecessors edges b ≠ [] := by
  obtain ⟨walk, hwalk⟩ := h.reached b hb
  rcases List.eq_nil_or_concat walk with rfl | ⟨rest, e, rfl⟩
  · exact absurd (show entry = b from hwalk).symm hne
  · rw [List.concat_eq_append] at hwalk
    obtain ⟨-, he, htarget⟩ := Walks.Graph.isWalk_concat.mp hwalk
    exact List.ne_nil_of_mem (mem_predecessors.mpr ⟨e, he, htarget, rfl⟩)

/-- One block is set to its equation. -/
lemma Above.update (h : Above edges blockCount entry dominators)
    (hroot : Rooted edges blockCount entry) (hb : b < blockCount) (hne : b ≠ entry) :
    Above edges blockCount entry
      (Function.update dominators b (nextDominators edges blockCount dominators b)) := by
  have hle : ∀ c < blockCount, ∀ i,
      (Function.update dominators b (nextDominators edges blockCount dominators b) c).getLsbD i →
        (dominators c).getLsbD i := by
    intro c hc i hi
    by_cases hcb : c = b
    · subst hcb
      rw [Function.update_self] at hi
      exact h.next_le c hc hne i hi
    · rwa [Function.update_of_ne hcb] at hi
  refine ⟨?_, fun c hc i hi => h.lt c hc i (hle c hc i hi), fun c hc hce i hi => ?_,
    fun c hc i hi hdom => ?_⟩
  · rw [Function.update_of_ne hne.symm, h.entry_eq]
  · -- The equations are monotone, so lowering a set lowers them.
    have hnext : (nextDominators edges blockCount dominators c).getLsbD i := by
      rw [getLsbD_nextDominators hroot.small hc] at hi ⊢
      refine hi.imp_right fun hi => ⟨hi.1, hi.2.1, fun p hp => ?_⟩
      obtain ⟨e, he, -, rfl⟩ := mem_predecessors.mp hp
      exact hle _ (hroot.source_lt e he) i (hi.2.2 _ hp)
    by_cases hcb : c = b
    · subst hcb
      rwa [Function.update_self]
    · rw [Function.update_of_ne hcb]
      exact h.next_le c hc hce i hnext
  · by_cases hcb : c = b
    · subst hcb
      rw [Function.update_self, getLsbD_nextDominators hroot.small hc]
      by_cases hic : i = c
      · exact Or.inl hic
      refine Or.inr ⟨hi, hroot.predecessors_ne hc hne, fun p hp => ?_⟩
      obtain ⟨e, he, rfl, rfl⟩ := mem_predecessors.mp hp
      exact h.holds _ (hroot.source_lt e he) i hi ((hdom.of_edge he).resolve_left hic)
    · rw [Function.update_of_ne hcb]
      exact h.holds c hc i hi hdom

lemma Above.totalMembers_lt (h : Above edges blockCount entry dominators) (hb : b < blockCount)
    (hne : b ≠ entry) (hchange : nextDominators edges blockCount dominators b ≠ dominators b) :
    totalMembers blockCount
        (Function.update dominators b (nextDominators edges blockCount dominators b)) <
      totalMembers blockCount dominators := by
  have hsub : members (nextDominators edges blockCount dominators b) ⊂ members (dominators b) := by
    refine Finset.ssubset_iff_subset_ne.mpr ⟨fun i hi => ?_, fun heq => hchange (eq_of_members heq)⟩
    exact mem_members.mpr (h.next_le b hb hne i (mem_members.mp hi))
  refine Finset.sum_lt_sum (fun c _ => ?_) ⟨b, Finset.mem_range.mpr hb, ?_⟩
  · by_cases hcb : c = b
    · subst hcb
      rw [Function.update_self]
      exact Finset.card_le_card hsub.subset
    · rw [Function.update_of_ne hcb]
  · rw [Function.update_self]
    exact Finset.card_lt_card hsub

lemma Above.step (hroot : Rooted edges blockCount entry) {state : (ℕ → BitVec 64) × Bool}
    (h : Above edges blockCount entry state.1) (hb : b < blockCount) :
    Settle.Advance (Above edges blockCount entry) (totalMembers blockCount) state
      (dominatorStep edges blockCount entry state b) := by
  unfold dominatorStep
  split
  · exact .refl h
  next hne =>
    dsimp only
    split
    next hchange => exact .change (h.update hroot hb hne) (h.totalMembers_lt hb hne hchange)
    · exact .refl h

lemma Above.pass (hroot : Rooted edges blockCount entry)
    (h : Above edges blockCount entry dominators) :
    Settle.Advance (Above edges blockCount entry) (totalMembers blockCount) (dominators, false)
      (dominatorPass edges blockCount entry dominators) :=
  Settle.Advance.foldl _ _ (fun _ hstate _ hb => hstate.step hroot (List.mem_range.mp hb)) h

/-! ### The start and the end -/

lemma above_start (hroot : Rooted edges blockCount entry) :
    Above edges blockCount entry
      (Function.update (fun _ => allBlocks blockCount) entry (bit entry)) := by
  have hall : ∀ b i, i < blockCount → b ≠ entry →
      (Function.update (fun _ => allBlocks blockCount) entry (bit entry) b).getLsbD i := by
    intro b i hi hne
    rw [Function.update_of_ne hne, getLsbD_allBlocks hroot.small, decide_eq_true hi]
  refine ⟨Function.update_self .., fun b hb i hi => ?_, fun b hb hne i hi => ?_,
    fun b hb i hi hdom => ?_⟩
  · by_cases hbe : b = entry
    · rw [hbe, Function.update_self, getLsbD_bit (hroot.entry_lt.trans hroot.small),
        decide_eq_true_eq] at hi
      exact hi ▸ hroot.entry_lt
    · rw [Function.update_of_ne hbe, getLsbD_allBlocks hroot.small, decide_eq_true_eq] at hi
      exact hi
  · refine hall b i ?_ hne
    rcases (getLsbD_nextDominators hroot.small hb).mp hi with rfl | hi
    · exact hb
    · exact hi.1
  · by_cases hbe : b = entry
    · subst hbe
      rw [Function.update_self, getLsbD_bit (hb.trans hroot.small), decide_eq_true_eq]
      exact Walks.Graph.eq_of_dominates_entry hdom
    · exact hall b i hi hbe

lemma totalMembers_le : totalMembers blockCount dominators ≤ blockCount * 64 := by
  have hsum : totalMembers blockCount dominators ≤ ∑ _b ∈ Finset.range blockCount, 64 := by
    refine Finset.sum_le_sum fun b _ => ?_
    exact (Finset.card_filter_le _ _).trans (Finset.card_range 64).le
  simpa using hsum

/-- A pass that changes nothing has found the dominators. -/
lemma Above.exact (hroot : Rooted edges blockCount entry)
    (h : Above edges blockCount entry dominators)
    (hquiet : ∀ b < blockCount, b ≠ entry → nextDominators edges blockCount dominators b = dominators b)
    {a : ℕ} (ha : a < blockCount) (hb : b < blockCount) :
    (dominators b).getLsbD a ↔ (graph edges).Dominates entry a b := by
  refine ⟨fun hbit => ?_, h.holds b hb a ha⟩
  refine Walks.Graph.dominates_of_table (fun b a => (dominators b).getLsbD a) (fun a hentry => ?_)
    (fun e he hne a hbit => ?_) hbit
  · rw [h.entry_eq, getLsbD_bit (hroot.entry_lt.trans hroot.small), decide_eq_true_eq] at hentry
    exact hentry
  · have htarget : e.target < blockCount := hroot.target_lt e he
    have hnext : (nextDominators edges blockCount dominators e.target).getLsbD a := by
      rw [hquiet _ htarget hne]
      exact hbit
    refine ((getLsbD_nextDominators hroot.small htarget).mp hnext).imp_right fun hall => ?_
    exact hall.2.2 _ (mem_predecessors.mpr ⟨e, he, rfl, rfl⟩)

/-- The passes settle, and what they have found are the dominators. -/
theorem exists_computeDominators (hroot : Rooted edges blockCount entry) :
    ∃ dominators, computeDominators edges blockCount entry = some dominators ∧
      ∀ a < blockCount, ∀ b < blockCount,
        (dominators b).getLsbD a ↔ (graph edges).Dominates entry a b := by
  have hpass : ∀ d, Above edges blockCount entry d →
      Settle.Advance (Above edges blockCount entry) (totalMembers blockCount) (d, false)
        (dominatorPass edges blockCount entry d) := fun d hd => hd.pass hroot
  obtain ⟨dominators, hsettle⟩ := Settle.exists_settle hpass (above_start hroot)
    (Nat.lt_succ_of_le totalMembers_le)
  obtain ⟨before, hbefore, hlast⟩ := Settle.exists_quiet_pass hpass (above_start hroot) hsettle
  have hstay : ∀ (d : ℕ → BitVec 64) b, (dominatorStep edges blockCount entry (d, true) b).2 = true := by
    intro d b
    unfold dominatorStep
    dsimp only
    split
    · rfl
    · split <;> rfl
  have hraise : ∀ (d : ℕ → BitVec 64) b,
      dominatorStep edges blockCount entry (d, false) b = (d, false) ∨
        (dominatorStep edges blockCount entry (d, false) b).2 = true := by
    intro d b
    unfold dominatorStep
    dsimp only
    split
    · exact Or.inl rfl
    · split
      · exact Or.inr rfl
      · exact Or.inl rfl
  obtain ⟨rfl, hquiet⟩ := Settle.foldl_quiet hstay hraise hlast
  refine ⟨dominators, hsettle, fun a ha b hb => hbefore.exact hroot (fun b hb hne => ?_) ha hb⟩
  have hstep := hquiet b (List.mem_range.mpr hb)
  rw [dominatorStep, if_neg hne] at hstep
  dsimp only at hstep
  split at hstep
  next => cases congrArg Prod.snd hstep
  next heq => exact not_not.mp heq

end VitaSX2.SemanticIsland
