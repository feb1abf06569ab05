/-
How the blocks of an analysis lie in the micro memory.

The pairs of a block follow each other, and only the first one that is not in a
delay slot is a leader.  Two blocks therefore share no pair, unless one of them
starts in the delay slot of the other.
-/
import VitaSX2.Vu1.BlockFacts
import Mathlib.Data.List.Iterate

namespace VitaSX2.Vu1

/-- The address of a pair in the micro memory. -/
def Aligned (pc : ℕ) : Prop := pc < vu1ProgSize ∧ pc % pairBytes = 0

lemma aligned_mod (value : ℕ) : Aligned (value * pairBytes % vu1ProgSize) := by
  simp only [Aligned, pairBytes, vu1ProgSize]
  omega

lemma aligned_nextPc {pc : ℕ} (h : Aligned pc) : Aligned (nextPc pc) := by
  simp only [Aligned, nextPc, pairBytes, vu1ProgSize] at h ⊢
  omega

lemma aligned_branchTarget {pc : ℕ} (h : Aligned pc) (lower : BitVec 32) :
    Aligned (branchTarget pc lower) := by
  simp only [Aligned, branchTarget, pairBytes, vu1ProgSize] at h ⊢
  omega

lemma nextPc_injective {pc pc' : ℕ} (h : Aligned pc) (h' : Aligned pc')
    (heq : nextPc pc = nextPc pc') : pc = pc' := by
  simp only [Aligned, nextPc, pairBytes, vu1ProgSize] at h h' heq
  omega

/-! ### One block -/

/-- The pairs of a block from one pair on: each address is new, only the first one
is a leader, and a delay slot comes last. -/
inductive LaidFrom (leaders : List ℕ) (startPc : ℕ) : List ℕ → ℕ → List ProgramPair → Prop where
  | stop (local' : List ℕ) (pc : ℕ) : LaidFrom leaders startPc local' pc []
  | terminator (local' : List ℕ) (plan delay : PairPlan) :
    plan.pc ∉ local' → (plan.pc = startPc ∨ plan.pc ∉ leaders) → delay.pc = nextPc plan.pc →
    LaidFrom leaders startPc local' plan.pc [⟨plan, false⟩, ⟨delay, true⟩]
  | body (local' : List ℕ) (plan : PairPlan) (rest : List ProgramPair) :
    plan.pc ∉ local' → (plan.pc = startPc ∨ plan.pc ∉ leaders) →
    LaidFrom leaders startPc (plan.pc :: local') (nextPc plan.pc) rest →
    LaidFrom leaders startPc local' plan.pc (⟨plan, false⟩ :: rest)

/-- A target that a scan discovers, and the targets of the known resolutions, are
addresses of pairs. -/
def AlignedResolutions (resolutions : IndirectResolutionMap) : Prop :=
  ∀ pc resolution, resolutions pc = some resolution → ∀ target ∈ resolution.targets, Aligned target

section Scan

variable {upperTable : UpperTable} {micro : Micro} {resolutions : IndirectResolutionMap}
  {leaders localPcs : List ℕ} {startPc pc fuel : ℕ} {pending : PendingBlock}
  {discovered : List ℕ}

lemma planPc_of_decodePair {plan : PairPlan} (hpc : Aligned pc)
    (h : decodePair upperTable micro pc = some plan) : plan.pc = pc := by
  rw [(analyzePair_spec h).1, Nat.mod_eq_of_lt hpc.1]

lemma aligned_discovered (hresolutions : AlignedResolutions resolutions) {plan : PairPlan}
    (hpc : Aligned plan.pc) :
    ∀ target ∈ discoveredTargets (terminatorTargets resolutions plan), Aligned target := by
  intro target htarget
  obtain ⟨⟨kind, pc⟩, hmem, rfl⟩ := List.mem_map.mp htarget
  obtain ⟨hmem, hkind⟩ := List.mem_filter.mp hmem
  simp only [Bool.and_eq_true, bne_iff_ne] at hkind
  unfold terminatorTargets at hmem
  split at hmem
  · cases List.mem_singleton.mp hmem
    exact absurd rfl hkind.1
  split at hmem
  · unfold indirectTargets at hmem
    split at hmem
    next =>
      cases List.mem_singleton.mp hmem
      exact absurd rfl hkind.2
    next resolution hresolution =>
      rcases List.mem_append.mp hmem with hmem | hmem
      · obtain ⟨known, hknown, heq⟩ := List.mem_map.mp hmem
        cases heq
        exact hresolutions _ _ hresolution _ hknown
      · split at hmem
        · cases List.mem_singleton.mp hmem
          exact absurd rfl hkind.2
        · cases hmem
  · rcases List.mem_cons.mp hmem with heq | hmem
    · cases heq
      exact aligned_branchTarget hpc _
    · split at hmem
      · cases List.mem_singleton.mp hmem
        rw [← nextPc_nextPc]
        exact aligned_nextPc (aligned_nextPc hpc)
      · cases hmem

/-- A scan lays out its block and discovers addresses of pairs. -/
lemma laidFrom_of_scanFrom (hresolutions : AlignedResolutions resolutions) (hpc : Aligned pc)
    (h : scanFrom upperTable micro startPc leaders resolutions fuel localPcs pc =
      some (pending, discovered)) :
    LaidFrom leaders startPc localPcs pc pending.block.pairs ∧
      ∀ target ∈ discovered, Aligned target := by
  induction fuel generalizing localPcs pc pending with
  | zero => cases h
  | succ fuel ih =>
    rw [scanFrom] at h
    split at h
    · cases h
      exact ⟨.stop _ _, fun target htarget => by cases htarget⟩
    next hleader =>
      split at h
      · cases h
        refine ⟨.stop _ _, fun target htarget => ?_⟩
        rwa [List.mem_singleton.mp htarget]
      next hfresh =>
        have hfirst : pc = startPc ∨ pc ∉ leaders := by
          rw [not_and_or, Decidable.not_not] at hleader
          exact hleader
        obtain ⟨plan, hplan, h⟩ := Option.bind_eq_some_iff.mp h
        obtain rfl := planPc_of_decodePair hpc hplan
        split at h
        · obtain ⟨delay, hdelay, heq⟩ := Option.map_eq_some_iff.mp h
          cases heq
          exact ⟨.terminator _ _ _ hfresh hfirst (planPc_of_decodePair (aligned_nextPc hpc) hdelay),
            aligned_discovered hresolutions hpc⟩
        · obtain ⟨⟨rest, found⟩, hrest, heq⟩ := Option.map_eq_some_iff.mp h
          cases heq
          obtain ⟨hlaid, hfound⟩ := ih (aligned_nextPc hpc) hrest
          exact ⟨.body _ _ _ hfresh hfirst hlaid, hfound⟩

end Scan

/-! ### The leaders -/

section Leaders

variable {upperTable : UpperTable} {micro : Micro} {resolutions : IndirectResolutionMap}
  {startPc : ℕ}

/-- Leaders are addresses of pairs, each listed once. -/
structure Leaders (leaders : List ℕ) : Prop where
  nodup : leaders.Nodup
  aligned : ∀ leader ∈ leaders, Aligned leader

lemma Leaders.insertKey {leaders : List ℕ} (h : Leaders leaders) {key : ℕ} (hkey : Aligned key) :
    Leaders (insertKey leaders key) := by
  refine ⟨?_, fun leader hleader => ?_⟩
  · unfold Vu1.insertKey
    split
    next => exact h.nodup
    next hfresh =>
      exact ((List.perm_orderedInsert (· ≤ ·) key leaders).nodup_iff).mpr
        (List.nodup_cons.mpr ⟨hfresh, h.nodup⟩)
  · rcases mem_insertKey.mp hleader with rfl | hmem
    · exact hkey
    · exact h.aligned leader hmem

lemma Leaders.foldl_insertKey {leaders keys : List ℕ} (h : Leaders leaders)
    (hkeys : ∀ key ∈ keys, Aligned key) : Leaders (keys.foldl Vu1.insertKey leaders) := by
  induction keys generalizing leaders with
  | nil => exact h
  | cons key keys ih =>
    exact ih (h.insertKey (hkeys key List.mem_cons_self))
      fun other hother => hkeys other (List.mem_cons_of_mem _ hother)

lemma leaders_of_splitPass (hresolutions : AlignedResolutions resolutions) {scanned : List ℕ}
    (hscanned : ∀ leader ∈ scanned, Aligned leader) {state state' : List ℕ × Bool}
    (hstate : Leaders state.1)
    (h : scanned.foldlM (splitLeader upperTable micro resolutions) state = some state') :
    Leaders state'.1 := by
  induction scanned generalizing state with
  | nil =>
    cases h
    exact hstate
  | cons leader scanned ih =>
    rw [List.foldlM_cons] at h
    obtain ⟨next, hnext, hrest⟩ := Option.bind_eq_some_iff.mp h
    obtain ⟨⟨pending, discovered⟩, hscan, rfl⟩ := Option.map_eq_some_iff.mp hnext
    obtain ⟨-, hdiscovered⟩ := laidFrom_of_scanFrom hresolutions
      (hscanned leader List.mem_cons_self) hscan
    exact ih (fun other hother => hscanned other (List.mem_cons_of_mem _ hother))
      (hstate.foldl_insertKey hdiscovered) hrest

lemma leaders_of_splitLeaders (hresolutions : AlignedResolutions resolutions) {passes : ℕ}
    {leaders leaders' : List ℕ} (hleaders : Leaders leaders)
    (h : splitLeaders upperTable micro resolutions passes leaders = some leaders') :
    Leaders leaders' := by
  induction passes generalizing leaders with
  | zero => cases h
  | succ passes ih =>
    obtain ⟨⟨next, changed⟩, hpass, h⟩ := Option.bind_eq_some_iff.mp h
    have hnext : Leaders next := leaders_of_splitPass hresolutions hleaders.aligned hleaders hpass
    dsimp only at h
    split at h
    · exact ih hnext h
    · cases h
      exact hnext

/-- A block in its place among the leaders. -/
structure Laid (leaders : List ℕ) (block : BasicBlock) : Prop where
  leader : block.startPc ∈ leaders
  pairs : LaidFrom leaders block.startPc [] block.startPc block.pairs

lemma map_startPc_of_forall₂ {leaders : List ℕ} {blocks : List BasicBlock}
    (h : List.Forall₂ (fun leader block => block.startPc = leader) leaders blocks) :
    blocks.map (·.startPc) = leaders := by
  induction h with
  | nil => rfl
  | cons hhead _ ih => rw [List.map_cons, hhead, ih]

/-- The blocks of a build start at the leaders and lie between them. -/
lemma laid_of_build (hstart : Aligned startPc) (hresolutions : AlignedResolutions resolutions)
    {blocks : List BasicBlock}
    (h : buildBlocksForIndirectResolutions upperTable micro startPc resolutions = some blocks) :
    Leaders (blocks.map (·.startPc)) ∧ ∀ block ∈ blocks, Laid (blocks.map (·.startPc)) block := by
  obtain ⟨leaders, hsplit, h⟩ := Option.bind_eq_some_iff.mp h
  obtain ⟨pendings, hpendings, hblocks⟩ := Option.bind_eq_some_iff.mp h
  have hleaders : Leaders leaders := leaders_of_splitLeaders hresolutions
    ⟨List.nodup_singleton _, fun leader hleader => by rwa [List.mem_singleton.mp hleader]⟩ hsplit
  have hall : List.Forall₂ (fun leader block => block.startPc = leader ∧
      LaidFrom leaders leader [] leader block.pairs) leaders blocks := by
    have hrebuilt := forall₂_of_mapM hpendings
    have hlinked := forall₂_of_mapM hblocks
    rw [List.forall₂_iff_get] at *
    refine ⟨hrebuilt.1.trans hlinked.1, fun index hleader hblock => ?_⟩
    have hpending : index < pendings.length := hrebuilt.1 ▸ hleader
    obtain ⟨⟨pending, discovered⟩, hscan, hkept⟩ :=
      Option.bind_eq_some_iff.mp (hrebuilt.2 index hleader hpending)
    obtain ⟨-, hblock'⟩ := linkBlock_eq_some (hlinked.2 index hpending hblock)
    dsimp only at hkept
    split at hkept
    next =>
      obtain rfl := Option.some.inj hkept
      rw [hblock']
      exact ⟨startPc_of_scanned (scanned_of_scanFrom hscan), (laidFrom_of_scanFrom hresolutions
        (hleaders.aligned _ (List.get_mem leaders ⟨index, hleader⟩)) hscan).1⟩
    next => cases hkept
  have hmap : blocks.map (·.startPc) = leaders :=
    map_startPc_of_forall₂ (hall.imp fun _ _ hblock => hblock.1)
  rw [hmap]
  refine ⟨hleaders, fun block hblock => ?_⟩
  obtain ⟨hlength, hget⟩ := List.forall₂_iff_get.mp hall
  obtain ⟨⟨index, hindex⟩, rfl⟩ := List.get_of_mem hblock
  obtain ⟨hstart', hlaid⟩ := hget index (hlength.symm ▸ hindex) hindex
  exact ⟨hstart' ▸ List.get_mem leaders _, by rw [hstart']; exact hlaid⟩

end Leaders

/-! ### The whole analysis -/

section Build

variable {upperTable : UpperTable} {micro : Micro} {resolutions : IndirectResolutionMap}
  {startPc fuel passes : ℕ} {blocks : List BasicBlock}

/-- The inferred targets are addresses of pairs. -/
lemma aligned_infer {inferred : List (ℕ × IndirectResolution)}
    (h : inferIndirectResolutions fuel blocks startPc = some inferred) :
    ∀ entry ∈ inferred, ∀ target ∈ entry.2.targets, Aligned target := by
  unfold inferIndirectResolutions at h
  split at h
  · cases h
    exact fun entry hentry => nomatch hentry
  · obtain ⟨facts, -, rfl⟩ := Option.map_eq_some_iff.mp h
    intro entry hentry target htarget
    obtain ⟨index, -, hinfer⟩ := List.mem_filterMap.mp hentry
    unfold inferBlock at hinfer
    dsimp only at hinfer
    split at hinfer
    · cases hinfer
    split at hinfer
    · cases hinfer
      dsimp only at htarget
      unfold inferResolution at htarget
      split at htarget
      · cases htarget
      dsimp only at htarget
      split at htarget
      · cases htarget
      · have hmem := (mem_foldl_insertKey.mp htarget).resolve_right List.not_mem_nil
        obtain ⟨value, -, rfl⟩ := List.mem_map.mp hmem
        exact aligned_mod value
    · cases hinfer

lemma aligned_update {inferred : List (ℕ × IndirectResolution)}
    (hinferred : ∀ entry ∈ inferred, ∀ target ∈ entry.2.targets, Aligned target)
    (h : AlignedResolutions resolutions) :
    AlignedResolutions (updateIndirectResolutions inferred resolutions).1 := by
  have hstep : ∀ (state : IndirectResolutionMap × Bool), AlignedResolutions state.1 →
      ∀ entry ∈ inferred, AlignedResolutions (updateResolution state entry).1 := by
    intro state hstate entry hentry pc resolution hpc target htarget
    unfold updateResolution at hpc
    split at hpc
    all_goals dsimp only at hpc
    next =>
      by_cases heq : pc = entry.1
      · rw [heq, Function.update_self] at hpc
        cases hpc
        exact hinferred entry hentry target htarget
      · rw [Function.update_of_ne heq] at hpc
        exact hstate pc resolution hpc target htarget
    next current hcurrent =>
      by_cases heq : pc = entry.1
      · rw [heq, Function.update_self] at hpc
        cases hpc
        rcases mem_foldl_insertKey.mp htarget with hmem | hmem
        · exact hinferred entry hentry target hmem
        · exact hstate _ current hcurrent target hmem
      · rw [Function.update_of_ne heq] at hpc
        exact hstate pc resolution hpc target htarget
  exact List.foldlRecOn (motive := fun state => AlignedResolutions state.1) inferred
    updateResolution (b := (resolutions, false)) h hstep

/-- The blocks of an analysis start at different addresses and lie between them. -/
theorem laid_of_buildBlocks (hstart : Aligned startPc) (hresolutions : AlignedResolutions resolutions)
    (h : buildBlocks upperTable micro fuel startPc passes resolutions = some blocks) :
    Leaders (blocks.map (·.startPc)) ∧ ∀ block ∈ blocks, Laid (blocks.map (·.startPc)) block := by
  induction passes generalizing resolutions with
  | zero => cases h
  | succ passes ih =>
    obtain ⟨current, hcurrent, h⟩ := Option.bind_eq_some_iff.mp h
    obtain ⟨inferred, hinferred, h⟩ := Option.bind_eq_some_iff.mp h
    dsimp only at h
    split at h
    · exact ih (aligned_update (aligned_infer hinferred) hresolutions) h
    · cases h
      exact laid_of_build hstart hresolutions hcurrent

end Build

/-! ### Shared pairs -/

/-- The addresses of the pairs outside delay slots. -/
def bodyPcs (pairs : List ProgramPair) : List ℕ :=
  (pairs.filter fun pair => !pair.delayedPair).map (·.plan.pc)

/-- The addresses of the pairs in delay slots. -/
def slotPcs (pairs : List ProgramPair) : List ℕ :=
  (pairs.filter fun pair => pair.delayedPair).map (·.plan.pc)

section Strip

variable {leaders local' : List ℕ} {startPc pc : ℕ} {pairs : List ProgramPair}

/-- The pairs of a block are consecutive, and a delay slot follows the last one. -/
lemma LaidFrom.exists_strip (h : LaidFrom leaders startPc local' pc pairs) :
    ∃ n, bodyPcs pairs = List.iterate nextPc pc n ∧
      (slotPcs pairs = [] ∨ 0 < n ∧ slotPcs pairs = [nextPc^[n] pc]) ∧
      (bodyPcs pairs).Nodup ∧ ∀ x ∈ bodyPcs pairs, x ∉ local' ∧ (x = startPc ∨ x ∉ leaders) := by
  induction h with
  | stop => exact ⟨0, rfl, Or.inl rfl, List.nodup_nil, fun x hx => nomatch hx⟩
  | terminator local' plan delay hfresh hleader hdelay =>
    refine ⟨1, rfl, Or.inr ⟨one_pos, ?_⟩, List.nodup_singleton _, fun x hx => ?_⟩
    · rw [Function.iterate_one, ← hdelay]
      rfl
    · rw [List.mem_singleton.mp hx]
      exact ⟨hfresh, hleader⟩
  | body local' plan rest hfresh hleader _ ih =>
    obtain ⟨n, hbody, hslot, hnodup, hnew⟩ := ih
    have hcons : bodyPcs (⟨plan, false⟩ :: rest) = plan.pc :: bodyPcs rest := rfl
    refine ⟨n + 1, ?_, ?_, ?_, fun x hx => ?_⟩
    · rw [hcons, hbody]
      rfl
    · rcases hslot with hslot | ⟨-, hslot⟩
      · exact Or.inl hslot
      · exact Or.inr ⟨Nat.succ_pos n, hslot⟩
    · rw [hcons]
      exact List.nodup_cons.mpr ⟨fun hmem => (hnew _ hmem).1 List.mem_cons_self, hnodup⟩
    · rw [hcons] at hx
      rcases List.mem_cons.mp hx with rfl | hx
      · exact ⟨hfresh, hleader⟩
      · exact ⟨fun hmem => (hnew x hx).1 (List.mem_cons_of_mem _ hmem), (hnew x hx).2⟩

lemma aligned_iterate (h : Aligned pc) (n : ℕ) : Aligned (nextPc^[n] pc) := by
  induction n with
  | zero => exact h
  | succ n ih =>
    rw [Function.iterate_succ_apply']
    exact aligned_nextPc ih

lemma iterate_injective {pc' : ℕ} (h : Aligned pc) (h' : Aligned pc') {n : ℕ}
    (heq : nextPc^[n] pc = nextPc^[n] pc') : pc = pc' := by
  induction n with
  | zero => exact heq
  | succ n ih =>
    rw [Function.iterate_succ_apply', Function.iterate_succ_apply'] at heq
    exact ih (nextPc_injective (aligned_iterate h n) (aligned_iterate h' n) heq)

end Strip

end VitaSX2.Vu1
