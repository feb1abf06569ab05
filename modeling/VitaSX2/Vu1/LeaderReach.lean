/-
Every block of an analysis is reached from its entry.

A leader is found by a scan from another leader, so a chain of pairs leads from the
start address to it.  The blocks are cut at the leaders, and along such a chain each
pair lies in a block that the entry reaches.
-/
import VitaSX2.Vu1.CfgRun
import VitaSX2.Vu1.Reachability

namespace VitaSX2.Vu1

open Relation

variable {upperTable : UpperTable} {micro : Micro} {resolutions : IndirectResolutionMap}
  {leaders : List ℕ} {blocks : List BasicBlock} {startPc pc : ℕ}

/-- A pair is followed by the next one, or by the targets of its branch. -/
def PairEdge (upperTable : UpperTable) (micro : Micro) (resolutions : IndirectResolutionMap)
    (pc next : ℕ) : Prop :=
  ∃ plan, decodePair upperTable micro pc = some plan ∧
    if plan.branches || plan.ebit then next ∈ discoveredTargets (terminatorTargets resolutions plan)
    else next = nextPc pc

/-! ### Leaders -/

/-- What a scan discovers is led to by pairs. -/
lemma reach_of_scanFrom {origin fuel : ℕ} {localPcs discovered : List ℕ} {pending : PendingBlock}
    (h : scanFrom upperTable micro startPc leaders resolutions fuel localPcs pc =
      some (pending, discovered))
    (hlocal : ∀ q ∈ localPcs, ReflTransGen (PairEdge upperTable micro resolutions) origin q)
    (hpc : ReflTransGen (PairEdge upperTable micro resolutions) origin pc) :
    ∀ q ∈ discovered, ReflTransGen (PairEdge upperTable micro resolutions) origin q := by
  induction fuel generalizing localPcs pc pending with
  | zero => cases h
  | succ fuel ih =>
    rw [scanFrom] at h
    split at h
    · cases h
      intro q hq
      cases hq
    split at h
    · cases h
      exact fun q hq => (List.mem_singleton.mp hq) ▸ hpc
    obtain ⟨plan, hplan, h⟩ := Option.bind_eq_some_iff.mp h
    split at h
    next hends =>
      obtain ⟨delay, -, heq⟩ := Option.map_eq_some_iff.mp h
      cases heq
      exact fun q hq => hpc.tail ⟨plan, hplan, by rw [if_pos hends]; exact hq⟩
    next hplain =>
      obtain ⟨⟨rest, _⟩, hrest, heq⟩ := Option.map_eq_some_iff.mp h
      cases heq
      exact ih hrest (List.forall_mem_cons.mpr ⟨hpc, hlocal⟩)
        (hpc.tail ⟨plan, hplan, by rw [if_neg hplain]⟩)

/-- The leaders so far are distinct, the start is among them, and pairs lead to them. -/
structure LeadersOk (upperTable : UpperTable) (micro : Micro) (resolutions : IndirectResolutionMap)
    (origin : ℕ) (leaders : List ℕ) : Prop where
  nodup : leaders.Nodup
  origin_mem : origin ∈ leaders
  reached : ∀ q ∈ leaders, ReflTransGen (PairEdge upperTable micro resolutions) origin q

variable {origin : ℕ}

lemma nodup_insertKey {keys : List ℕ} {key : ℕ} (h : keys.Nodup) : (insertKey keys key).Nodup := by
  rw [insertKey]
  split
  · exact h
  next hnew => exact (List.perm_orderedInsert _ key keys).nodup_iff.mpr (List.nodup_cons.mpr ⟨hnew, h⟩)

lemma nodup_foldl_insertKey {added keys : List ℕ} (h : keys.Nodup) :
    (added.foldl insertKey keys).Nodup := by
  induction added generalizing keys with
  | nil => exact h
  | cons key rest ih => exact ih (nodup_insertKey h)

/-- A leader that is scanned adds leaders that pairs lead to. -/
lemma LeadersOk.splitLeader {state next : List ℕ × Bool} {leader : ℕ}
    (h : LeadersOk upperTable micro resolutions origin state.1) (hleader : leader ∈ state.1)
    (hsplit : splitLeader upperTable micro resolutions state leader = some next) :
    LeadersOk upperTable micro resolutions origin next.1 ∧ ∀ q ∈ state.1, q ∈ next.1 := by
  obtain ⟨⟨pending, discovered⟩, hscan, rfl⟩ := Option.map_eq_some_iff.mp hsplit
  have hdiscovered := reach_of_scanFrom hscan (fun q hq => nomatch hq) (h.reached leader hleader)
  refine ⟨⟨nodup_foldl_insertKey h.nodup, mem_foldl_insertKey.mpr (Or.inr h.origin_mem),
    fun q hq => ?_⟩, fun q hq => mem_foldl_insertKey.mpr (Or.inr hq)⟩
  exact (mem_foldl_insertKey.mp hq).elim (hdiscovered q) (h.reached q)

lemma LeadersOk.foldlM {scanned : List ℕ} {state next : List ℕ × Bool}
    (h : LeadersOk upperTable micro resolutions origin state.1) (hmem : ∀ q ∈ scanned, q ∈ state.1)
    (hfold : scanned.foldlM (Vu1.splitLeader upperTable micro resolutions) state = some next) :
    LeadersOk upperTable micro resolutions origin next.1 := by
  induction scanned generalizing state with
  | nil =>
    cases hfold
    exact h
  | cons leader scanned ih =>
    obtain ⟨hleader, hmem⟩ := List.forall_mem_cons.mp hmem
    rw [List.foldlM_cons] at hfold
    obtain ⟨middle, hfirst, hrest⟩ := Option.bind_eq_some_iff.mp hfold
    obtain ⟨hmiddle, hkeeps⟩ := h.splitLeader hleader hfirst
    exact ih hmiddle (fun q hq => hkeeps q (hmem q hq)) hrest

lemma LeadersOk.splitLeaders {passes : ℕ} {result : List ℕ}
    (h : LeadersOk upperTable micro resolutions origin leaders)
    (hsplit : splitLeaders upperTable micro resolutions passes leaders = some result) :
    LeadersOk upperTable micro resolutions origin result := by
  induction passes generalizing leaders with
  | zero => cases hsplit
  | succ passes ih =>
    obtain ⟨⟨next, changed⟩, hfold, hsplit⟩ := Option.bind_eq_some_iff.mp hsplit
    have hnext := h.foldlM (fun q hq => hq) hfold
    dsimp only at hsplit
    split at hsplit
    · exact ih hnext hsplit
    · cases hsplit
      exact hnext

lemma leadersOk_start : LeadersOk upperTable micro resolutions origin [origin] :=
  ⟨List.nodup_singleton _, List.mem_singleton_self _, fun q hq => (List.mem_singleton.mp hq) ▸ .refl⟩

/-! ### Blocks -/

/-- A pair lies in a block: the scan of the block goes on from it. -/
def InsideBlock (upperTable : UpperTable) (micro : Micro) (resolutions : IndirectResolutionMap)
    (leaders : List ℕ) (blocks : List BasicBlock) (index pc : ℕ) : Prop :=
  ∃ start fuel localPcs pending discovered, leaders[index]? = some start ∧
    scanFrom upperTable micro start leaders resolutions fuel localPcs pc =
      some (pending, discovered) ∧
    pending.targets.mapM (linkEdge leaders) = some (blockAt blocks index).successors ∧
    (∀ q ∈ discovered, q ∈ leaders) ∧ (pc ∈ leaders → pc = start ∧ localPcs = [])

/-- The blocks and their leaders, each leader inside its own block. -/
lemma exists_leaders
    (h : buildBlocksForIndirectResolutions upperTable micro startPc resolutions = some blocks) :
    ∃ leaders, Built upperTable micro resolutions leaders blocks ∧
      LeadersOk upperTable micro resolutions startPc leaders ∧
      ∀ (index start : ℕ), leaders[index]? = some start →
        InsideBlock upperTable micro resolutions leaders blocks index start := by
  obtain ⟨leaders, hleaders, h⟩ := Option.bind_eq_some_iff.mp h
  obtain ⟨pendings, hpendings, hblocks⟩ := Option.bind_eq_some_iff.mp h
  have hrebuilt := List.forall₂_iff_get.mp (forall₂_of_mapM hpendings)
  have hlinked := List.forall₂_iff_get.mp (forall₂_of_mapM hblocks)
  have hscans : ∀ (index : ℕ) (hleader : index < leaders.length) (hblock : index < blocks.length),
      ∃ pending discovered, scanBlock upperTable micro leaders resolutions
          (leaders.get ⟨index, hleader⟩) = some (pending, discovered) ∧
        (∀ q ∈ discovered, q ∈ leaders) ∧
        linkBlock leaders pending = some (blocks.get ⟨index, hblock⟩) := by
    intro index hleader hblock
    have hpending : index < pendings.length := hrebuilt.1 ▸ hleader
    obtain ⟨⟨pending, discovered⟩, hscan, hkept⟩ :=
      Option.bind_eq_some_iff.mp (hrebuilt.2 index hleader hpending)
    dsimp only at hkept
    split at hkept
    next hall =>
      have heq := Option.some.inj hkept
      refine ⟨pending, discovered, hscan, fun q hq => ?_, ?_⟩
      · exact of_decide_eq_true (List.all_eq_true.mp hall q hq)
      · rw [heq]
        exact hlinked.2 index hpending hblock
    next => cases hkept
  refine ⟨leaders, ?_, leadersOk_start.splitLeaders hleaders, fun index start hindex => ?_⟩
  · refine List.forall₂_iff_get.mpr ⟨hrebuilt.1.trans hlinked.1, fun index hleader hblock => ?_⟩
    obtain ⟨pending, discovered, hscan, -, hlink⟩ := hscans index hleader hblock
    exact ⟨pending, scanned_of_scanFrom hscan, pairs_ne_nil_of_scanBlock hscan, hlink⟩
  · obtain ⟨hleader, rfl⟩ := List.getElem?_eq_some_iff.mp hindex
    have hblock : index < blocks.length := hlinked.1 ▸ hrebuilt.1 ▸ hleader
    obtain ⟨pending, discovered, hscan, hkept, hlink⟩ := hscans index hleader hblock
    have hat : blockAt blocks index = blocks.get ⟨index, hblock⟩ := by
      rw [blockAt, List.getD_eq_getElem?_getD, List.getElem?_eq_getElem hblock, Option.getD_some]
      rfl
    exact ⟨_, _, [], pending, discovered, hindex, hscan, hat ▸ (linkBlock_eq_some hlink).1, hkept,
      fun _ => ⟨rfl, rfl⟩⟩

/-- The block after an edge. -/
lemma exists_blockEdge (h : Built upperTable micro resolutions leaders blocks) {index next : ℕ}
    {kind : ControlEdgeKind} {targets : List (ControlEdgeKind × ℕ)}
    (hlinks : targets.mapM (linkEdge leaders) = some (blockAt blocks index).successors)
    (htarget : (kind, next) ∈ targets) (hprogram : kind ≠ .programExit)
    (hexternal : kind ≠ .externalExit) :
    ∃ target, BlockEdge blocks index target ∧ leaders[target]? = some next := by
  obtain ⟨target, hedge, hleader⟩ := exists_edge hlinks htarget hprogram hexternal
  have hlt : target < blocks.length := h.length_eq ▸ (List.getElem?_eq_some_iff.mp hleader).1
  exact ⟨target, mem_edgeTargets.mpr ⟨hlt, _, hedge, rfl⟩, hleader⟩

/-- One edge between pairs stays in the block or leads to the start of a block. -/
lemma InsideBlock.next (hbuilt : Built upperTable micro resolutions leaders blocks) {index next : ℕ}
    (h : InsideBlock upperTable micro resolutions leaders blocks index pc)
    (hedge : PairEdge upperTable micro resolutions pc next) :
    InsideBlock upperTable micro resolutions leaders blocks index next ∨
      leaders[index]? = some next ∨
      ∃ target, BlockEdge blocks index target ∧ leaders[target]? = some next := by
  obtain ⟨start, fuel, localPcs, pending, discovered, hstart, hscan, hlinks, hkept, hleader⟩ := h
  obtain ⟨plan, hplan, hnext⟩ := hedge
  cases fuel with
  | zero => cases hscan
  | succ fuel =>
    rw [scanFrom] at hscan
    split at hscan
    next hcut => exact absurd (hleader hcut.2).1 hcut.1
    split at hscan
    next hlocal =>
      -- A scan that comes back to one of its pairs has discovered it.
      cases hscan
      rw [(hleader (hkept pc (List.mem_singleton_self _))).2] at hlocal
      exact absurd hlocal List.not_mem_nil
    obtain ⟨plan', hplan', hscan⟩ := Option.bind_eq_some_iff.mp hscan
    rw [hplan] at hplan'
    cases hplan'
    split at hscan
    next hends =>
      rw [if_pos hends] at hnext
      obtain ⟨delay, -, heq⟩ := Option.map_eq_some_iff.mp hscan
      cases heq
      obtain ⟨⟨kind, target⟩, htarget, rfl⟩ := List.mem_map.mp hnext
      obtain ⟨htarget, hkind⟩ := List.mem_filter.mp htarget
      rw [Bool.and_eq_true, bne_iff_ne, bne_iff_ne] at hkind
      exact Or.inr (Or.inr (exists_blockEdge hbuilt hlinks htarget hkind.1 hkind.2))
    next hplain =>
      rw [if_neg hplain] at hnext
      subst hnext
      obtain ⟨⟨rest, _⟩, hrest, heq⟩ := Option.map_eq_some_iff.mp hscan
      cases heq
      by_cases hnext : nextPc pc ∈ leaders
      · by_cases hback : nextPc pc = start
        · exact Or.inr (Or.inl (hback ▸ hstart))
        · cases fuel with
          | zero => cases hrest
          | succ fuel =>
            rw [scanFrom, if_pos ⟨hback, hnext⟩] at hrest
            cases hrest
            exact Or.inr (Or.inr (exists_blockEdge hbuilt hlinks List.mem_cons_self
              (fun h => by cases h) (fun h => by cases h)))
      · exact Or.inl ⟨start, fuel, _, rest, discovered, hstart, hrest, hlinks, hkept,
          fun h => absurd h hnext⟩

/-! ### The analysis -/

/-- Every block of an analysis is reached from its entry. -/
theorem reachable_of_analyze {fuel : ℕ} {analysis : ProgramAnalysis}
    (h : analyzeGpuVu1Program upperTable micro fuel startPc = some analysis) {index : ℕ}
    (hindex : index < analysis.blocks.length) : index ∈ analysis.reachableBlocks := by
  obtain ⟨blocks, hblocks, -, rfl⟩ := analyze_spec h
  obtain ⟨resolutions, inferred, hbuild, -⟩ := buildBlocks_spec hblocks
  obtain ⟨leaders, hbuilt, hleaders, hinside⟩ := exists_leaders hbuild
  change index < blocks.length at hindex
  -- The blocks are numbered like the leaders, and the entry is the block of the start.
  have hpc : ∀ (i start : ℕ), leaders[i]? = some start → (blockAt blocks i).startPc = start :=
    fun i start hi => (exists_remaining hbuilt hi).1
  have hunique : ∀ (i j start : ℕ), leaders[i]? = some start → leaders[j]? = some start → i = j := by
    intro i j start hi hj
    obtain ⟨hlt, hi⟩ := List.getElem?_eq_some_iff.mp hi
    obtain ⟨hlt', hj⟩ := List.getElem?_eq_some_iff.mp hj
    exact (hleaders.nodup.getElem_inj_iff).mp (hi.trans hj.symm)
  obtain ⟨entry, hentry⟩ := List.mem_iff_getElem?.mp hleaders.origin_mem
  have hlt : entry < blocks.length := hbuilt.length_eq ▸ (List.getElem?_eq_some_iff.mp hentry).1
  have hentryBlock : (summarize (startPc % vu1ProgSize) blocks).entryBlock = some entry := by
    cases hcase : (summarize (startPc % vu1ProgSize) blocks).entryBlock with
    | none =>
      have hnil := List.getLast?_eq_none_iff.mp hcase
      have hmem : entry ∈ (List.range blocks.length).filter fun i =>
          (blockAt blocks i).startPc = startPc % vu1ProgSize :=
        List.mem_filter.mpr ⟨List.mem_range.mpr hlt, decide_eq_true (hpc entry _ hentry)⟩
      exact absurd (hnil ▸ hmem) List.not_mem_nil
    | some other =>
      obtain ⟨hother, hstart⟩ := List.mem_filter.mp (List.mem_of_getLast? hcase)
      obtain ⟨start, hleader⟩ : ∃ start, leaders[other]? = some start :=
        ⟨_, List.getElem?_eq_getElem (hbuilt.length_eq.symm ▸ List.mem_range.mp hother)⟩
      have hsame : start = startPc % vu1ProgSize :=
        (hpc other start hleader).symm.trans (of_decide_eq_true hstart)
      rw [hunique other entry _ (hsame ▸ hleader) hentry]
  rw [mem_reachableBlocks hentryBlock]
  change ReflTransGen (BlockEdge blocks) entry index
  have hreached : ∀ pc, ReflTransGen (PairEdge upperTable micro resolutions)
      (startPc % vu1ProgSize) pc → ∃ i, ReflTransGen (BlockEdge blocks) entry i ∧
        InsideBlock upperTable micro resolutions leaders blocks i pc := by
    intro pc hpath
    induction hpath with
    | refl => exact ⟨entry, .refl, hinside entry _ hentry⟩
    | tail _ hedge ih =>
      obtain ⟨i, hreach, hin⟩ := ih
      rcases hin.next hbuilt hedge with hin | hleader | ⟨target, hblock, hleader⟩
      · exact ⟨i, hreach, hin⟩
      · exact ⟨i, hreach, hinside i _ hleader⟩
      · exact ⟨target, hreach.tail hblock, hinside target _ hleader⟩
  obtain ⟨start, hleader⟩ : ∃ start, leaders[index]? = some start :=
    ⟨_, List.getElem?_eq_getElem (hbuilt.length_eq.symm ▸ hindex)⟩
  obtain ⟨i, hreach, start', _, _, _, _, hstart', -, -, -, hcut⟩ :=
    hreached start (hleaders.reached start (List.mem_of_getElem? hleader))
  obtain ⟨rfl, -⟩ := hcut (List.mem_of_getElem? hleader)
  exact hunique i index _ hstart' hleader ▸ hreach

end VitaSX2.Vu1
