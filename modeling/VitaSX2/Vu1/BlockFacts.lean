/-
What the blocks of a successful analysis look like.

`Scanned` is the shape of a scan: pairs without a branch and without an E-bit, and
then either the next leader or one pair with its delay slot.
-/
import VitaSX2.Lib.Settle
import VitaSX2.Vu1.Analysis

namespace VitaSX2.Vu1

lemma forall₂_of_mapM {α β : Type*} {f : α → Option β} {l : List α} {l' : List β}
    (h : l.mapM f = some l') : List.Forall₂ (fun a b => f a = some b) l l' := by
  induction l generalizing l' with
  | nil =>
    cases h
    exact .nil
  | cons a rest ih =>
    rw [List.mapM_cons] at h
    obtain ⟨b, hb, h⟩ := Option.bind_eq_some_iff.mp h
    obtain ⟨rest', hrest, h⟩ := Option.bind_eq_some_iff.mp h
    cases h
    exact .cons hb (ih hrest)

lemma exists_of_mem_mapM {α β : Type*} {f : α → Option β} {l : List α} {l' : List β}
    (h : l.mapM f = some l') {a : α} (ha : a ∈ l) : ∃ b ∈ l', f a = some b := by
  have hall := forall₂_of_mapM h
  clear h
  induction hall with
  | nil => cases ha
  | cons hab _ ih =>
    rcases List.mem_cons.mp ha with rfl | ha
    · exact ⟨_, List.mem_cons_self, hab⟩
    · obtain ⟨b, hb, hf⟩ := ih ha
      exact ⟨b, List.mem_cons_of_mem _ hb, hf⟩

lemma mem_insertKey {keys : List ℕ} {key other : ℕ} :
    other ∈ insertKey keys key ↔ other = key ∨ other ∈ keys := by
  rw [insertKey]
  split
  next h => exact ⟨Or.inr, fun hmem => hmem.elim (fun heq => heq ▸ h) fun hmem => hmem⟩
  next => exact List.mem_orderedInsert _

lemma mem_foldl_insertKey {added keys : List ℕ} {other : ℕ} :
    other ∈ added.foldl insertKey keys ↔ other ∈ added ∨ other ∈ keys := by
  induction added generalizing keys with
  | nil => simp
  | cons key rest ih =>
    rw [List.foldl_cons, ih, mem_insertKey, List.mem_cons]
    tauto

lemma foldl_insertKey_of_mem {added keys : List ℕ} (h : ∀ key ∈ added, key ∈ keys) :
    added.foldl insertKey keys = keys := by
  induction added with
  | nil => rfl
  | cons key rest ih =>
    obtain ⟨hkey, hrest⟩ := List.forall_mem_cons.mp h
    rw [List.foldl_cons, insertKey, if_pos hkey]
    exact ih hrest

lemma nextPc_nextPc (pc : ℕ) : nextPc (nextPc pc) = afterDelay pc := by
  simp only [nextPc, afterDelay, pairBytes, vu1ProgSize]
  omega

/-! ### Scans -/

section Scanned

variable {upperTable : UpperTable} {micro : Micro}

/-- A pair that neither branches nor ends the program. -/
def PairPlan.Plain (plan : PairPlan) : Prop := plan.branches = false ∧ plan.ebit = false

/-- What a scan returns from a pair on. -/
inductive Scanned (upperTable : UpperTable) (micro : Micro) (resolutions : IndirectResolutionMap)
    (startPc : ℕ) : ℕ → PendingBlock → Prop where
  | fallthrough (pc : ℕ) :
    Scanned upperTable micro resolutions startPc pc ⟨{ startPc }, [(.fallthrough, pc)]⟩
  | terminator (pc : ℕ) (plan : PairPlan) (pending : PendingBlock) (discovered : List ℕ) :
    decodePair upperTable micro pc = some plan → ¬ plan.Plain →
    scanTerminator upperTable micro startPc resolutions plan = some (pending, discovered) →
    Scanned upperTable micro resolutions startPc pc pending
  | body (pc : ℕ) (plan : PairPlan) (rest : PendingBlock) :
    decodePair upperTable micro pc = some plan → plan.Plain →
    Scanned upperTable micro resolutions startPc (nextPc pc) rest →
    Scanned upperTable micro resolutions startPc pc
      { rest with
        block :=
          { rest.block with
            pairs := ⟨plan, false⟩ :: rest.block.pairs
            hasExternalExit := plan.dflag || plan.tflag || rest.block.hasExternalExit } }

variable {resolutions : IndirectResolutionMap} {startPc : ℕ} {leaders : List ℕ}

lemma scanned_of_scanFrom {fuel : ℕ} {localPcs : List ℕ} {pc : ℕ} {pending : PendingBlock}
    {discovered : List ℕ}
    (h : scanFrom upperTable micro startPc leaders resolutions fuel localPcs pc =
      some (pending, discovered)) :
    Scanned upperTable micro resolutions startPc pc pending := by
  induction fuel generalizing localPcs pc pending with
  | zero => cases h
  | succ fuel ih =>
    rw [scanFrom] at h
    split at h
    · cases h
      exact .fallthrough pc
    · split at h
      · cases h
        exact .fallthrough pc
      · obtain ⟨plan, hplan, h⟩ := Option.bind_eq_some_iff.mp h
        split at h
        next hends =>
          refine .terminator pc plan pending discovered hplan (fun hplain => ?_) h
          rw [hplain.1, hplain.2] at hends
          cases hends
        next hplain =>
          obtain ⟨⟨rest, _⟩, hrest, heq⟩ := Option.map_eq_some_iff.mp h
          cases heq
          rw [Bool.or_eq_true, not_or, Bool.not_eq_true, Bool.not_eq_true] at hplain
          exact .body pc plan rest hplan hplain (ih hrest)

lemma startPc_of_scanned {pc : ℕ} {pending : PendingBlock}
    (h : Scanned upperTable micro resolutions startPc pc pending) :
    pending.block.startPc = startPc := by
  induction h with
  | fallthrough => rfl
  | terminator pc plan pending discovered _ _ hterminator =>
    obtain ⟨delay, -, heq⟩ := Option.map_eq_some_iff.mp hterminator
    cases heq
    rfl
  | body _ _ _ _ _ _ ih => exact ih

/-- A scan that starts at its first pair holds that pair. -/
lemma pairs_ne_nil_of_scanBlock {pending : PendingBlock} {discovered : List ℕ}
    (h : scanBlock upperTable micro leaders resolutions startPc = some (pending, discovered)) :
    pending.block.pairs ≠ [] := by
  unfold scanBlock maxVu1Pairs at h
  change scanFrom upperTable micro startPc leaders resolutions (2047 + 1) [] startPc = _ at h
  rw [scanFrom, if_neg fun h => h.1 rfl, if_neg List.not_mem_nil] at h
  obtain ⟨plan, -, h⟩ := Option.bind_eq_some_iff.mp h
  split at h
  · obtain ⟨delay, -, heq⟩ := Option.map_eq_some_iff.mp h
    cases heq
    exact List.cons_ne_nil _ _
  · obtain ⟨⟨rest, _⟩, -, heq⟩ := Option.map_eq_some_iff.mp h
    cases heq
    exact List.cons_ne_nil _ _

/-! ### The blocks of one build -/

/-- The blocks belong to the leaders, each scanned with the resolutions and linked
to the others. -/
def Built (upperTable : UpperTable) (micro : Micro) (resolutions : IndirectResolutionMap)
    (leaders : List ℕ) (blocks : List BasicBlock) : Prop :=
  List.Forall₂ (fun start block => ∃ pending,
    Scanned upperTable micro resolutions start start pending ∧ pending.block.pairs ≠ [] ∧
      linkBlock leaders pending = some block) leaders blocks

lemma exists_built {blocks : List BasicBlock}
    (h : buildBlocksForIndirectResolutions upperTable micro startPc resolutions = some blocks) :
    ∃ leaders, Built upperTable micro resolutions leaders blocks := by
  obtain ⟨leaders, -, h⟩ := Option.bind_eq_some_iff.mp h
  obtain ⟨pendings, hpendings, hblocks⟩ := Option.bind_eq_some_iff.mp h
  refine ⟨leaders, ?_⟩
  have hrebuilt := forall₂_of_mapM hpendings
  have hlinked := forall₂_of_mapM hblocks
  rw [Built, List.forall₂_iff_get] at *
  refine ⟨hrebuilt.1.trans hlinked.1, fun index hleader hblock => ?_⟩
  have hpending : index < pendings.length := hrebuilt.1 ▸ hleader
  refine ⟨pendings.get ⟨index, hpending⟩, ?_⟩
  obtain ⟨⟨pending, discovered⟩, hscan, hkept⟩ :=
    Option.bind_eq_some_iff.mp (hrebuilt.2 index hleader hpending)
  dsimp only at hkept
  split at hkept
  next =>
    cases hkept
    exact ⟨scanned_of_scanFrom hscan, pairs_ne_nil_of_scanBlock hscan,
      hlinked.2 index hpending hblock⟩
  next => cases hkept

/-- One block of a build. -/
lemma Built.at {blocks : List BasicBlock} (h : Built upperTable micro resolutions leaders blocks)
    {index start : ℕ} (hindex : leaders[index]? = some start) :
    ∃ pending, Scanned upperTable micro resolutions start start pending ∧
      pending.block.pairs ≠ [] ∧ linkBlock leaders pending = some (blockAt blocks index) ∧
      blockAt blocks index ∈ blocks := by
  obtain ⟨hlength, hall⟩ := List.forall₂_iff_get.mp h
  obtain ⟨hleader, rfl⟩ := List.getElem?_eq_some_iff.mp hindex
  have hblock : index < blocks.length := hlength ▸ hleader
  have hat : blockAt blocks index = blocks.get ⟨index, hblock⟩ := by
    rw [blockAt, List.getD_eq_getElem?_getD, List.getElem?_eq_getElem hblock, Option.getD_some]
    rfl
  obtain ⟨pending, hscanned, hpairs, hlink⟩ := hall index hleader hblock
  rw [hat]
  exact ⟨pending, hscanned, hpairs, hlink, List.get_mem ..⟩

lemma linkBlock_eq_some {pending : PendingBlock} {block : BasicBlock}
    (h : linkBlock leaders pending = some block) :
    pending.targets.mapM (linkEdge leaders) = some block.successors ∧
      block = { pending.block with successors := block.successors } := by
  obtain ⟨successors, hsuccessors, rfl⟩ := Option.map_eq_some_iff.mp h
  exact ⟨hsuccessors, rfl⟩

/-- A target inside the image becomes an edge to the block that starts there. -/
lemma exists_edge {targets : List (ControlEdgeKind × ℕ)} {successors : List ControlEdge}
    (h : targets.mapM (linkEdge leaders) = some successors) {kind : ControlEdgeKind} {pc : ℕ}
    (htarget : (kind, pc) ∈ targets) (hprogram : kind ≠ .programExit)
    (hexternal : kind ≠ .externalExit) :
    ∃ index, ⟨kind, pc, some index⟩ ∈ successors ∧ leaders[index]? = some pc := by
  obtain ⟨edge, hedge, hlink⟩ := exists_of_mem_mapM h htarget
  rw [linkEdge, if_neg (not_or.mpr ⟨hprogram, hexternal⟩)] at hlink
  obtain ⟨index, hindex, rfl⟩ := Option.map_eq_some_iff.mp hlink
  refine ⟨index, hedge, ?_⟩
  obtain ⟨hlt, hpc, -⟩ := List.findIdx?_eq_some_iff_getElem.mp hindex
  rw [List.getElem?_eq_getElem hlt]
  exact congrArg some (of_decide_eq_true hpc)

/-- An exit becomes an edge without a block. -/
lemma exists_exit {targets : List (ControlEdgeKind × ℕ)} {successors : List ControlEdge}
    (h : targets.mapM (linkEdge leaders) = some successors) {kind : ControlEdgeKind} {pc : ℕ}
    (htarget : (kind, pc) ∈ targets) (hkind : kind = .programExit ∨ kind = .externalExit) :
    ⟨kind, pc, none⟩ ∈ successors := by
  obtain ⟨edge, hedge, hlink⟩ := exists_of_mem_mapM h htarget
  rw [linkEdge, if_pos hkind] at hlink
  cases hlink
  exact hedge

end Scanned

/-! ### Stable resolutions -/

/-- An inference that changes nothing is covered by the resolutions. -/
def Covered (resolutions : IndirectResolutionMap) (entry : ℕ × IndirectResolution) : Prop :=
  ∃ current, resolutions entry.1 = some current ∧
    (∀ target ∈ entry.2.targets, target ∈ current.targets) ∧
    (entry.2.unresolved = true → current.unresolved = true)

lemma updateResolution_cases (resolutions : IndirectResolutionMap)
    (entry : ℕ × IndirectResolution) :
    Covered resolutions entry ∧ updateResolution (resolutions, false) entry = (resolutions, false) ∨
      (updateResolution (resolutions, false) entry).2 = true := by
  unfold updateResolution
  dsimp only
  split
  next => exact Or.inr rfl
  next current hcurrent =>
    rw [Bool.false_or]
    cases hnew : entry.2.targets.any (· ∉ current.targets) with
    | true => exact Or.inr rfl
    | false =>
      have hmem : ∀ target ∈ entry.2.targets, target ∈ current.targets := by
        simpa using hnew
      cases hunresolved : (entry.2.unresolved && !current.unresolved) with
      | true => exact Or.inr rfl
      | false =>
        have hflag : entry.2.unresolved = true → current.unresolved = true := by
          intro hentry
          simpa [hentry] using hunresolved
        refine Or.inl ⟨⟨current, hcurrent, hmem, hflag⟩, ?_⟩
        have hsame : (current.unresolved || entry.2.unresolved) = current.unresolved := by
          cases hcase : current.unresolved
          · cases hentry : entry.2.unresolved
            · rfl
            · rw [hflag hentry] at hcase
              cases hcase
          · rfl
        rw [foldl_insertKey_of_mem hmem, hsame, ← hcurrent, Function.update_eq_self]
        rfl

lemma covered_of_update {inferred : List (ℕ × IndirectResolution)}
    {resolutions : IndirectResolutionMap}
    (h : (updateIndirectResolutions inferred resolutions).2 = false) :
    ∀ entry ∈ inferred, Covered resolutions entry := by
  have hstay : ∀ (current : IndirectResolutionMap) (entry : ℕ × IndirectResolution),
      (updateResolution (current, true) entry).2 = true := by
    intro current entry
    unfold updateResolution
    dsimp only
    split <;> simp
  have hquiet := Settle.foldl_quiet hstay
    (fun current entry => (updateResolution_cases current entry).imp_left And.right)
    (Prod.ext rfl h : updateIndirectResolutions inferred resolutions = (_, false))
  intro entry hentry
  rcases updateResolution_cases resolutions entry with hcovered | hraised
  · exact hcovered.1
  · rw [hquiet.2 entry hentry] at hraised
    cases hraised

lemma buildBlocks_spec {upperTable : UpperTable} {micro : Micro} {fuel startPc passes : ℕ}
    {resolutions : IndirectResolutionMap} {blocks : List BasicBlock}
    (h : buildBlocks upperTable micro fuel startPc passes resolutions = some blocks) :
    ∃ stable inferred,
      buildBlocksForIndirectResolutions upperTable micro startPc stable = some blocks ∧
        inferIndirectResolutions fuel blocks startPc = some inferred ∧
        ∀ entry ∈ inferred, Covered stable entry := by
  induction passes generalizing resolutions with
  | zero => cases h
  | succ passes ih =>
    obtain ⟨current, hcurrent, h⟩ := Option.bind_eq_some_iff.mp h
    obtain ⟨inferred, hinferred, h⟩ := Option.bind_eq_some_iff.mp h
    dsimp only at h
    split at h
    next => exact ih h
    next hquiet =>
      cases h
      exact ⟨resolutions, inferred, hcurrent, hinferred,
        covered_of_update (Bool.not_eq_true _ ▸ hquiet)⟩

end VitaSX2.Vu1
