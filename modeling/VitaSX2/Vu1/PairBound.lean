/-
The bound on the pairs of a run (`DynamicPairUpperBound`).

Without a cycle a path visits no block twice.  Blocks share no pair, unless one
starts in the delay slot of the other, so a path visits no pair twice either, and
the pairs it visits are among those that are counted.
-/
import VitaSX2.Vu1.CfgRun
import VitaSX2.Vu1.Layout
import VitaSX2.Vu1.Reachability

namespace VitaSX2.Vu1

open Relation

section Blocks

variable {blocks : List BasicBlock}

/-- The pairs of a block. -/
abbrev pairsAt (blocks : List BasicBlock) (index : ℕ) : List ProgramPair := (blockAt blocks index).pairs

/-- The addresses of the pairs of a block. -/
def pcsAt (blocks : List BasicBlock) (index : ℕ) : List ℕ := (pairsAt blocks index).map (·.plan.pc)

/-- The blocks lie between the leaders. -/
def AllLaid (blocks : List BasicBlock) : Prop :=
  Leaders (blocks.map (·.startPc)) ∧ ∀ block ∈ blocks, Laid (blocks.map (·.startPc)) block

lemma blockAt_mem {index : ℕ} (h : index < blocks.length) : blockAt blocks index ∈ blocks := by
  rw [blockAt, List.getD_eq_getElem?_getD, List.getElem?_eq_getElem h, Option.getD_some]
  exact List.getElem_mem h

lemma eq_of_startPc (h : AllLaid blocks) {a b : ℕ} (ha : a < blocks.length)
    (hb : b < blocks.length) (heq : (blockAt blocks a).startPc = (blockAt blocks b).startPc) :
    a = b := by
  have hget : ∀ index, index < blocks.length →
      (blocks.map (·.startPc))[index]? = some (blockAt blocks index).startPc := by
    intro index hindex
    rw [List.getElem?_map, blockAt, List.getD_eq_getElem?_getD, List.getElem?_eq_getElem hindex,
      Option.map_some, Option.getD_some]
  exact (List.getElem?_inj (by rwa [List.length_map]) h.1.nodup).mp
    (by rw [hget a ha, hget b hb, heq])

/-- A block as a strip of the micro memory. -/
structure Strip (blocks : List BasicBlock) (index n : ℕ) : Prop where
  aligned : Aligned (blockAt blocks index).startPc
  body : bodyPcs (pairsAt blocks index) = List.iterate nextPc (blockAt blocks index).startPc n
  slot : slotPcs (pairsAt blocks index) = [] ∨
    0 < n ∧ slotPcs (pairsAt blocks index) = [nextPc^[n] (blockAt blocks index).startPc]
  nodup : (bodyPcs (pairsAt blocks index)).Nodup
  leader : ∀ x ∈ bodyPcs (pairsAt blocks index),
    x = (blockAt blocks index).startPc ∨ x ∉ blocks.map (·.startPc)

lemma exists_strip (h : AllLaid blocks) {index : ℕ} (hindex : index < blocks.length) :
    ∃ n, Strip blocks index n := by
  have hlaid := h.2 _ (blockAt_mem hindex)
  obtain ⟨n, hbody, hslot, hnodup, hnew⟩ := hlaid.pairs.exists_strip
  exact ⟨n, h.1.aligned _ hlaid.leader, hbody, hslot, hnodup, fun x hx => (hnew x hx).2⟩

/-- Two blocks with a common pair outside their delay slots are one. -/
lemma eq_of_body (h : AllLaid blocks) {a b m n : ℕ} (ha : a < blocks.length)
    (hb : b < blocks.length) (hstrip : Strip blocks a m) (hstrip' : Strip blocks b n) {i j : ℕ}
    (hi : i < m) (hj : j < n)
    (heq : nextPc^[i] (blockAt blocks a).startPc = nextPc^[j] (blockAt blocks b).startPc) :
    a = b := by
  wlog hij : i ≤ j generalizing a b m n i j
  · exact (this hb ha hstrip' hstrip hj hi heq.symm (by omega)).symm
  -- The start of the first block lies in the second one, and is a leader.
  have hstart : (blockAt blocks a).startPc = nextPc^[j - i] (blockAt blocks b).startPc := by
    refine iterate_injective hstrip.aligned (aligned_iterate hstrip'.aligned _) (n := i) ?_
    rw [heq, ← Function.iterate_add_apply, Nat.add_sub_cancel' hij]
  have hmem : (blockAt blocks a).startPc ∈ bodyPcs (pairsAt blocks b) := by
    rw [hstrip'.body, hstart]
    exact List.mem_iterate.mpr ⟨j - i, by omega, rfl⟩
  refine eq_of_startPc h ha hb ((hstrip'.leader _ hmem).resolve_right fun hout => hout ?_)
  exact List.mem_map.mpr ⟨_, blockAt_mem ha, rfl⟩

/-- The places of the pairs of one block are different. -/
lemma Strip.place_inj {index n i j : ℕ} (h : Strip blocks index n) (hi : i < n) (hj : j < n)
    (heq : nextPc^[i] (blockAt blocks index).startPc = nextPc^[j] (blockAt blocks index).startPc) :
    i = j := by
  have hnodup := h.nodup
  rw [h.body] at hnodup
  refine (List.getElem?_inj (by rwa [List.length_iterate]) hnodup).mp ?_
  rw [List.getElem?_iterate _ _ _ _ hi, List.getElem?_iterate _ _ _ _ hj, heq]

/-- No block of the list starts in the delay slot of another one. -/
def Separated (blocks : List BasicBlock) (indices : List ℕ) : Prop :=
  ∀ a ∈ indices, ∀ b ∈ indices, ∀ pair ∈ pairsAt blocks a, pair.delayedPair = true →
    pair.plan.pc ≠ (blockAt blocks b).startPc

variable {indices : List ℕ}

/-- A delay slot is no pair outside a delay slot. -/
lemma slot_not_mem_body (h : AllLaid blocks) (hseparated : Separated blocks indices)
    (hlt : ∀ index ∈ indices, index < blocks.length) {a b x : ℕ} (ha : a ∈ indices)
    (hb : b ∈ indices) (hslot : x ∈ slotPcs (pairsAt blocks a))
    (hbody : x ∈ bodyPcs (pairsAt blocks b)) : False := by
  obtain ⟨m, hstrip⟩ := exists_strip h (hlt a ha)
  obtain ⟨n, hstrip'⟩ := exists_strip h (hlt b hb)
  obtain ⟨pair, hpair, hpc⟩ := List.mem_map.mp hslot
  obtain ⟨hpair, hdelayed⟩ := List.mem_filter.mp hpair
  have hne := hseparated a ha b hb pair hpair hdelayed
  rw [hpc] at hne
  rcases hstrip.slot with hnone | ⟨hm, hone⟩
  · rw [hnone] at hslot
    cases hslot
  rw [hone] at hslot
  rw [hstrip'.body] at hbody
  obtain ⟨j, hj, rfl⟩ := List.mem_iterate.mp hbody
  have heq := List.mem_singleton.mp hslot
  obtain ⟨m, rfl⟩ := Nat.exists_eq_succ_of_ne_zero hm.ne'
  cases j with
  | zero => exact hne rfl
  | succ j =>
    rw [Function.iterate_succ_apply', Function.iterate_succ_apply'] at heq
    have hlast := nextPc_injective (aligned_iterate hstrip'.aligned j)
      (aligned_iterate hstrip.aligned m) heq
    obtain rfl := eq_of_body h (hlt b hb) (hlt a ha) hstrip' hstrip (by omega) (Nat.lt_succ_self m)
      hlast
    have hlength : n = m + 1 := by
      rw [← List.length_iterate nextPc (blockAt blocks b).startPc n, ← hstrip'.body, hstrip.body,
        List.length_iterate]
    have := hstrip.place_inj (by omega) (Nat.lt_succ_self m) hlast
    omega

/-- The pairs of a block, in and outside its delay slot. -/
lemma mem_pcsAt {index x : ℕ} :
    x ∈ pcsAt blocks index ↔
      x ∈ bodyPcs (pairsAt blocks index) ∨ x ∈ slotPcs (pairsAt blocks index) := by
  simp only [pcsAt, bodyPcs, slotPcs, List.mem_map, List.mem_filter, Bool.not_eq_true']
  constructor
  · rintro ⟨pair, hpair, rfl⟩
    cases hdelayed : pair.delayedPair
    · exact Or.inl ⟨pair, ⟨hpair, hdelayed⟩, rfl⟩
    · exact Or.inr ⟨pair, ⟨hpair, hdelayed⟩, rfl⟩
  · rintro (⟨pair, ⟨hpair, -⟩, rfl⟩ | ⟨pair, ⟨hpair, -⟩, rfl⟩)
    · exact ⟨pair, hpair, rfl⟩
    · exact ⟨pair, hpair, rfl⟩

lemma pcsAt_nodup (h : AllLaid blocks) (hseparated : Separated blocks indices)
    (hlt : ∀ index ∈ indices, index < blocks.length) {a : ℕ} (ha : a ∈ indices) :
    (pcsAt blocks a).Nodup := by
  obtain ⟨n, hstrip⟩ := exists_strip h (hlt a ha)
  have hperm : (pcsAt blocks a).Perm
      (bodyPcs (pairsAt blocks a) ++ slotPcs (pairsAt blocks a)) := by
    rw [pcsAt, bodyPcs, slotPcs, ← List.map_append]
    refine ((List.filter_append_perm (fun pair => !pair.delayedPair) _).symm.trans ?_).map _
    simp
  refine hperm.nodup_iff.mpr (List.nodup_append'.mpr ⟨hstrip.nodup, ?_, fun x hbody hslot =>
    slot_not_mem_body h hseparated hlt ha ha hslot hbody⟩)
  rcases hstrip.slot with hnone | ⟨-, hone⟩
  · rw [hnone]
    exact List.nodup_nil
  · rw [hone]
    exact List.nodup_singleton _

lemma pcsAt_disjoint (h : AllLaid blocks) (hseparated : Separated blocks indices)
    (hlt : ∀ index ∈ indices, index < blocks.length) {a b : ℕ} (ha : a ∈ indices)
    (hb : b ∈ indices) (hne : a ≠ b) : List.Disjoint (pcsAt blocks a) (pcsAt blocks b) := by
  obtain ⟨m, hstrip⟩ := exists_strip h (hlt a ha)
  obtain ⟨n, hstrip'⟩ := exists_strip h (hlt b hb)
  intro x hx hx'
  rcases mem_pcsAt.mp hx with hbody | hslot
  · rcases mem_pcsAt.mp hx' with hbody' | hslot'
    · rw [hstrip.body] at hbody
      rw [hstrip'.body] at hbody'
      obtain ⟨i, hi, rfl⟩ := List.mem_iterate.mp hbody
      obtain ⟨j, hj, heq⟩ := List.mem_iterate.mp hbody'
      exact hne (eq_of_body h (hlt a ha) (hlt b hb) hstrip hstrip' hi hj heq)
    · exact slot_not_mem_body h hseparated hlt hb ha hslot' hbody
  · rcases mem_pcsAt.mp hx' with hbody' | hslot'
    · exact slot_not_mem_body h hseparated hlt ha hb hslot hbody'
    · -- Two delay slots follow the same pair.
      rcases hstrip.slot with hnone | ⟨hm, hone⟩
      · rw [hnone] at hslot
        cases hslot
      rcases hstrip'.slot with hnone | ⟨hn, hone'⟩
      · rw [hnone] at hslot'
        cases hslot'
      rw [hone] at hslot
      rw [hone'] at hslot'
      have heq := (List.mem_singleton.mp hslot).symm.trans (List.mem_singleton.mp hslot')
      obtain ⟨m, rfl⟩ := Nat.exists_eq_succ_of_ne_zero hm.ne'
      obtain ⟨n, rfl⟩ := Nat.exists_eq_succ_of_ne_zero hn.ne'
      rw [Function.iterate_succ_apply', Function.iterate_succ_apply'] at heq
      exact hne (eq_of_body h (hlt a ha) (hlt b hb) hstrip hstrip' (Nat.lt_succ_self m)
        (Nat.lt_succ_self n) (nextPc_injective (aligned_iterate hstrip.aligned m)
          (aligned_iterate hstrip'.aligned n) heq))

/-- Different blocks visit no pair twice. -/
theorem flatMap_pcsAt_nodup (h : AllLaid blocks) (hseparated : Separated blocks indices)
    (hlt : ∀ index ∈ indices, index < blocks.length) (hnodup : indices.Nodup) :
    (indices.flatMap (pcsAt blocks)).Nodup := by
  refine List.nodup_flatMap.mpr ⟨fun a ha => pcsAt_nodup h hseparated hlt ha, ?_⟩
  refine List.Pairwise.imp_of_mem ?_ hnodup
  exact fun ha hb hne => pcsAt_disjoint h hseparated hlt ha hb hne

end Blocks

/-! ### Paths -/

section Paths

variable {upperTable : UpperTable} {micro : Micro} {resolutions : IndirectResolutionMap}
  {leaders : List ℕ} {blocks : List BasicBlock} {entry : ℕ}

/-- The target of an edge is a block of the build. -/
lemma blockEdge_of_leads (h : Built upperTable micro resolutions leaders blocks)
    {source target : ℕ} (hsource : source < blocks.length) (hleads : Leads blocks source target) :
    BlockEdge blocks source target := by
  obtain ⟨edge, hedge, htarget, -, -⟩ := hleads
  refine mem_edgeTargets.mpr ⟨?_, edge, hedge, htarget⟩
  have hlength := List.Forall₂.length_eq h
  obtain ⟨pending, -, -, hlink, -⟩ := h.at (List.getElem?_eq_getElem (hlength.symm ▸ hsource))
  have hall := forall₂_of_mapM (linkBlock_eq_some hlink).1
  obtain ⟨⟨index, hindex⟩, rfl⟩ := List.get_of_mem hedge
  obtain ⟨htargets, hget⟩ := List.forall₂_iff_get.mp hall
  have hlinked := hget index (htargets.symm ▸ hindex) hindex
  unfold linkEdge at hlinked
  split at hlinked
  · rw [← Option.some.inj hlinked] at htarget
    cases htarget
  · obtain ⟨found, hfound, heq⟩ := Option.map_eq_some_iff.mp hlinked
    rw [← heq] at htarget
    cases htarget
    exact hlength ▸ (List.findIdx?_eq_some_iff_getElem.mp hfound).1

/-- What a path of a graph without a cycle visits. -/
structure Visited (blocks : List BasicBlock) (entry : ℕ) (path : List ℕ) (index : ℕ) : Prop where
  reached : ∀ a ∈ path ++ [index], ReflTransGen (BlockEdge blocks) entry a
  before : ∀ a ∈ path, TransGen (BlockEdge blocks) a index
  nodup : (path ++ [index]).Nodup

lemma visited_of_path (h : Built upperTable micro resolutions leaders blocks)
    (hentry : entry < blocks.length)
    (hacyclic : ∀ a, ReflTransGen (BlockEdge blocks) entry a → ¬ TransGen (BlockEdge blocks) a a)
    {path : List ℕ} {index : ℕ} (hpath : Path blocks entry path index) :
    Visited blocks entry path index := by
  induction hpath with
  | start =>
    exact ⟨fun a ha => by rw [List.mem_singleton.mp ha],
      fun a ha => (List.not_mem_nil ha).elim,
      List.nodup_singleton _⟩
  | @next path index target _ hleads ih =>
    have hindex := ih.reached index (by simp)
    have hedge := blockEdge_of_leads h (lt_of_reached hentry hindex) hleads
    have hbefore : ∀ a ∈ path ++ [index], TransGen (BlockEdge blocks) a target := by
      intro a ha
      rcases List.mem_append.mp ha with ha | ha
      · exact (ih.before a ha).tail hedge
      · rw [List.mem_singleton.mp ha]
        exact .single hedge
    refine ⟨fun a ha => ?_, hbefore, ?_⟩
    · rcases List.mem_append.mp ha with ha | ha
      · exact ih.reached a ha
      · rw [List.mem_singleton.mp ha]
        exact hindex.tail hedge
    · refine List.nodup_append'.mpr ⟨ih.nodup, List.nodup_singleton _, fun a ha ha' => ?_⟩
      rw [List.mem_singleton.mp ha'] at ha
      exact hacyclic target (hindex.tail hedge) (hbefore target ha)

/-- The pairs of a path are a part of those of its blocks. -/
lemma pairSequence_sublist {path : List ℕ} {index : ℕ} {executed rest : List ProgramPair}
    (h : (blockAt blocks index).pairs = executed ++ rest) :
    (pairSequence blocks path executed).Sublist ((path ++ [index]).flatMap (pcsAt blocks)) := by
  rw [pairSequence, List.map_append, List.map_flatMap, List.flatMap_append, List.flatMap_singleton]
  refine (List.Sublist.refl _).append ?_
  rw [pcsAt, pairsAt, h, List.map_append]
  exact List.sublist_append_left _ _

lemma pairs_of_follows {D : Type} {semantics : Semantics D} {fbrst : BitVec 32} {pcs : List ℕ}
    {outcome : Outcome D} (h : FollowsCfg semantics upperTable micro fbrst blocks entry pcs outcome) :
    ∃ path index, Path blocks entry path index ∧
      pcs.Sublist ((path ++ [index]).flatMap (pcsAt blocks)) := by
  cases outcome with
  | running vu delayed =>
    obtain ⟨path, index, executed, rest, hpath, hpairs, -, rfl, -⟩ := h
    exact ⟨path, index, hpath, pairSequence_sublist hpairs⟩
  | finished vu =>
    obtain ⟨path, index, hpath, rfl, -, -⟩ := h
    exact ⟨path, index, hpath, pairSequence_sublist (List.append_nil _).symm⟩

/-- Different addresses of pairs have different indices. -/
lemma pairIndex_inj {pc pc' : ℕ} (h : Aligned pc) (h' : Aligned pc')
    (heq : pairIndex pc = pairIndex pc') : pc = pc' := by
  simp only [Aligned, pairIndex, maxVu1Pairs, pairBytes, vu1ProgSize] at h h' heq
  omega

lemma aligned_of_mem_pcsAt (h : AllLaid blocks) {index x : ℕ} (hindex : index < blocks.length)
    (hx : x ∈ pcsAt blocks index) : Aligned x := by
  obtain ⟨n, hstrip⟩ := exists_strip h hindex
  rcases mem_pcsAt.mp hx with hbody | hslot
  · rw [hstrip.body] at hbody
    obtain ⟨i, -, rfl⟩ := List.mem_iterate.mp hbody
    exact aligned_iterate hstrip.aligned i
  · rcases hstrip.slot with hnone | ⟨-, hone⟩
    · rw [hnone] at hslot
      cases hslot
    · rw [hone] at hslot
      rw [List.mem_singleton.mp hslot]
      exact aligned_iterate hstrip.aligned n

end Paths

/-! ### The bound -/

section Bound

variable {D : Type} {semantics : Semantics D} {upperTable : UpperTable} {micro : Micro}
  {fbrst : BitVec 32}

/-- On no path from the entry does a block start in the delay slot of a block of the
path. -/
def SeparatedPaths (analysis : ProgramAnalysis) : Prop :=
  ∀ entry path index, analysis.entryBlock = some entry → Path analysis.blocks entry path index →
    Separated analysis.blocks (path ++ [index])

lemma entryBlock_eq {startPc : ℕ} {blocks : List BasicBlock} (h : AllLaid blocks) {entry : ℕ}
    (hentry : entry < blocks.length) (hstart : (blockAt blocks entry).startPc = startPc) :
    (summarize startPc blocks).entryBlock = some entry := by
  have hfilter : (List.range blocks.length).filter
      (fun index => (blockAt blocks index).startPc = startPc) ≠ [] :=
    List.ne_nil_of_mem (List.mem_filter.mpr ⟨List.mem_range.mpr hentry, decide_eq_true hstart⟩)
  change ((List.range blocks.length).filter fun index =>
    (blockAt blocks index).startPc = startPc).getLast? = some entry
  rw [List.getLast?_eq_some_getLast hfilter]
  have hmem := List.mem_filter.mp (List.getLast_mem hfilter)
  exact congrArg some (eq_of_startPc h (List.mem_range.mp hmem.1) hentry
    ((of_decide_eq_true hmem.2).trans hstart.symm))

end Bound

/-! ### Two programs -/

/-- No block starts in a delay slot. -/
def noSharedDelay (blocks : List BasicBlock) : Bool :=
  blocks.all fun block => block.pairs.all fun pair =>
    !pair.delayedPair || (pair.plan.pc != 0 && blocks.all (·.startPc != pair.plan.pc))

lemma separated_of_noSharedDelay {blocks : List BasicBlock} (h : noSharedDelay blocks = true)
    (indices : List ℕ) : Separated blocks indices := by
  intro a _ b _ pair hpair hdelayed heq
  have hin : ∀ index, index < blocks.length ∨ blockAt blocks index = { startPc := 0 } := by
    intro index
    rcases Nat.lt_or_ge index blocks.length with hlt | hge
    · exact Or.inl hlt
    · refine Or.inr ?_
      rw [blockAt, List.getD_eq_getElem?_getD, List.getElem?_eq_none hge]
      rfl
  rcases hin a with ha | ha
  · have hblock := List.all_eq_true.mp (List.all_eq_true.mp h _ (blockAt_mem ha)) pair hpair
    rw [hdelayed, Bool.not_true, Bool.false_or, Bool.and_eq_true, bne_iff_ne,
      List.all_eq_true] at hblock
    rcases hin b with hb | hb
    · have := hblock.2 _ (blockAt_mem hb)
      rw [bne_iff_ne] at this
      exact this heq.symm
    · rw [hb] at heq
      exact hblock.1 heq
  · rw [pairsAt, ha] at hpair
    cases hpair

/-- A branch to its own delay slot, and the end of the program two pairs on. -/
def ownDelayMicro : Micro := microOf fun
  | 0 => some 0x40000000#32
  | 5 => some 0x400002ff#32
  | _ => none

end VitaSX2.Vu1
