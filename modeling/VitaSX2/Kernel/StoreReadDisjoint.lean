/-
`ProveDirectTfxStoreReadDisjoint`: no lane is stored twice in the whole grid of
invocations, and no expression below a stored value reads a stored lane.

Then the stores may be evaluated on the memory before the loop and written in
any order.
-/
import Mathlib.Algebra.GroupWithZero.Nat
import Mathlib.Data.List.Perm.Subperm
import VitaSX2.Kernel.LoopKernel

namespace VitaSX2.Kernel

open DisjointWrites

structure DirectTfxContract where
  vertexCount : ℕ
  hasPosition : Bool

structure DirectTfxStoreReadDisjointProof where
  invocationCount : ℕ
  reachableExpressionCount : ℕ
  storeQwordCount : ℕ
  storeLaneCount : ℕ
  expressionMemoryReadLaneCount : ℕ
  compactMemoryReadLaneCount : ℕ
  complete : Bool
deriving DecidableEq, Repr

/-- One mask of four lanes for every qword. -/
abbrev LaneMasks := Qword → BitVec 8

def noLanes : LaneMasks := fun _ => 0

def LaneMasks.mark (masks : LaneMasks) (qword : Qword) (mask : BitVec 8) : LaneMasks :=
  Function.update masks qword (masks qword ||| mask)

/-- `count_lanes`. -/
def countLanes (masks : LaneMasks) : ℕ :=
  ((List.finRange 1024).map fun qword =>
    ((List.range 4).filter fun lane => masks qword &&& 1#8 <<< lane != 0).length).sum

variable (kernel : ParallelLoopKernel) (base : AddressBase)

/-- One turn of the loop over the stores of the grid. -/
def claimStore (masks : LaneMasks) (entry : Invocation × LoopStore) : Except String LaneMasks :=
  let laneMask := entry.2.laneMask
  if laneMask = 0 then .error "direct-TFX output store address is invalid"
  else
    match evaluateAffineQwordRuntimeAddress base entry.2.address entry.1 with
    | none => .error "direct-TFX output store address is invalid"
    | some qword =>
      if masks qword &&& laneMask ≠ 0 then
        .error "direct-TFX output stores alias across invocations"
      else .ok (masks.mark qword laneMask)

/-- The lanes that memory nodes and compact inputs read. -/
structure ReadLanes where
  expression : LaneMasks
  compact : LaneMasks

/-- One turn of the loop over the invocations of a memory node. -/
def readMemory (stores : LaneMasks) (node : ExpressionNode) (reads : ReadLanes)
    (invocation : Invocation) : Except String ReadLanes :=
  match evaluateAffineQwordRuntimeAddress base node.memoryAddress invocation with
  | none => .error "direct-TFX expression memory address is invalid"
  | some qword =>
    if stores qword &&& laneBit node.lane ≠ 0 then
      .error "direct-TFX expression reads an output store lane"
    else .ok { reads with expression := reads.expression.mark qword (laneBit node.lane) }

/-- One turn of the loop over the sources of a compact input. -/
def readCompact (stores : LaneMasks) (node : ExpressionNode) (reads : ReadLanes)
    (source : CompactQwordSource) : Except String ReadLanes :=
  match source.kind with
  | .initialVf =>
    if source.reg = 0 ∨ 32 ≤ source.reg then
      .error "direct-TFX compact VF input register is invalid"
    else .ok reads
  | .memory =>
    match evaluateAffineQwordRuntimeAddress base source.memoryAddress (0, 0) with
    | none => .error "direct-TFX compact memory address is invalid"
    | some qword =>
      if stores qword &&& laneBit node.lane ≠ 0 then
        .error "direct-TFX compact input reads an output store lane"
      else .ok { reads with compact := reads.compact.mark qword (laneBit node.lane) }

/-- The checks of one reachable node. -/
def checkReads (outers children : ℕ) (stores : LaneMasks) (node : ExpressionNode)
    (reads : ReadLanes) : Except String ReadLanes :=
  match node.kind with
  | .memory =>
    if 4 ≤ node.lane then .error "direct-TFX memory input lane is invalid"
    else (grid outers children).foldlM (readMemory base stores node) reads
  | .compactOuterInput =>
    match kernel.compactOuterInputs[node.immediate]? with
    | none => .error "direct-TFX compact input metadata is invalid"
    | some sources =>
      if 4 ≤ node.lane then .error "direct-TFX compact input metadata is invalid"
      else if sources.length < outers then
        .error "direct-TFX compact input does not cover the outer domain"
      else (sources.take outers).foldlM (readCompact base stores node) reads
  | _ => .ok reads

/-- The operands of a node in the order in which they are popped. -/
def ExpressionNode.pendingOperands (node : ExpressionNode) : List NodeId :=
  ((List.finRange 3).reverse.map node.operands).filter fun operand => operand != invalidNode

/-- The loop over the pending nodes, with the top of the stack first. -/
def exploreReads (outers children : ℕ) (stores : LaneMasks) :
    ℕ → List NodeId → List NodeId → ReadLanes → Except String (List NodeId × ReadLanes)
  | _, [], reachable, reads => .ok (reachable, reads)
  | 0, _ :: _, _, _ => .error "out of fuel"
  | fuel + 1, id :: pending, reachable, reads =>
    if id = invalidNode then .error "direct-TFX output references an invalid expression"
    else
      match kernel.expressions[id]? with
      | none => .error "direct-TFX output references an invalid expression"
      | some node =>
        if id ∈ reachable then exploreReads outers children stores fuel pending reachable reads
        else
          match checkReads kernel base outers children stores node reads with
          | .error message => .error message
          | .ok next =>
            exploreReads outers children stores fuel (node.pendingOperands ++ pending)
              (id :: reachable) next

/-- The values of the enabled lanes of all stores, the last one on top. -/
def storedValues : List NodeId :=
  (kernel.stores.flatMap fun store => store.lanes.map store.values).reverse

/-- Every node is expanded once and has three operands. -/
def exploreFuel : ℕ := (storedValues kernel).length + 3 * kernel.expressions.length

def proveDirectTfxStoreReadDisjoint (contract : DirectTfxContract) (outers children : ℕ) :
    Except String DirectTfxStoreReadDisjointProof := do
  let invocationCount := outers * children
  let storeQwordCount := invocationCount * kernel.stores.length
  if outers = 0 ∨ children = 0 ∨ kernel.outerIterationCount < outers ∨
      children ≠ kernel.childIterationCount ∨ invocationCount = 0 ∨
      invocationCount ≠ contract.vertexCount ∨ kernel.stores.isEmpty ∨ !contract.hasPosition ∨
      1024 < storeQwordCount then
    .error "direct-TFX store/read domain is incomplete or wraps"
  let stores ← ((grid outers children).flatMap fun invocation =>
    kernel.stores.map fun store => (invocation, store)).foldlM (claimStore base) noLanes
  let (reachable, reads) ← exploreReads kernel base outers children stores (exploreFuel kernel)
    (storedValues kernel) [] ⟨noLanes, noLanes⟩
  return {
    invocationCount := invocationCount
    reachableExpressionCount := reachable.length
    storeQwordCount := storeQwordCount
    storeLaneCount := countLanes stores
    expressionMemoryReadLaneCount := countLanes reads.expression
    compactMemoryReadLaneCount := countLanes reads.compact
    complete := true }

/-! ### Lanes and masks -/

/-- The lane is marked in the mask of its qword. -/
def LaneMasks.Marked (masks : LaneMasks) (lane : Lane) : Prop :=
  masks lane.1 &&& laneBit lane.2 ≠ 0

lemma and_laneBit (mask : BitVec 8) (lane : Fin 4) :
    mask &&& laneBit lane = 0 ∨ mask &&& laneBit lane = laneBit lane := by
  revert mask lane
  decide +kernel

lemma laneMask_and_laneBit (store : LoopStore) (lane : Fin 4) :
    store.laneMask &&& laneBit lane = store.writeMask &&& laneBit lane := by
  have hall : ∀ (mask : BitVec 8) (lane : Fin 4),
      mask &&& 0x0f#8 &&& laneBit lane = mask &&& laneBit lane := by decide +kernel
  exact hall store.writeMask lane

lemma mem_lanes {store : LoopStore} {lane : Fin 4} :
    lane ∈ store.lanes ↔ store.laneMask &&& laneBit lane ≠ 0 := by
  rw [laneMask_and_laneBit]
  simp [LoopStore.lanes]

lemma marked_mark {masks : LaneMasks} {qword : Qword} {mask : BitVec 8} {lane : Lane} :
    (masks.mark qword mask).Marked lane ↔
      masks.Marked lane ∨ lane.1 = qword ∧ mask &&& laneBit lane.2 ≠ 0 := by
  obtain ⟨other, lane⟩ := lane
  unfold LaneMasks.Marked LaneMasks.mark
  by_cases heq : other = qword
  · subst heq
    have hor : (masks other ||| mask) &&& laneBit lane =
        masks other &&& laneBit lane ||| mask &&& laneBit lane := by
      ext i
      simp [Bool.and_or_distrib_right]
    have hzero : (masks other &&& laneBit lane ||| mask &&& laneBit lane = 0#8) ↔
        masks other &&& laneBit lane = 0#8 ∧ mask &&& laneBit lane = 0#8 := BitVec.or_eq_zero_iff
    rw [Function.update_self, hor]
    refine (not_congr hzero).trans (Classical.not_and_iff_not_or_not.trans ?_)
    exact or_congr_right (iff_and_self.mpr fun _ => rfl)
  · simp [heq]

/-- A mask that has nothing in common with a store marks none of its lanes. -/
lemma not_marked_of_disjoint {masks : LaneMasks} {store : LoopStore} {qword : Qword}
    (h : masks qword &&& store.laneMask = 0) {lane : Fin 4} (hlane : lane ∈ store.lanes) :
    ¬ masks.Marked (qword, lane) := by
  have hbit := (and_laneBit store.laneMask lane).resolve_left (mem_lanes.mp hlane)
  have hzero : masks qword &&& laneBit lane = 0 := by
    rw [← hbit, ← BitVec.and_assoc, h]
    exact BitVec.zero_and
  exact fun hmarked => hmarked hzero

/-! ### Stores -/

section Stores

variable {base : AddressBase}

/-- The lanes a store of an invocation writes. -/
def entryLanes (base : AddressBase) (entry : Invocation × LoopStore) : List Lane :=
  match evaluateAffineQwordRuntimeAddress base entry.2.address entry.1 with
  | none => []
  | some qword => entry.2.lanes.map fun lane => (qword, lane)

lemma claimStore_ok {masks next : LaneMasks} {entry : Invocation × LoopStore}
    (h : claimStore base masks entry = .ok next) :
    (entryLanes base entry).Nodup ∧ (∀ lane ∈ entryLanes base entry, ¬ masks.Marked lane) ∧
      ∀ lane, next.Marked lane ↔ masks.Marked lane ∨ lane ∈ entryLanes base entry := by
  unfold claimStore at h
  dsimp only at h
  split at h
  next => cases h
  next =>
    split at h
    next => cases h
    next qword hqword =>
      split at h
      next => cases h
      next hdisjoint =>
        cases h
        simp only [entryLanes, hqword, List.mem_map]
        refine ⟨?_, ?_, fun lane => ?_⟩
        · refine List.Nodup.map (fun a b hab => ?_) ((List.nodup_finRange 4).filter _)
          simpa using hab
        · rintro _ ⟨lane, hlane, rfl⟩
          exact not_marked_of_disjoint (not_not.mp hdisjoint) hlane
        · rw [marked_mark]
          refine or_congr_right ⟨fun hlane => ?_, ?_⟩
          · exact ⟨lane.2, mem_lanes.mpr hlane.2, Prod.ext hlane.1.symm rfl⟩
          · rintro ⟨own, hown, rfl⟩
            exact ⟨rfl, mem_lanes.mp hown⟩

/-- The stores of the whole grid write distinct lanes, and these are the marked ones. -/
lemma claimStores_ok {entries : List (Invocation × LoopStore)} {masks final : LaneMasks}
    (h : entries.foldlM (claimStore base) masks = .ok final) :
    (entries.flatMap (entryLanes base)).Nodup ∧
      (∀ lane ∈ entries.flatMap (entryLanes base), ¬ masks.Marked lane) ∧
      ∀ lane, final.Marked lane ↔ masks.Marked lane ∨ lane ∈ entries.flatMap (entryLanes base) := by
  induction entries generalizing masks with
  | nil =>
    cases h
    simp
  | cons entry rest ih =>
    rw [List.foldlM_cons] at h
    cases hclaim : claimStore base masks entry with
    | error message =>
      rw [hclaim] at h
      cases h
    | ok next =>
      rw [hclaim] at h
      obtain ⟨hnodup, hfresh, hmarked⟩ := claimStore_ok hclaim
      obtain ⟨hnodup', hfresh', hmarked'⟩ := ih h
      rw [List.flatMap_cons]
      refine ⟨List.nodup_append'.mpr ⟨hnodup, hnodup', fun lane hlane hrest => ?_⟩,
        fun lane hlane => ?_, fun lane => ?_⟩
      · exact hfresh' lane hrest ((hmarked lane).mpr (Or.inr hlane))
      · rcases List.mem_append.mp hlane with hlane | hlane
        · exact hfresh lane hlane
        · exact fun hmasks => hfresh' lane hlane ((hmarked lane).mpr (Or.inl hmasks))
      · rw [hmarked', hmarked, List.mem_append, or_assoc]

end Stores

/-! ### Reads -/

/-- A fold that succeeds has made every step. -/
lemma step_of_foldlM_ok {α β ε : Type} {step : α → β → Except ε α} {items : List β}
    {start final : α} (h : items.foldlM step start = .ok final) {item : β} (hitem : item ∈ items) :
    ∃ before after, step before item = .ok after := by
  induction items generalizing start with
  | nil => cases hitem
  | cons first rest ih =>
    rw [List.foldlM_cons] at h
    cases hstep : step start first with
    | error message =>
      rw [hstep] at h
      cases h
    | ok next =>
      rw [hstep] at h
      rcases List.mem_cons.mp hitem with rfl | hrest
      · exact ⟨start, next, hstep⟩
      · exact ih h hrest

section Reads

variable {kernel : ParallelLoopKernel} {semantics : Semantics} {outers children : ℕ}
  {stores : LaneMasks}

/-- A checked node reads no stored lane in any invocation of the grid. -/
lemma not_marked_of_checkReads {node : ExpressionNode} {reads next : ReadLanes}
    (h : checkReads kernel semantics.base outers children stores node reads = .ok next)
    {invocation : Invocation} (hgrid : invocation ∈ grid outers children) {lane : Lane}
    (hlane : node.readLane kernel semantics invocation = some lane) : ¬ stores.Marked lane := by
  have houter := (mem_grid.mp hgrid).1
  unfold ExpressionNode.readLane at hlane
  unfold checkReads at h
  split at hlane
  next hbound =>
    split at hlane
    next hkind =>
      simp only [hkind, Nat.not_le.mpr hbound, if_false] at h
      obtain ⟨before, after, hstep⟩ := step_of_foldlM_ok h hgrid
      obtain ⟨qword, hqword, rfl⟩ := Option.map_eq_some_iff.mp hlane
      simp only [readMemory, hqword] at hstep
      split at hstep
      next => cases hstep
      next hfree => exact fun hmarked => hfree hmarked
    next hkind =>
      simp only [hkind] at h
      obtain ⟨source, hsource, hlane⟩ := Option.bind_eq_some_iff.mp hlane
      obtain ⟨sources, hsources, hget⟩ := Option.bind_eq_some_iff.mp hsource
      simp only [hsources, Nat.not_le.mpr hbound, if_false] at h
      split at h
      next => cases h
      next =>
        have hmem : source ∈ sources.take outers :=
          List.mem_iff_getElem?.mpr ⟨invocation.1, by rw [List.getElem?_take_of_lt houter, hget]⟩
        obtain ⟨before, after, hstep⟩ := step_of_foldlM_ok h hmem
        split at hlane
        next => cases hlane
        next hsourceKind =>
          obtain ⟨qword, hqword, rfl⟩ := Option.map_eq_some_iff.mp hlane
          simp only [readCompact, hsourceKind, hqword] at hstep
          split at hstep
          next => cases hstep
          next hfree => exact fun hmarked => hfree hmarked
    next => cases hlane
  next => cases hlane

/-- The node is in the table, its operands are in the set, and its reads are checked. -/
def Explored (kernel : ParallelLoopKernel) (base : AddressBase) (outers children : ℕ)
    (stores : LaneMasks) (reachable : List NodeId) (id : NodeId) : Prop :=
  ∃ node, kernel.expressions[id]? = some node ∧
    (∀ operand, node.operands operand ≠ invalidNode → node.operands operand ∈ reachable) ∧
    ∃ reads next, checkReads kernel base outers children stores node reads = .ok next

lemma mem_pendingOperands {node : ExpressionNode} {operand : Fin 3}
    (h : node.operands operand ≠ invalidNode) : node.operands operand ∈ node.pendingOperands := by
  simp only [ExpressionNode.pendingOperands, List.mem_filter, List.mem_map, List.mem_reverse]
  exact ⟨⟨operand, List.mem_finRange operand, rfl⟩, by simpa using h⟩

lemma exploreReads_ok {base : AddressBase} {fuel : ℕ} {pending visited reachable : List NodeId}
    {reads final : ReadLanes}
    (h : exploreReads kernel base outers children stores fuel pending visited reads =
      .ok (reachable, final)) :
    (∀ id ∈ visited, id ∈ reachable) ∧ (∀ id ∈ pending, id ∈ reachable) ∧
      ∀ id ∈ reachable, id ∈ visited ∨
        Explored kernel base outers children stores reachable id := by
  induction fuel generalizing pending visited reads with
  | zero =>
    cases pending with
    | nil =>
      cases h
      exact ⟨fun _ hid => hid, by simp, fun _ hid => Or.inl hid⟩
    | cons id pending => cases h
  | succ fuel ih =>
    cases pending with
    | nil =>
      cases h
      exact ⟨fun _ hid => hid, by simp, fun _ hid => Or.inl hid⟩
    | cons id pending =>
      unfold exploreReads at h
      split at h
      next => cases h
      next =>
        split at h
        next => cases h
        next node hnode =>
          split at h
          next hvisited =>
            obtain ⟨hold, hpending, hexplored⟩ := ih h
            exact ⟨hold, List.forall_mem_cons.mpr ⟨hold id hvisited, hpending⟩, hexplored⟩
          next =>
            split at h
            next => cases h
            next next hcheck =>
              obtain ⟨hold, hpending, hexplored⟩ := ih h
              have hid : id ∈ reachable := hold id List.mem_cons_self
              refine ⟨fun other hother => hold other (List.mem_cons_of_mem _ hother),
                List.forall_mem_cons.mpr ⟨hid, fun other hother =>
                  hpending other (List.mem_append_right _ hother)⟩, fun other hother => ?_⟩
              rcases hexplored other hother with hvisited | hdone
              · rcases List.mem_cons.mp hvisited with rfl | hvisited
                · exact Or.inr ⟨node, hnode, fun operand hoperand =>
                    hpending _ (List.mem_append_left _ (mem_pendingOperands hoperand)),
                    reads, next, hcheck⟩
                · exact Or.inl hvisited
              · exact Or.inr hdone

/-- Explored nodes have the same value on memories that agree off the stored lanes. -/
lemma evaluate_congr {reachable : List NodeId}
    (hexplored : ∀ id ∈ reachable,
      Explored kernel semantics.base outers children stores reachable id)
    {invocation : Invocation} (hgrid : invocation ∈ grid outers children) {left right : VuMemory}
    (hagree : ∀ lane, ¬ stores.Marked lane → left lane = right lane) (depth : ℕ) {id : NodeId}
    (hid : id ∈ reachable) :
    evaluate kernel semantics left invocation depth id =
      evaluate kernel semantics right invocation depth id := by
  induction depth generalizing id with
  | zero => rfl
  | succ depth ih =>
    obtain ⟨node, hnode, hoperands, reads, next, hcheck⟩ := hexplored id hid
    rw [evaluate, evaluate]
    simp only [hnode]
    cases hread : node.readLane kernel semantics invocation with
    | some lane => exact hagree lane (not_marked_of_checkReads hcheck hgrid hread)
    | none =>
      have hvalues : ∀ operand,
          (if node.operands operand = invalidNode then none
            else some (evaluate kernel semantics left invocation depth (node.operands operand))) =
          if node.operands operand = invalidNode then none
            else some (evaluate kernel semantics right invocation depth
              (node.operands operand)) := by
        intro operand
        by_cases hoperand : node.operands operand = invalidNode
        · rw [if_pos hoperand, if_pos hoperand]
        · rw [if_neg hoperand, if_neg hoperand, ih (hoperands operand hoperand)]
      simp only [hvalues]

end Reads

/-! ### The worklist of reads ends -/

lemma length_pendingOperands_le (node : ExpressionNode) : node.pendingOperands.length ≤ 3 :=
  List.length_filter_le _ _

/-- Pending nodes, and three operands for every node that is not yet expanded. -/
def exploreMeasure (pending visited : List NodeId) : ℕ :=
  pending.length + 3 * (kernel.expressions.length - visited.length)

lemma length_lt_of_notMem {limit id : ℕ} {visited : List ℕ} (hnodup : visited.Nodup)
    (hvisited : ∀ other ∈ visited, other < limit) (hid : id < limit) (hfresh : id ∉ visited) :
    visited.length < limit := by
  have hbound : ∀ other ∈ id :: visited, other < limit :=
    List.forall_mem_cons.mpr ⟨hid, hvisited⟩
  have hsubset : id :: visited ⊆ List.range limit := fun other hother =>
    List.mem_range.mpr (hbound other hother)
  have hle := (List.subperm_of_subset (List.nodup_cons.mpr ⟨hfresh, hnodup⟩) hsubset).length_le
  rw [List.length_cons, List.length_range] at hle
  exact hle

/-- With the fuel of the measure, more fuel changes nothing. -/
lemma exploreReads_fuel {outers children : ℕ} {stores : LaneMasks} {fuel : ℕ}
    {pending visited : List NodeId} {reads : ReadLanes} (hnodup : visited.Nodup)
    (hvisited : ∀ id ∈ visited, id < kernel.expressions.length)
    (hfuel : exploreMeasure kernel pending visited ≤ fuel) (more : ℕ) :
    exploreReads kernel base outers children stores (fuel + more) pending visited reads =
      exploreReads kernel base outers children stores fuel pending visited reads := by
  induction fuel generalizing pending visited reads with
  | zero =>
    cases pending with
    | nil => cases more <;> rfl
    | cons id pending =>
      rw [exploreMeasure, List.length_cons] at hfuel
      omega
  | succ fuel ih =>
    cases pending with
    | nil => cases more <;> rfl
    | cons id pending =>
      rw [exploreMeasure, List.length_cons] at hfuel
      rw [Nat.add_right_comm, exploreReads, exploreReads]
      by_cases hinvalid : id = invalidNode
      · rw [if_pos hinvalid, if_pos hinvalid]
      rw [if_neg hinvalid, if_neg hinvalid]
      cases hnode : kernel.expressions[id]? with
      | none => rfl
      | some node =>
        have hid : id < kernel.expressions.length := (List.getElem?_eq_some_iff.mp hnode).1
        by_cases hold : id ∈ visited
        · simp only [if_pos hold]
          refine ih hnodup hvisited ?_
          rw [exploreMeasure]
          omega
        · simp only [if_neg hold]
          cases checkReads kernel base outers children stores node reads with
          | error message => rfl
          | ok next =>
            -- the node leaves the measure with its three operands
            have hlt := length_lt_of_notMem hnodup hvisited hid hold
            have hlength := length_pendingOperands_le node
            refine ih (List.nodup_cons.mpr ⟨hold, hnodup⟩)
              (List.forall_mem_cons.mpr ⟨hid, hvisited⟩) ?_
            rw [exploreMeasure, List.length_append, List.length_cons]
            omega

/-- `exploreFuel` is enough for the whole exploration. -/
theorem exploreReads_exploreFuel (outers children : ℕ) (stores : LaneMasks) (more : ℕ) :
    exploreReads kernel base outers children stores (exploreFuel kernel + more)
        (storedValues kernel) [] ⟨noLanes, noLanes⟩ =
      exploreReads kernel base outers children stores (exploreFuel kernel)
        (storedValues kernel) [] ⟨noLanes, noLanes⟩ :=
  exploreReads_fuel kernel base List.nodup_nil (by simp) (by simp [exploreMeasure, exploreFuel]) more

/-! ### Writing in any order -/

lemma bind_eq_ok {ε α β : Type} {first : Except ε α} {next : α → Except ε β} {result : β}
    (h : first >>= next = .ok result) : ∃ value, first = .ok value ∧ next value = .ok result := by
  cases first with
  | error message => cases h
  | ok value => exact ⟨value, rfl, h⟩

section Writes

variable {kernel} {semantics : Semantics} {depth : ℕ}

lemma map_fst_writes (memory : VuMemory) (invocation : Invocation) (store : LoopStore) :
    (store.writes kernel semantics depth memory invocation).map Prod.fst =
      entryLanes semantics.base (invocation, store) := by
  unfold LoopStore.writes entryLanes
  cases evaluateAffineQwordRuntimeAddress semantics.base store.address invocation with
  | none => rfl
  | some qword => simp

lemma map_fst_invocationWrites (memory : VuMemory) (invocation : Invocation) :
    (invocationWrites kernel semantics depth memory invocation).map Prod.fst =
      (kernel.stores.map fun store => (invocation, store)).flatMap (entryLanes semantics.base) := by
  rw [invocationWrites, List.map_flatMap, List.flatMap_map]
  exact List.flatMap_congr fun store _ => map_fst_writes memory invocation store

/-- The lanes that the invocations write are the lanes of the claimed stores. -/
lemma map_fst_flatMap_invocationWrites (memory : VuMemory) (invocations : List Invocation) :
    (invocations.flatMap (invocationWrites kernel semantics depth memory)).map Prod.fst =
      (invocations.flatMap fun invocation =>
        kernel.stores.map fun store => (invocation, store)).flatMap (entryLanes semantics.base) := by
  rw [List.map_flatMap, List.flatMap_assoc]
  exact List.flatMap_congr fun invocation _ => map_fst_invocationWrites memory invocation

lemma mem_storedValues {store : LoopStore} (hstore : store ∈ kernel.stores) {lane : Fin 4}
    (hlane : lane ∈ store.lanes) : store.values lane ∈ storedValues kernel :=
  List.mem_reverse.mpr
    (List.mem_flatMap.mpr ⟨store, hstore, List.mem_map_of_mem hlane⟩)

/-- What a successful proof has established. -/
lemma proveDirectTfxStoreReadDisjoint_ok {contract : DirectTfxContract} {outers children : ℕ}
    {proof : DirectTfxStoreReadDisjointProof}
    (h : proveDirectTfxStoreReadDisjoint kernel base contract outers children = .ok proof) :
    ∃ stores reachable reads,
      ((grid outers children).flatMap fun invocation =>
        kernel.stores.map fun store => (invocation, store)).foldlM (claimStore base) noLanes =
          .ok stores ∧
      exploreReads kernel base outers children stores (exploreFuel kernel) (storedValues kernel) []
        ⟨noLanes, noLanes⟩ = .ok (reachable, reads) := by
  unfold proveDirectTfxStoreReadDisjoint at h
  dsimp only at h
  split at h
  next => cases h
  next =>
    obtain ⟨stores, hstores, h⟩ := bind_eq_ok h
    obtain ⟨⟨reachable, reads⟩, hreads, -⟩ := bind_eq_ok h
    exact ⟨stores, reachable, reads, hstores, hreads⟩

/-- An accepted kernel may evaluate the stores of all invocations on the memory
before the loop and write them in any order. -/
theorem applyWrites_eq_runSequential {contract : DirectTfxContract} {outers children : ℕ}
    {proof : DirectTfxStoreReadDisjointProof}
    (h : proveDirectTfxStoreReadDisjoint kernel semantics.base contract outers children = .ok proof)
    (depth : ℕ) (memory : VuMemory) {writes : List (Lane × BitVec 32)}
    (hwrites : writes.Perm
      ((grid outers children).flatMap (invocationWrites kernel semantics depth memory))) :
    applyWrites writes memory =
      runSequential (invocationWrites kernel semantics depth) (grid outers children) memory := by
  obtain ⟨stores, reachable, reads, hstores, hreads⟩ := proveDirectTfxStoreReadDisjoint_ok semantics.base h
  obtain ⟨hnodup, -, hmarked⟩ := claimStores_ok hstores
  obtain ⟨-, hstored, hexplored⟩ := exploreReads_ok hreads
  have hunmarked : ∀ lane, ¬ noLanes.Marked lane := fun lane hlane => hlane BitVec.zero_and
  have hkeys := @map_fst_flatMap_invocationWrites kernel semantics depth memory
    (grid outers children)
  have hdone : ∀ id ∈ reachable,
      Explored kernel semantics.base outers children stores reachable id :=
    fun id hid => (hexplored id hid).resolve_left List.not_mem_nil
  rw [runSequential_eq fun invocation hgrid current hagree => ?_]
  · refine applyWrites_perm hwrites ?_ memory
    rw [(hwrites.map Prod.fst).nodup_iff, hkeys]
    exact hnodup
  · have hlanes : ∀ lane, ¬ stores.Marked lane → current lane = memory lane := fun lane hlane =>
      hagree lane fun hmem => hlane ((hmarked lane).mpr (Or.inr (hkeys ▸ hmem)))
    refine List.flatMap_congr fun store hstore => ?_
    unfold LoopStore.writes
    split
    next => rfl
    next qword hqword =>
      refine List.map_congr_left fun lane hlane => ?_
      have hid : store.values lane ∈ reachable := hstored _ (mem_storedValues hstore hlane)
      rw [evaluate_congr hdone hgrid hlanes depth hid]

/-- Copies the first lane of the qwords from 0 on to all lanes of the qwords
from 512 on, and its negation to the ones from 516 on. -/
def copyKernel : ParallelLoopKernel where
  outerIterationCount := 2
  childIterationCount := 2
  expressions :=
    [⟨.constantFloat, 0, 0, fun _ => 0, ⟨0, false, 0, 0, 0⟩, 0⟩,
      ⟨.memory, 0, 0, fun _ => 0, ⟨0, true, 1, 0, 2⟩, 0⟩,
      ⟨.negate, 0, 0, fun operand => if operand = 0 then 1 else 0, ⟨0, false, 0, 0, 0⟩, 0⟩]
  stores :=
    [⟨⟨0, true, 1, 512, 2⟩, fun _ => 1, 0x0f#8⟩, ⟨⟨0, true, 1, 516, 2⟩, fun _ => 2, 0x0f#8⟩]
  compactOuterInputs := []

/-- The copying kernel with zero registers, and negation as the only operation. -/
def copySemantics : Semantics where
  base := ⟨fun _ => 0, 0, 0⟩
  initialVf := fun _ _ => 0
  apply := fun _ _ operands => ((operands 0).getD 0) ^^^ 0x80000000#32

theorem applyWrites_eq_runSequential_copy :
    applyWrites ((grid 2 2).flatMap
        (invocationWrites copyKernel copySemantics 2 fun _ => 0x3f800000#32)).reverse
        (fun _ => 0x3f800000#32) =
      runSequential (invocationWrites copyKernel copySemantics 2) (grid 2 2)
        (fun _ => 0x3f800000#32) := by
  have hproof : ∃ proof, proveDirectTfxStoreReadDisjoint copyKernel copySemantics.base ⟨4, true⟩
      2 2 = .ok proof := ⟨_, rfl⟩
  obtain ⟨proof, hproof⟩ := hproof
  exact applyWrites_eq_runSequential hproof 2 _ (List.reverse_perm _)

end Writes

end VitaSX2.Kernel
