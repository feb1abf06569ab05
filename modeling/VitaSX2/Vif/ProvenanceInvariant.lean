/-
The invariant of `PersistentVifMemoryProvenance` and its preservation.

Moving the token of one qword changes the counts of the two owners by one.  An
owner that is left without a qword stays active until it is retired, so the
invariant names the owners that are pending.
-/
import VitaSX2.Lib.TokenCount
import VitaSX2.Vif.Provenance
import Mathlib.Data.Set.Insert

namespace VitaSX2.Vif

open TokenCount

abbrev QwordBytes := Fin 16 → Byte

/-- The bytes a span has for a qword. -/
def InputRing.spanBytes (ring : InputRing) (span : VifUnpackSpan) (qword : QwordAddress) :
    QwordBytes := fun index =>
  (ring.slots span.payload.slot).bytes (span.payload.offset + span.vectorOf qword * 16 + index.val)

lemma spanBytes_congr {ring ring' : InputRing} (span : VifUnpackSpan) (qword : QwordAddress)
    (h : ∀ slot, (ring'.slots slot).bytes = (ring.slots slot).bytes) :
    ring'.spanBytes span qword = ring.spanBytes span qword := by
  funext index
  rw [InputRing.spanBytes, InputRing.spanBytes, h]

/-- The slot in which an owner holds a reference. -/
def Owner.heldSlot (owner : Owner) : Option ℕ :=
  if owner.active then some owner.span.payload.slot else none

/-- The references the object holds in a slot. -/
def Provenance.held (provenance : Provenance) (slot : ℕ) : ℕ :=
  tokenCount (fun index => (provenance.owners index).heldSlot) (some slot)

/-- The counts and the free list are exact, except that pending owners may be
active without a qword. -/
structure Counted (provenance : Provenance) (pending : Set OwnerIndex) : Prop where
  owned : ∀ index,
    (provenance.owners index).ownedQwordCount = tokenCount provenance.qwordOwners (some index)
  total : provenance.ownedQwordCount =
    tokenCount (fun qword => (provenance.qwordOwners qword).isSome) true
  actives : provenance.activeOwnerCount =
    tokenCount (fun index => (provenance.owners index).active) true
  active_of_owned : ∀ index, (provenance.owners index).ownedQwordCount ≠ 0 →
    (provenance.owners index).active = true
  owned_of_active : ∀ index, (provenance.owners index).active = true →
    (provenance.owners index).ownedQwordCount ≠ 0 ∨ index ∈ pending
  nodup : provenance.freeOwners.Nodup
  mem_free : ∀ index, index ∈ provenance.freeOwners ↔ (provenance.owners index).active = false

/-- The counts are exact, the ring is active, every owner's payload is live and
covers its span, and every qword has the latest bytes. -/
structure Tracked (provenance : Provenance) (ring : InputRing) (outside : ℕ → ℕ)
    (latest : QwordAddress → Option QwordBytes) (pending : Set OwnerIndex) : Prop
    extends Counted provenance pending where
  ringActive : ring.active = true
  live : ∀ index, (provenance.owners index).active = true →
    Live ring (provenance.owners index).span.payload
  covered : ∀ index, (provenance.owners index).active = true →
    (provenance.owners index).span.vectorCount * 16 ≤ (provenance.owners index).span.payload.size
  within : ∀ qword index, provenance.qwordOwners qword = some index →
    (provenance.owners index).span.vectorOf qword < (provenance.owners index).span.vectorCount
  references : ∀ slot, (ring.slots slot).references = outside slot + provenance.held slot
  latest_eq : ∀ qword, latest qword = (provenance.qwordOwners qword).map fun index =>
    ring.spanBytes (provenance.owners index).span qword

section

variable {provenance next : Provenance} {ring : InputRing} {outside : ℕ → ℕ}
  {latest : QwordAddress → Option QwordBytes} {pending : Set OwnerIndex}

/-- An owner of a qword is active. -/
lemma Counted.active_of_token (h : Counted provenance pending) {qword : QwordAddress}
    {index : OwnerIndex} (htoken : provenance.qwordOwners qword = some index) :
    (provenance.owners index).active = true := by
  have hpos : 0 < tokenCount provenance.qwordOwners (some index) := tokenCount_pos.mpr ⟨qword, htoken⟩
  refine h.active_of_owned index ?_
  rw [h.owned]
  exact hpos.ne'

lemma Counted.count_ne_zero_of_token (h : Counted provenance pending) {qword : QwordAddress}
    {index : OwnerIndex} (htoken : provenance.qwordOwners qword = some index) :
    (provenance.owners index).ownedQwordCount ≠ 0 := by
  rw [h.owned]
  exact (tokenCount_pos.mpr ⟨qword, htoken⟩).ne'

/-- No token is faulty, so the validation loops find nothing. -/
lemma Counted.not_faulty (h : Counted provenance pending) (qword : QwordAddress) :
    provenance.faulty (provenance.qwordOwners qword) = false := by
  cases htoken : provenance.qwordOwners qword with
  | none => rfl
  | some index =>
    have hcount := h.count_ne_zero_of_token htoken
    simp [Provenance.faulty, h.active_of_token htoken, hcount]

lemma Tracked.shrink {pending' : Set OwnerIndex}
    (h : Tracked provenance ring outside latest pending)
    (hpending : ∀ index ∈ pending, (provenance.owners index).active = true →
      (provenance.owners index).ownedQwordCount ≠ 0 ∨ index ∈ pending') :
    Tracked provenance ring outside latest pending' :=
  { h with
    owned_of_active := fun index hactive => by
      rcases h.owned_of_active index hactive with hcount | hmem
      · exact Or.inl hcount
      · exact hpending index hmem hactive }

/-- An active owner holds a counted reference. -/
lemma Tracked.references_ne_zero (h : Tracked provenance ring outside latest pending)
    {index : OwnerIndex} (hactive : (provenance.owners index).active = true) :
    (ring.slots (provenance.owners index).span.payload.slot).references ≠ 0 := by
  have hheld : 0 < provenance.held (provenance.owners index).span.payload.slot :=
    tokenCount_pos.mpr ⟨index, by simp [Owner.heldSlot, hactive]⟩
  rw [h.references]
  omega

/-! ### Moving a token -/

/-- Only the token of one qword and the counts that depend on it have changed. -/
structure Recounted (provenance next : Provenance) (qword : QwordAddress)
    (token : Option OwnerIndex) : Prop where
  tokens : next.qwordOwners = Function.update provenance.qwordOwners qword token
  span : ∀ index, (next.owners index).span = (provenance.owners index).span
  active : ∀ index, (next.owners index).active = (provenance.owners index).active
  counts : ∀ index, (next.owners index).ownedQwordCount +
      (if provenance.qwordOwners qword = some index then 1 else 0) =
    (provenance.owners index).ownedQwordCount + if token = some index then 1 else 0
  total : next.ownedQwordCount + (if (provenance.qwordOwners qword).isSome = true then 1 else 0) =
    provenance.ownedQwordCount + if token.isSome = true then 1 else 0
  free : next.freeOwners = provenance.freeOwners
  actives : next.activeOwnerCount = provenance.activeOwnerCount

lemma Recounted.held {qword : QwordAddress} {token : Option OwnerIndex}
    (hnext : Recounted provenance next qword token) (slot : ℕ) :
    next.held slot = provenance.held slot := by
  unfold Provenance.held Owner.heldSlot
  simp only [hnext.span, hnext.active]

/-- The counts follow the token; the old owner may be left without a qword. -/
lemma Counted.recount {qword : QwordAddress} {token : Option OwnerIndex}
    (h : Counted provenance pending) (hnext : Recounted provenance next qword token)
    (htoken : ∀ index, token = some index → (provenance.owners index).active = true) :
    Counted next (pending ∪ {index | provenance.qwordOwners qword = some index}) := by
  refine ⟨fun index => ?_, ?_, ?_, fun index hcount => ?_, fun index hactive => ?_, ?_,
    fun index => ?_⟩
  · have hcount := tokenCount_update provenance.qwordOwners qword token (some index)
    have hold := h.owned index
    have hcounts := hnext.counts index
    rw [hnext.tokens]
    omega
  · have hsome : (fun other => (next.qwordOwners other).isSome) =
        Function.update (fun other => (provenance.qwordOwners other).isSome) qword token.isSome := by
      rw [hnext.tokens]
      funext other
      by_cases hother : other = qword
      · rw [hother, Function.update_self, Function.update_self]
      · rw [Function.update_of_ne hother, Function.update_of_ne hother]
    have hcount := tokenCount_update (fun other => (provenance.qwordOwners other).isSome) qword
      token.isSome true
    have hold := h.total
    have htotal := hnext.total
    rw [hsome]
    omega
  · simp only [hnext.active, hnext.actives]
    exact h.actives
  · rw [hnext.active]
    by_cases hnew : token = some index
    · exact htoken index hnew
    · refine h.active_of_owned index fun hzero => hcount ?_
      have hcounts := hnext.counts index
      rw [if_neg hnew] at hcounts
      omega
  · rw [hnext.active] at hactive
    by_cases hold : provenance.qwordOwners qword = some index
    · exact Or.inr (Or.inr hold)
    · have hcounts := hnext.counts index
      rw [if_neg hold] at hcounts
      refine (h.owned_of_active index hactive).imp (fun hcount => ?_) Or.inl
      omega
  · rw [hnext.free]
    exact h.nodup
  · rw [hnext.free, hnext.active]
    exact h.mem_free index

lemma Tracked.recount {qword : QwordAddress} {token : Option OwnerIndex}
    (h : Tracked provenance ring outside latest pending)
    (hnext : Recounted provenance next qword token)
    (htoken : ∀ index, token = some index → (provenance.owners index).active = true ∧
      (provenance.owners index).span.vectorOf qword < (provenance.owners index).span.vectorCount) :
    Tracked next ring outside
      (Function.update latest qword
        (token.map fun index => ring.spanBytes (provenance.owners index).span qword))
      (pending ∪ {index | provenance.qwordOwners qword = some index}) where
  toCounted := h.toCounted.recount hnext fun index hindex => (htoken index hindex).1
  ringActive := h.ringActive
  live index hactive := by
    rw [hnext.active] at hactive
    rw [hnext.span]
    exact h.live index hactive
  covered index hactive := by
    rw [hnext.active] at hactive
    rw [hnext.span]
    exact h.covered index hactive
  within other index hother := by
    rw [hnext.span]
    rw [hnext.tokens] at hother
    by_cases heq : other = qword
    · subst heq
      rw [Function.update_self] at hother
      exact (htoken index hother).2
    · rw [Function.update_of_ne heq] at hother
      exact h.within other index hother
  references slot := by
    rw [hnext.held]
    exact h.references slot
  latest_eq other := by
    rw [hnext.tokens]
    simp only [hnext.span]
    by_cases heq : other = qword
    · subst heq
      rw [Function.update_self, Function.update_self]
    · rw [Function.update_of_ne heq, Function.update_of_ne heq]
      exact h.latest_eq other

/-! ### Retiring an owner -/

lemma invalidateOwner_of_empty {index : OwnerIndex}
    (hactive : (provenance.owners index).active = true)
    (hcount : (provenance.owners index).ownedQwordCount = 0) :
    invalidateOwner index provenance ring =
      (provenance.retire index,
        releaseRawVifPayload ring (provenance.owners index).span.payload) := by
  simp [invalidateOwner, hactive, hcount]

lemma owners_retire (index other : OwnerIndex) :
    (provenance.retire index).owners other = if other = index then {} else provenance.owners other := by
  by_cases h : other = index
  · simp [h, Provenance.retire, Provenance.setOwner]
  · simp [h, Provenance.retire, Provenance.setOwner]

/-- The table of a field of the owners after an owner is reset. -/
lemma field_retire {α : Type*} (field : Owner → α) (index : OwnerIndex) :
    (fun other => field ((provenance.retire index).owners other)) =
      Function.update (fun other => field (provenance.owners other)) index (field {}) := by
  funext other
  rw [owners_retire]
  by_cases h : other = index
  · rw [if_pos h, h, Function.update_self]
  · rw [if_neg h, Function.update_of_ne h]

/-- An active owner without a qword goes to the free list. -/
lemma Counted.retire {index : OwnerIndex} (h : Counted provenance (insert index pending))
    (hactive : (provenance.owners index).active = true)
    (hempty : tokenCount provenance.qwordOwners (some index) = 0) :
    Counted (provenance.retire index) pending := by
  refine ⟨fun other => ?_, h.total, ?_, fun other => ?_, fun other => ?_, ?_, fun other => ?_⟩
  · rw [owners_retire]
    split
    next heq =>
      subst heq
      exact hempty.symm
    next => exact h.owned other
  · have hcount := tokenCount_update (fun other => (provenance.owners other).active) index false true
    rw [if_pos hactive, if_neg Bool.false_ne_true, ← h.actives] at hcount
    rw [field_retire Owner.active]
    exact (Nat.eq_sub_of_add_eq hcount).symm
  · rw [owners_retire]
    split
    next => exact fun hcount => absurd rfl hcount
    next => exact h.active_of_owned other
  · rw [owners_retire]
    split
    next => exact fun hfalse => absurd hfalse Bool.false_ne_true
    next hne =>
      intro hother
      refine (h.owned_of_active other hother).imp_right fun hmem => ?_
      exact (Set.mem_insert_iff.mp hmem).resolve_left hne
  · refine List.nodup_cons.mpr ⟨fun hmem => ?_, h.nodup⟩
    rw [h.mem_free, hactive] at hmem
    cases hmem
  · rw [owners_retire]
    have hmem : other ∈ (provenance.retire index).freeOwners ↔
        other = index ∨ other ∈ provenance.freeOwners := List.mem_cons
    rw [hmem, h.mem_free]
    split
    next heq => simp [heq]
    next hne => simp [hne]

lemma Tracked.retire {index : OwnerIndex}
    (h : Tracked provenance ring outside latest (insert index pending))
    (hactive : (provenance.owners index).active = true)
    (hcount : (provenance.owners index).ownedQwordCount = 0) :
    Tracked (invalidateOwner index provenance ring).1 (invalidateOwner index provenance ring).2
      outside latest pending := by
  have hempty : tokenCount provenance.qwordOwners (some index) = 0 := h.owned index ▸ hcount
  have hlive := h.live index hactive
  have hne : ∀ {qword other}, provenance.qwordOwners qword = some other → other ≠ index := by
    rintro qword other htoken rfl
    exact h.count_ne_zero_of_token htoken hcount
  rw [invalidateOwner_of_empty hactive hcount,
    release_of_live hlive (h.references_ne_zero hactive)]
  refine ⟨h.toCounted.retire hactive hempty, h.ringActive, fun other => ?_, fun other => ?_,
    fun qword other htoken => ?_, fun slot => ?_, fun qword => ?_⟩
  · rw [owners_retire]
    split
    next => exact fun hfalse => absurd hfalse Bool.false_ne_true
    next => exact fun hother => (h.live other hother).setReferences
  · rw [owners_retire]
    split
    next => exact fun hfalse => absurd hfalse Bool.false_ne_true
    next => exact h.covered other
  · rw [owners_retire, if_neg (hne htoken)]
    exact h.within qword other htoken
  · have hheld := tokenCount_update (fun other => (provenance.owners other).heldSlot) index none
      (some slot)
    have hself : (provenance.owners index).heldSlot =
        some (provenance.owners index).span.payload.slot := by
      simp [Owner.heldSlot, hactive]
    rw [hself, if_neg (Option.some_ne_none slot).symm] at hheld
    have hnext : (provenance.retire index).held slot =
        tokenCount (Function.update (fun other => (provenance.owners other).heldSlot) index none)
          (some slot) := by
      rw [Provenance.held, field_retire Owner.heldSlot]
      rfl
    have hold := h.references slot
    rw [references_setReferences, hnext]
    rw [Provenance.held] at hold
    by_cases hslot : slot = (provenance.owners index).span.payload.slot
    · subst hslot
      rw [if_pos rfl] at hheld ⊢
      omega
    · rw [if_neg (fun heq => hslot (Option.some.inj heq).symm)] at hheld
      rw [if_neg hslot]
      omega
  · rw [h.latest_eq]
    refine Option.map_congr fun other htoken => ?_
    rw [owners_retire, if_neg (hne htoken)]
    exact (spanBytes_congr _ _ bytes_setReferences).symm

/-- An owner that has just lost a qword is retired if it was the last one. -/
lemma Tracked.invalidateIfEmptied {index : OwnerIndex}
    (h : Tracked provenance ring outside latest (insert index pending))
    (hactive : (provenance.owners index).active = true) :
    Tracked (invalidateIfEmptied index provenance ring).1
      (invalidateIfEmptied index provenance ring).2 outside latest pending := by
  unfold Vif.invalidateIfEmptied
  split
  next hcount => exact h.retire hactive hcount
  next hcount =>
    refine h.shrink fun other hmem _ => ?_
    rcases Set.mem_insert_iff.mp hmem with rfl | hother
    · exact Or.inl hcount
    · exact Or.inr hother

/-- Only the emptied owner changes, and no byte of the ring does. -/
lemma invalidateIfEmptied_frame {index other : OwnerIndex} (hne : other ≠ index)
    (provenance : Provenance) (ring : InputRing) :
    (invalidateIfEmptied index provenance ring).1.owners other = provenance.owners other ∧
      ∀ slot, ((invalidateIfEmptied index provenance ring).2.slots slot).bytes =
        (ring.slots slot).bytes := by
  unfold invalidateIfEmptied
  split
  next hcount =>
    unfold invalidateOwner
    dsimp only
    split
    next => exact ⟨rfl, fun _ => rfl⟩
    next =>
      rw [if_neg (not_not.mpr hcount), owners_retire, if_neg hne]
      exact ⟨rfl, bytes_release⟩
  next => exact ⟨rfl, fun _ => rfl⟩

/-! ### The three moves -/

lemma recounted_takeFree (index : OwnerIndex) {qword : QwordAddress}
    (htoken : provenance.qwordOwners qword = none) :
    Recounted provenance (provenance.takeFree index qword) qword (some index) := by
  unfold Provenance.takeFree Provenance.setOwner Provenance.setToken
  refine ⟨rfl, fun other => ?_, fun other => ?_, fun other => ?_, ?_, rfl, rfl⟩
  · by_cases heq : other = index <;> simp [heq]
  · by_cases heq : other = index <;> simp [heq]
  · by_cases heq : other = index
    · simp [heq, htoken]
    · simp [heq, Ne.symm heq, htoken]
  · simp [htoken]

lemma recounted_takeFrom {prior index : OwnerIndex} {qword : QwordAddress}
    (htoken : provenance.qwordOwners qword = some prior) (hne : prior ≠ index)
    (hcount : (provenance.owners prior).ownedQwordCount ≠ 0) :
    Recounted provenance (provenance.takeFrom prior index qword) qword (some index) := by
  unfold Provenance.takeFrom Provenance.setOwner Provenance.setToken
  have hindex : ∀ other, other ≠ index → index ≠ other := fun _ => Ne.symm
  refine ⟨rfl, fun other => ?_, fun other => ?_, fun other => ?_, ?_, rfl, rfl⟩
  · by_cases heq : other = index
    · simp [heq, Ne.symm hne]
    · by_cases hprior : other = prior <;> simp [heq, hprior, hne]
  · by_cases heq : other = index
    · simp [heq, Ne.symm hne]
    · by_cases hprior : other = prior <;> simp [heq, hprior, hne]
  · by_cases heq : other = index
    · simp [heq, htoken, hne, Ne.symm hne]
    · by_cases hprior : other = prior
      · simp [hprior, htoken, hne, Ne.symm hne]
        omega
      · simp [heq, hprior, htoken, Ne.symm heq, Ne.symm hprior]
  · simp [htoken]

lemma recounted_dropFrom {index : OwnerIndex} {qword : QwordAddress}
    (htoken : provenance.qwordOwners qword = some index)
    (hcount : (provenance.owners index).ownedQwordCount ≠ 0)
    (htotal : provenance.ownedQwordCount ≠ 0) :
    Recounted provenance (provenance.dropFrom index qword) qword none := by
  unfold Provenance.dropFrom Provenance.setOwner Provenance.setToken
  refine ⟨rfl, fun other => ?_, fun other => ?_, fun other => ?_, ?_, rfl, rfl⟩
  · by_cases heq : other = index <;> simp [heq]
  · by_cases heq : other = index <;> simp [heq]
  · by_cases heq : other = index
    · simp [heq, htoken]
      omega
    · simp [heq, htoken, Ne.symm heq]
  · simp [htoken]
    omega

end

/-! ### Applying a span -/

section Apply

variable {index : OwnerIndex} {span : VifUnpackSpan} {current : Provenance × InputRing}
  {outside : ℕ → ℕ} {latest : QwordAddress → Option QwordBytes}

/-- The new owner while the span is being applied. -/
structure Opening (index : OwnerIndex) (span : VifUnpackSpan) (current : Provenance × InputRing) :
    Prop where
  active : (current.1.owners index).active = true
  span_eq : (current.1.owners index).span = span

/-- Every turn gives the qword of its vector to the new owner. -/
lemma takeQword_spec {vector : ℕ} (hopening : Opening index span current)
    (h : Tracked current.1 current.2 outside latest {index}) (hvector : vector < span.vectorCount)
    (hcount : span.vectorCount ≤ 1024) :
    Tracked (takeQword index span current vector).1 (takeQword index span current vector).2 outside
        (Function.update latest (span.qword vector)
          (some (current.2.spanBytes span (span.qword vector)))) {index} ∧
      Opening index span (takeQword index span current vector) ∧
      ((takeQword index span current vector).1.owners index).ownedQwordCount ≠ 0 ∧
      ∀ slot, ((takeQword index span current vector).2.slots slot).bytes =
        (current.2.slots slot).bytes := by
  obtain ⟨hactive, hspan⟩ := hopening
  have hnew : ∀ other, some index = some other → (current.1.owners other).active = true ∧
      (current.1.owners other).span.vectorOf (span.qword vector) <
        (current.1.owners other).span.vectorCount := by
    rintro other heq
    cases heq
    rw [hspan, vectorOf_qword span (by omega)]
    exact ⟨hactive, hvector⟩
  have hbytes : (some index).map (fun other =>
      current.2.spanBytes (current.1.owners other).span (span.qword vector)) =
        some (current.2.spanBytes span (span.qword vector)) := by
    rw [Option.map_some, hspan]
  unfold takeQword
  dsimp only
  split
  next htoken =>
    have hrecount := recounted_takeFree index htoken
    have hnext := h.recount hrecount hnew
    rw [hbytes] at hnext
    refine ⟨hnext.shrink fun other hmem _ => Or.inr ?_, ⟨?_, ?_⟩, ?_, fun _ => rfl⟩
    · rcases hmem with hmem | hmem
      · exact hmem
      · cases htoken.symm.trans hmem
    · rw [hrecount.active]
      exact hactive
    · rw [hrecount.span]
      exact hspan
    · have hcounts := hrecount.counts index
      rw [htoken, if_neg (Option.some_ne_none index).symm, if_pos rfl] at hcounts
      dsimp only
      omega
  next prior htoken =>
    split
    next heq =>
      subst heq
      refine ⟨?_, ⟨hactive, hspan⟩, h.count_ne_zero_of_token htoken, fun _ => rfl⟩
      have hlatest : latest (span.qword vector) =
          some (current.2.spanBytes span (span.qword vector)) := by
        rw [h.latest_eq, htoken]
        exact hbytes
      rw [← hlatest, Function.update_eq_self]
      exact h
    next hne =>
      have hrecount := recounted_takeFrom htoken hne (h.count_ne_zero_of_token htoken)
      have hnext := h.recount hrecount hnew
      rw [hbytes] at hnext
      have hpending : Tracked (current.1.takeFrom prior index (span.qword vector)) current.2 outside
          (Function.update latest (span.qword vector)
            (some (current.2.spanBytes span (span.qword vector)))) (insert prior {index}) := by
        refine hnext.shrink fun other hmem _ => Or.inr ?_
        rcases hmem with hmem | hmem
        · exact Set.mem_insert_of_mem _ hmem
        · exact Set.mem_insert_iff.mpr (Or.inl (Option.some.inj (htoken.symm.trans hmem)).symm)
      have hprior : ((current.1.takeFrom prior index (span.qword vector)).owners prior).active =
          true := by
        rw [hrecount.active]
        exact h.active_of_token htoken
      obtain ⟨howner, hring⟩ := invalidateIfEmptied_frame (Ne.symm hne)
        (current.1.takeFrom prior index (span.qword vector)) current.2
      refine ⟨hpending.invalidateIfEmptied hprior, ⟨?_, ?_⟩, ?_, hring⟩
      · rw [howner, hrecount.active]
        exact hactive
      · rw [howner, hrecount.span]
        exact hspan
      · rw [howner]
        have hcounts := hrecount.counts index
        rw [htoken, if_neg fun heq => hne (Option.some.inj heq), if_pos rfl] at hcounts
        omega

/-- The latest bytes after the first vectors of a span. -/
def applyLatest (latest : QwordAddress → Option QwordBytes) (ring : InputRing)
    (span : VifUnpackSpan) (vectors : ℕ) (qword : QwordAddress) : Option QwordBytes :=
  if span.vectorOf qword < vectors then some (ring.spanBytes span qword) else latest qword

lemma applyLatest_succ (ring : InputRing) {vectors : ℕ} (h : vectors < 1024) :
    applyLatest latest ring span (vectors + 1) =
      Function.update (applyLatest latest ring span vectors) (span.qword vectors)
        (some (ring.spanBytes span (span.qword vectors))) := by
  funext qword
  by_cases heq : qword = span.qword vectors
  · subst heq
    rw [Function.update_self, applyLatest, vectorOf_qword span h, if_pos (Nat.lt_succ_self _)]
  · have hne : span.vectorOf qword ≠ vectors := by
      rintro rfl
      exact heq (qword_vectorOf span qword).symm
    rw [Function.update_of_ne heq, applyLatest, applyLatest]
    refine if_congr ?_ rfl rfl
    omega

lemma takeQwords_spec (hopening : Opening index span current)
    (h : Tracked current.1 current.2 outside latest {index}) (hcount : span.vectorCount ≤ 1024)
    {vectors : ℕ} (hvectors : vectors ≤ span.vectorCount) :
    let next := (List.range vectors).foldl (takeQword index span) current
    Tracked next.1 next.2 outside (applyLatest latest current.2 span vectors) {index} ∧
      Opening index span next ∧ (vectors = 0 ∨ (next.1.owners index).ownedQwordCount ≠ 0) ∧
      ∀ slot, (next.2.slots slot).bytes = (current.2.slots slot).bytes := by
  induction vectors with
  | zero =>
    have hlatest : applyLatest latest current.2 span 0 = latest := funext fun _ => rfl
    rw [hlatest]
    exact ⟨h, hopening, Or.inl rfl, fun _ => rfl⟩
  | succ vectors ih =>
    obtain ⟨htracked, hnext, -, hring⟩ := ih (by omega)
    have hvector : vectors < span.vectorCount := hvectors
    obtain ⟨hstep, hopening', hcount', hring'⟩ := takeQword_spec hnext htracked hvector hcount
    have hbytes : ∀ qword, ((List.range vectors).foldl (takeQword index span) current).2.spanBytes
        span qword = current.2.spanBytes span qword :=
      fun qword => spanBytes_congr span qword hring
    rw [hbytes] at hstep
    rw [List.range_succ, List.foldl_append, applyLatest_succ current.2 (by omega)]
    exact ⟨hstep, hopening', Or.inr hcount', fun slot => (hring' slot).trans (hring slot)⟩

lemma owners_openOwner {provenance : Provenance} {free : List OwnerIndex} (other : OwnerIndex) :
    (provenance.openOwner index free span).owners other =
      if other = index then ⟨span, 0, true⟩ else provenance.owners other := by
  by_cases h : other = index
  · simp [h, Provenance.openOwner, Provenance.setOwner]
  · simp [h, Provenance.openOwner, Provenance.setOwner]

/-- The table of a field of the owners after an owner is opened. -/
lemma field_openOwner {provenance : Provenance} {free : List OwnerIndex} {α : Type*}
    (field : Owner → α) :
    (fun other => field ((provenance.openOwner index free span).owners other)) =
      Function.update (fun other => field (provenance.owners other)) index
        (field ⟨span, 0, true⟩) := by
  funext other
  rw [owners_openOwner]
  by_cases h : other = index
  · rw [if_pos h, h, Function.update_self]
  · rw [if_neg h, Function.update_of_ne h]

/-- The new owner is pending, and its reference is the retained one. -/
lemma Tracked.openOwner {provenance : Provenance} {ring : InputRing} {free : List OwnerIndex}
    (h : Tracked provenance ring outside latest ∅) (hfree : provenance.freeOwners = index :: free)
    (hlive : Live ring span.payload) (hcover : span.vectorCount * 16 ≤ span.payload.size) :
    Tracked (provenance.openOwner index free span)
      (ring.setReferences span.payload.slot ((ring.slots span.payload.slot).references + 1))
      outside latest {index} := by
  have hinactive : (provenance.owners index).active = false :=
    (h.mem_free index).mp (hfree ▸ List.mem_cons_self)
  have hzero : (provenance.owners index).ownedQwordCount = 0 := by
    by_contra hcount
    cases hinactive.symm.trans (h.active_of_owned index hcount)
  have hne : ∀ {qword other}, provenance.qwordOwners qword = some other → other ≠ index := by
    rintro qword other htoken rfl
    exact h.count_ne_zero_of_token htoken hzero
  have hnodup := hfree ▸ h.nodup
  refine ⟨⟨fun other => ?_, h.total, ?_, fun other => ?_, fun other => ?_, ?_, fun other => ?_⟩,
    h.ringActive, fun other => ?_, fun other => ?_, fun qword other htoken => ?_, fun slot => ?_,
    fun qword => ?_⟩
  · rw [owners_openOwner]
    split
    next heq =>
      subst heq
      exact hzero.symm.trans (h.owned other)
    next => exact h.owned other
  · have hcount := tokenCount_update (fun other => (provenance.owners other).active) index true true
    rw [if_neg (hinactive ▸ Bool.false_ne_true), if_pos rfl, ← h.actives, Nat.add_zero] at hcount
    have hopened : (provenance.openOwner index free span).activeOwnerCount =
        provenance.activeOwnerCount + 1 := rfl
    rw [hopened, ← hcount, field_openOwner Owner.active]
  · rw [owners_openOwner]
    split
    next => exact fun _ => rfl
    next => exact h.active_of_owned other
  · rw [owners_openOwner]
    split
    next heq => exact fun _ => Or.inr heq
    next => exact fun hother => (h.owned_of_active other hother).imp_right fun hmem => absurd hmem id
  · exact (List.nodup_cons.mp hnodup).2
  · have hmem := h.mem_free other
    rw [hfree, List.mem_cons] at hmem
    rw [owners_openOwner]
    split
    next heq =>
      subst heq
      exact iff_of_false (List.nodup_cons.mp hnodup).1 Bool.noConfusion
    next hother => exact (or_iff_right hother).symm.trans hmem
  · rw [owners_openOwner]
    split
    next => exact fun _ => hlive.setReferences
    next => exact fun hother => (h.live other hother).setReferences
  · rw [owners_openOwner]
    split
    next => exact fun _ => hcover
    next => exact h.covered other
  · rw [owners_openOwner, if_neg (hne htoken)]
    exact h.within qword other htoken
  · have hheld := tokenCount_update (fun other => (provenance.owners other).heldSlot) index
      (some span.payload.slot) (some slot)
    have hself : (provenance.owners index).heldSlot = none := by simp [Owner.heldSlot, hinactive]
    rw [hself, if_neg (Option.some_ne_none slot).symm] at hheld
    have hnext : (provenance.openOwner index free span).held slot =
        tokenCount (Function.update (fun other => (provenance.owners other).heldSlot) index
          (some span.payload.slot)) (some slot) := by
      rw [Provenance.held, field_openOwner Owner.heldSlot]
      rfl
    have hold := h.references slot
    rw [references_setReferences, hnext]
    rw [Provenance.held] at hold
    by_cases hslot : slot = span.payload.slot
    · subst hslot
      rw [if_pos rfl] at hheld ⊢
      omega
    · rw [if_neg (fun heq => hslot (Option.some.inj heq).symm)] at hheld
      rw [if_neg hslot]
      omega
  · rw [h.latest_eq]
    refine Option.map_congr fun other htoken => ?_
    rw [owners_openOwner, if_neg (hne htoken)]
    exact (spanBytes_congr _ _ bytes_setReferences).symm

/-- A span that is accepted has a live payload, and its vectors are the latest bytes. -/
theorem applyDirectAffineSpan_of_true {provenance : Provenance} {ring : InputRing}
    (h : Tracked provenance ring outside latest ∅) (hcount : span.vectorCount ≤ 1024)
    (hcover : span.vectorCount * 16 ≤ span.payload.size)
    (htrue : (applyDirectAffineSpan span provenance ring).1 = true) :
    isDirectAffineV4_32Span span = true ∧ Live ring span.payload ∧
      Tracked (applyDirectAffineSpan span provenance ring).2.1
        (applyDirectAffineSpan span provenance ring).2.2 outside
        (applyLatest latest ring span span.vectorCount) ∅ := by
  unfold applyDirectAffineSpan at htrue ⊢
  dsimp only at htrue ⊢
  split at htrue
  next => cases htrue
  next hshape =>
    rw [if_neg hshape]
    simp only [Bool.or_eq_true, Bool.not_eq_eq_eq_not, Bool.not_true, beq_iff_eq, not_or,
      Bool.not_eq_false] at hshape
    split at htrue
    next => cases htrue
    next hretain =>
      rw [if_neg hretain]
      have hretained : (retainRawVifPayload ring span.payload).1 = true := by simpa using hretain
      obtain ⟨hlive, hring⟩ := retain_of_true hretained
      split at htrue
      next => cases htrue
      next hfaulty =>
        rw [if_neg hfaulty]
        cases hfree : provenance.freeOwners with
        | nil =>
          rw [hfree] at htrue
          cases htrue
        | cons index free =>
          dsimp only
          rw [hring]
          refine ⟨hshape.1, hlive, ?_⟩
          have hopening : Opening index span (provenance.openOwner index free span,
              ring.setReferences span.payload.slot
                ((ring.slots span.payload.slot).references + 1)) := by
            refine ⟨?_, ?_⟩ <;> dsimp only <;> rw [owners_openOwner, if_pos rfl]
          obtain ⟨htracked, -, howned, -⟩ := takeQwords_spec hopening
            (h.openOwner hfree hlive hcover) hcount le_rfl
          have hbytes : applyLatest latest (ring.setReferences span.payload.slot
              ((ring.slots span.payload.slot).references + 1)) span span.vectorCount =
                applyLatest latest ring span span.vectorCount := by
            funext qword
            rw [applyLatest, applyLatest, spanBytes_congr _ _ bytes_setReferences]
          rw [hbytes] at htracked
          refine htracked.shrink fun other hmem _ => Or.inl ?_
          rw [Set.mem_singleton_iff.mp hmem]
          exact howned.resolve_left hshape.2

/-- A span that is rejected leaves everything as it was. -/
theorem applyDirectAffineSpan_of_false {provenance : Provenance} {ring : InputRing}
    (hfalse : (applyDirectAffineSpan span provenance ring).1 = false) :
    (applyDirectAffineSpan span provenance ring).2 = (provenance, ring) := by
  unfold applyDirectAffineSpan at hfalse ⊢
  dsimp only at hfalse ⊢
  split at hfalse
  next hshape => rw [if_pos hshape]
  next hshape =>
    rw [if_neg hshape]
    cases hretain : (retainRawVifPayload ring span.payload).1 with
    | false =>
      simp only [Bool.not_false, if_true]
      rw [retain_of_false hretain]
    | true =>
      rw [hretain] at hfalse
      simp only [Bool.not_true, Bool.false_eq_true, if_false] at hfalse ⊢
      rw [release_retain hretain] at hfalse ⊢
      split at hfalse
      next hfaulty => rw [if_pos hfaulty]
      next hfaulty =>
        rw [if_neg hfaulty]
        cases hfree : provenance.freeOwners with
        | nil => rfl
        | cons index free =>
          rw [hfree] at hfalse
          cases hfalse

end Apply

end VitaSX2.Vif
