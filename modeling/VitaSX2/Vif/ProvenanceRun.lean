/-
Runs of `PersistentVifMemoryProvenance` and the memory they stand for.

The specification of a run keeps the latest bytes of every qword, the qwords
that were dropped without being materialized, and the memory that results from
materializing every accepted span at once.
-/
import VitaSX2.Vif.ProvenanceInvariant

namespace VitaSX2.Vif

open TokenCount

section Calls

variable {provenance : Provenance} {ring : InputRing} {outside : ℕ → ℕ}
  {latest : QwordAddress → Option QwordBytes}

/-! ### Invalidating -/

theorem invalidateQword_spec (h : Tracked provenance ring outside latest ∅)
    (qword : QwordAddress) :
    Tracked (invalidateQword qword provenance ring).1 (invalidateQword qword provenance ring).2
      outside (Function.update latest qword none) ∅ := by
  unfold invalidateQword
  split
  next htoken =>
    have hlatest : latest qword = none := by
      rw [h.latest_eq, htoken]
      rfl
    rw [← hlatest, Function.update_eq_self]
    exact h
  next index htoken =>
    have hsound := h.not_faulty qword
    rw [htoken] at hsound
    rw [hsound, if_neg Bool.false_ne_true]
    have htotal : provenance.ownedQwordCount ≠ 0 := by
      rw [h.total]
      exact (tokenCount_pos.mpr ⟨qword, by rw [htoken]; rfl⟩).ne'
    have hrecount := recounted_dropFrom htoken (h.count_ne_zero_of_token htoken) htotal
    have hnext := h.recount hrecount fun other hother => absurd hother (Option.some_ne_none other).symm
    have hpending : Tracked _ ring outside (Function.update latest qword none) (insert index ∅) :=
        hnext.shrink fun other hmem _ => Or.inr <| by
      rcases hmem with hmem | hmem
      · exact absurd hmem id
      · exact Or.inl (Option.some.inj (htoken.symm.trans hmem)).symm
    refine hpending.invalidateIfEmptied ?_
    rw [hrecount.active]
    exact h.active_of_token htoken

/-- The latest bytes after some qwords are dropped. -/
def dropLatest (latest : QwordAddress → Option QwordBytes) (qwords : List QwordAddress)
    (qword : QwordAddress) : Option QwordBytes :=
  if qword ∈ qwords then none else latest qword

lemma dropLatest_cons (qword : QwordAddress) (rest : List QwordAddress) :
    dropLatest (Function.update latest qword none) rest = dropLatest latest (qword :: rest) := by
  funext other
  unfold dropLatest
  by_cases hrest : other ∈ rest
  · rw [if_pos hrest, if_pos (List.mem_cons_of_mem _ hrest)]
  · rw [if_neg hrest]
    by_cases heq : other = qword
    · rw [heq, Function.update_self, if_pos List.mem_cons_self]
    · rw [Function.update_of_ne heq, if_neg]
      exact fun hmem => (List.mem_cons.mp hmem).elim heq hrest

lemma invalidateQwords_spec (h : Tracked provenance ring outside latest ∅)
    (qwords : List QwordAddress) :
    let next := qwords.foldl (fun current qword => invalidateQword qword current.1 current.2)
      (provenance, ring)
    Tracked next.1 next.2 outside (dropLatest latest qwords) ∅ := by
  induction qwords generalizing provenance ring latest with
  | nil =>
    have hlatest : dropLatest latest [] = latest := funext fun _ => rfl
    rw [hlatest]
    exact h
  | cons qword rest ih =>
    rw [← dropLatest_cons]
    exact ih (invalidateQword_spec h qword)

theorem invalidateFullyOverwrittenQwords_of_true (h : Tracked provenance ring outside latest ∅)
    {masks : List (BitVec 32)}
    (htrue : (invalidateFullyOverwrittenQwords masks provenance ring).1 = true) :
    Tracked (invalidateFullyOverwrittenQwords masks provenance ring).2.1
      (invalidateFullyOverwrittenQwords masks provenance ring).2.2 outside
      (dropLatest latest (maskedQwords masks)) ∅ := by
  unfold invalidateFullyOverwrittenQwords at htrue ⊢
  split at htrue
  next => cases htrue
  next hlength =>
    rw [if_neg hlength]
    split at htrue
    next => cases htrue
    next hsound =>
      rw [if_neg hsound]
      exact invalidateQwords_spec h _

lemma invalidateFullyOverwrittenQwords_of_false {masks : List (BitVec 32)}
    (hfalse : (invalidateFullyOverwrittenQwords masks provenance ring).1 = false) :
    (invalidateFullyOverwrittenQwords masks provenance ring).2 = (provenance, ring) := by
  unfold invalidateFullyOverwrittenQwords at hfalse ⊢
  split at hfalse
  next hlength => rw [if_pos hlength]
  next hlength =>
    rw [if_neg hlength]
    split at hfalse
    next hfaulty => rw [if_pos hfaulty]
    next => cases hfalse

/-! ### Resolving -/

/-- What `ResolveQword` points to is the latest qword. -/
theorem resolveQword_spec (h : Tracked provenance ring outside latest ∅)
    (qword : QwordAddress) :
    (resolveQword qword provenance ring).map (fun pointer (index : Fin 16) =>
      ring.read pointer index.val) = latest qword := by
  rw [h.latest_eq]
  unfold resolveQword
  cases htoken : provenance.qwordOwners qword with
  | none => rfl
  | some index =>
    have howner := h.active_of_token htoken
    have hlive := h.live index howner
    have hwithin := h.within qword index htoken
    have hcovered := h.covered index howner
    have hresolve := resolve_of_live hlive h.ringActive (h.references_ne_zero howner)
    simp only [howner, Bool.not_true, Bool.false_eq_true, if_false, hresolve]
    rw [if_neg (by omega)]
    rfl

/-- The memory with the latest qwords over it. -/
def overlay (latest : QwordAddress → Option QwordBytes) (qwords : List QwordAddress)
    (memory : Memory) : Memory := fun address =>
  if h : address < 1024 * 16 then
    let qword : QwordAddress := ⟨address / 16, by omega⟩
    if qword ∈ qwords then (latest qword).elim (memory address) fun bytes =>
      bytes ⟨address % 16, Nat.mod_lt _ (by decide)⟩
    else memory address
  else memory address

lemma memcpy_qword (memory : Memory) (qword : QwordAddress) (source : ℕ → Byte) (address : ℕ) :
    memcpy memory (qword.val * 16) source 16 address =
      if address / 16 = qword.val then source (address % 16) else memory address := by
  unfold memcpy
  by_cases heq : address / 16 = qword.val
  · rw [if_pos heq, if_pos (by omega)]
    congr 1
    omega
  · rw [if_neg heq, if_neg (by omega)]

lemma materializeQwords_spec (h : Tracked provenance ring outside latest ∅)
    (qwords : List QwordAddress) (memory : Memory) :
    materializeQwords provenance ring qwords memory = (true, overlay latest qwords memory) := by
  induction qwords generalizing memory with
  | nil =>
    refine Prod.ext rfl (funext fun address => ?_)
    simp [materializeQwords, overlay]
  | cons qword rest ih =>
    rw [materializeQwords]
    have hlatest := resolveQword_spec h qword
    cases htoken : provenance.qwordOwners qword with
    | none =>
      have hnone : latest qword = none := by
        rw [h.latest_eq, htoken]
        rfl
      rw [if_pos rfl, ih]
      refine Prod.ext rfl (funext fun address => ?_)
      dsimp only [overlay]
      split
      next haddress =>
        by_cases heq : (⟨address / 16, by omega⟩ : QwordAddress) = qword
        · rw [heq, hnone]
          simp
        · simp only [List.mem_cons, heq, false_or]
      next => rfl
    | some index =>
      rw [if_neg (Option.some_ne_none index)]
      cases hresolve : resolveQword qword provenance ring with
      | none =>
        rw [hresolve, h.latest_eq, htoken] at hlatest
        cases hlatest
      | some pointer =>
        rw [hresolve] at hlatest
        dsimp only
        rw [ih]
        refine Prod.ext rfl (funext fun address => ?_)
        dsimp only [overlay]
        split
        next haddress =>
          rw [memcpy_qword]
          by_cases heq : (⟨address / 16, by omega⟩ : QwordAddress) = qword
          · rw [heq, ← hlatest, if_pos List.mem_cons_self, if_pos (congrArg Fin.val heq)]
            simp
          · rw [if_neg fun hval => heq (Fin.ext hval)]
            simp only [List.mem_cons, heq, false_or]
        next haddress =>
          rw [memcpy_qword, if_neg]
          have hlt := qword.isLt
          omega

/-- `MaterializeOwnedQwords` overlays the latest qwords. -/
theorem materializeOwnedQwords_spec (h : Tracked provenance ring outside latest ∅)
    (memory : Memory) :
    materializeOwnedQwords provenance ring memory (1024 * 16) =
      (true, overlay latest (List.finRange 1024) memory) := by
  rw [materializeOwnedQwords, if_neg (Nat.lt_irrefl _)]
  exact materializeQwords_spec h _ memory

lemma materializeAndInvalidateQword_of_false {memory : Memory} {memorySize : ℕ}
    {qword : QwordAddress}
    (hfalse : (materializeAndInvalidateQword memory memorySize qword provenance ring).1 = false) :
    (materializeAndInvalidateQword memory memorySize qword provenance ring).2 =
      (memory, provenance, ring) := by
  unfold materializeAndInvalidateQword at hfalse ⊢
  split at hfalse
  next hsize => rw [if_pos hsize]
  next hsize =>
    rw [if_neg hsize]
    split at hfalse
    next => cases hfalse
    next htoken =>
      rw [if_neg htoken]
      split at hfalse
      next => rfl
      next => cases hfalse

/-- A qword is materialized into the memory before it is given up. -/
theorem materializeAndInvalidateQword_of_true (h : Tracked provenance ring outside latest ∅)
    {memory : Memory} {memorySize : ℕ} {qword : QwordAddress}
    (htrue : (materializeAndInvalidateQword memory memorySize qword provenance ring).1 = true) :
    Tracked (materializeAndInvalidateQword memory memorySize qword provenance ring).2.2.1
        (materializeAndInvalidateQword memory memorySize qword provenance ring).2.2.2 outside
        (Function.update latest qword none) ∅ ∧
      (materializeAndInvalidateQword memory memorySize qword provenance ring).2.1 =
        overlay latest [qword] memory := by
  have hlatest := h.latest_eq qword
  have hone := materializeQwords_spec h [qword] memory
  unfold materializeAndInvalidateQword at htrue ⊢
  unfold materializeQwords at hone
  split at htrue
  next => cases htrue
  next hsize =>
    rw [if_neg hsize]
    split at htrue
    next htoken =>
      rw [if_pos htoken] at hone ⊢
      rw [htoken] at hlatest
      refine ⟨?_, congrArg Prod.snd hone⟩
      rw [show (none : Option QwordBytes) = latest qword from hlatest.symm, Function.update_eq_self]
      exact h
    next htoken =>
      rw [if_neg htoken] at hone ⊢
      split at htrue
      next => cases htrue
      next pointer hresolve =>
        rw [hresolve] at hone
        exact ⟨invalidateQword_spec h qword, congrArg Prod.snd hone⟩

end Calls

/-! ### Runs -/

/-- The object, its ring and the memory below it. -/
structure World where
  provenance : Provenance
  ring : InputRing
  memory : Memory

inductive Call
  | applyDirectAffineSpan (span : VifUnpackSpan)
  | invalidateQword (qword : QwordAddress)
  | invalidateFullyOverwrittenQwords (masks : List (BitVec 32))
  | materializeAndInvalidateQword (memorySize : ℕ) (qword : QwordAddress)

/-- The return value and the state after a call; calls without one return true. -/
def World.call (world : World) : Call → Bool × World
  | .applyDirectAffineSpan span =>
    let result := Vif.applyDirectAffineSpan span world.provenance world.ring
    (result.1, { world with provenance := result.2.1, ring := result.2.2 })
  | .invalidateQword qword =>
    let result := Vif.invalidateQword qword world.provenance world.ring
    (true, { world with provenance := result.1, ring := result.2 })
  | .invalidateFullyOverwrittenQwords masks =>
    let result := Vif.invalidateFullyOverwrittenQwords masks world.provenance world.ring
    (result.1, { world with provenance := result.2.1, ring := result.2.2 })
  | .materializeAndInvalidateQword memorySize qword =>
    let result := Vif.materializeAndInvalidateQword world.memory memorySize qword
      world.provenance world.ring
    (result.1, ⟨result.2.2.1, result.2.2.2, result.2.1⟩)

/-- What a run stands for: the references of other owners, the latest bytes of
every qword, the qwords dropped without being materialized, and the memory of
the eager run, which materializes every accepted span. -/
structure Meaning where
  outside : ℕ → ℕ
  latest : QwordAddress → Option QwordBytes
  dropped : QwordAddress → Bool
  eager : Memory

/-- The bytes of a payload in the ring. -/
def InputRing.payloadBytes (ring : InputRing) (payload : RawVifPayloadRef) (index : ℕ) : Byte :=
  (ring.slots payload.slot).bytes (payload.offset + index)

/-- The meaning after a call that returned true on a ring. -/
def Meaning.call (meaning : Meaning) (ring : InputRing) : Call → Meaning
  | .applyDirectAffineSpan span =>
    { meaning with
      latest := applyLatest meaning.latest ring span span.vectorCount
      dropped := fun qword =>
        if span.vectorOf qword < span.vectorCount then false else meaning.dropped qword
      eager := (materializeDirectAffineV4_32Span span (ring.payloadBytes span.payload)
        meaning.eager (1024 * 16)).2 }
  | .invalidateQword qword =>
    { meaning with
      latest := Function.update meaning.latest qword none
      dropped := Function.update meaning.dropped qword true }
  | .invalidateFullyOverwrittenQwords masks =>
    { meaning with
      latest := dropLatest meaning.latest (maskedQwords masks)
      dropped := fun qword => qword ∈ maskedQwords masks || meaning.dropped qword }
  | .materializeAndInvalidateQword _ qword =>
    { meaning with latest := Function.update meaning.latest qword none }

/-- A span has at most one vector for every qword, and its payload covers it. -/
def Call.Admissible : Call → Prop
  | .applyDirectAffineSpan span =>
    span.vectorCount ≤ 1024 ∧ span.vectorCount * 16 ≤ span.payload.size
  | _ => True

/-- Other owners capture, retain and release; a slot in which the object holds a
reference keeps its generation and its committed bytes. -/
structure RingChange (world : World) (ring : InputRing) (outside : ℕ → ℕ) : Prop where
  address : ring.address = world.ring.address
  active : ring.active = world.ring.active
  references : ∀ slot, (ring.slots slot).references = outside slot + world.provenance.held slot
  generation : ∀ slot, world.provenance.held slot ≠ 0 →
    (ring.slots slot).generation = (world.ring.slots slot).generation
  mapped : ∀ slot, world.provenance.held slot ≠ 0 →
    (ring.slots slot).mapped = (world.ring.slots slot).mapped
  committed : ∀ slot, world.provenance.held slot ≠ 0 →
    (world.ring.slots slot).committedOffset ≤ (ring.slots slot).committedOffset
  bytes : ∀ slot, world.provenance.held slot ≠ 0 → ∀ offset < (world.ring.slots slot).committedOffset,
    (ring.slots slot).bytes offset = (world.ring.slots slot).bytes offset

/-- The runs from the empty object, with what they stand for. -/
inductive Run : World → Meaning → Prop
  | start (ring : InputRing) (memory : Memory) (hactive : ring.active = true) :
    Run ⟨{}, ring, memory⟩
      ⟨fun slot => (ring.slots slot).references, fun _ => none, fun _ => false, memory⟩
  | call {world : World} {meaning : Meaning} (call : Call) :
    Run world meaning → call.Admissible →
      Run (world.call call).2
        (if (world.call call).1 then meaning.call world.ring call else meaning)
  | ringChange {world : World} {meaning : Meaning} {ring : InputRing} {outside : ℕ → ℕ} :
    Run world meaning → RingChange world ring outside →
      Run { world with ring := ring } { meaning with outside := outside }

/-- The state tracks its meaning, and the latest qwords over the memory are the
eager memory wherever nothing was dropped. -/
structure Exact (world : World) (meaning : Meaning) : Prop where
  tracked : Tracked world.provenance world.ring meaning.outside meaning.latest ∅
  latest_dropped : ∀ qword, meaning.dropped qword = true → meaning.latest qword = none
  eager : ∀ address (h : address < 1024 * 16), meaning.dropped ⟨address / 16, by omega⟩ = false →
    overlay meaning.latest (List.finRange 1024) world.memory address = meaning.eager address
  outside : ∀ address, 1024 * 16 ≤ address → world.memory address = meaning.eager address

lemma overlay_all {latest : QwordAddress → Option QwordBytes} {memory : Memory} {address : ℕ}
    (h : address < 1024 * 16) :
    overlay latest (List.finRange 1024) memory address =
      (latest ⟨address / 16, by omega⟩).elim (memory address) fun bytes =>
        bytes ⟨address % 16, Nat.mod_lt _ (by decide)⟩ := by
  rw [overlay, dif_pos h, if_pos (List.mem_finRange _)]

lemma counted_empty : Counted {} ∅ := by
  have hfree : ({} : Provenance).freeOwners = List.finRange 1024 := by dsimp only
  refine ⟨fun index => ?_, ?_, ?_, fun index hcount => ?_, fun index hactive => ?_, ?_,
    fun index => ?_⟩
  · exact (tokenCount_const_ne (Option.some_ne_none index).symm).symm
  · exact (tokenCount_const_ne Bool.false_ne_true).symm
  · exact (tokenCount_const_ne Bool.false_ne_true).symm
  · exact (hcount rfl).elim
  · cases hactive
  · rw [hfree]
    exact List.nodup_finRange 1024
  · rw [hfree]
    exact iff_of_true (List.mem_finRange index) rfl

lemma held_empty (slot : ℕ) : ({} : Provenance).held slot = 0 :=
  tokenCount_const_ne (Option.some_ne_none slot).symm

lemma exact_start {ring : InputRing} {memory : Memory} (hactive : ring.active = true) :
    Exact ⟨{}, ring, memory⟩
      ⟨fun slot => (ring.slots slot).references, fun _ => none, fun _ => false, memory⟩ where
  tracked :=
    { counted_empty with
      ringActive := hactive
      live := fun _ h => absurd h Bool.false_ne_true
      covered := fun _ h => absurd h Bool.false_ne_true
      within := fun _ index h => absurd h (Option.some_ne_none index).symm
      references := fun slot => by rw [held_empty, Nat.add_zero]
      latest_eq := fun _ => rfl }
  latest_dropped _ h := absurd h Bool.false_ne_true
  eager address h _ := by rw [overlay_all h]; rfl
  outside _ _ := rfl

section Step

variable {world : World} {meaning : Meaning}

lemma exact_apply (h : Exact world meaning) {span : VifUnpackSpan}
    (hcount : span.vectorCount ≤ 1024) (hcover : span.vectorCount * 16 ≤ span.payload.size)
    (htrue : (world.call (.applyDirectAffineSpan span)).1 = true) :
    Exact (world.call (.applyDirectAffineSpan span)).2
      (meaning.call world.ring (.applyDirectAffineSpan span)) := by
  obtain ⟨hdirect, hlive, htracked⟩ := applyDirectAffineSpan_of_true h.tracked hcount hcover htrue
  have heager := materialize_of_isDirectAffine hdirect hcount (world.ring.payloadBytes span.payload)
    meaning.eager
  refine ⟨htracked, fun qword hdropped => ?_, fun address haddress hdropped => ?_,
    fun address haddress => ?_⟩
  · dsimp only [Meaning.call, applyLatest] at hdropped ⊢
    split at hdropped
    next => cases hdropped
    next hvector =>
      rw [if_neg hvector]
      exact h.latest_dropped qword hdropped
  · dsimp only [Meaning.call] at hdropped ⊢
    rw [overlay_all haddress, heager]
    dsimp only [applyLatest]
    rw [dif_pos haddress]
    split at hdropped
    next hvector =>
      rw [if_pos hvector, if_pos hvector]
      exact congrArg _ (Nat.add_assoc _ _ _)
    next hvector =>
      rw [if_neg hvector, if_neg hvector, ← h.eager address haddress hdropped, overlay_all haddress]
      rfl
  · dsimp only [Meaning.call]
    rw [heager]
    dsimp only
    rw [dif_neg (by omega)]
    exact h.outside address haddress

/-- Dropping qwords, whatever the calls that drop them. -/
lemma exact_drop (h : Exact world meaning) {next : World} {latest : QwordAddress → Option QwordBytes}
    {dropped : QwordAddress → Bool}
    (htracked : Tracked next.provenance next.ring meaning.outside latest ∅)
    (hmemory : next.memory = world.memory)
    (hcases : ∀ qword, latest qword = none ∧ dropped qword = true ∨
      latest qword = meaning.latest qword ∧ dropped qword = meaning.dropped qword) :
    Exact next { meaning with latest := latest, dropped := dropped } := by
  refine ⟨htracked, fun qword hdropped => ?_, fun address haddress hdropped => ?_,
    fun address haddress => ?_⟩
  · rcases hcases qword with ⟨hnone, -⟩ | ⟨hlatest, hold⟩
    · exact hnone
    · dsimp only at hdropped ⊢
      rw [hlatest]
      exact h.latest_dropped qword (hold ▸ hdropped)
  · dsimp only at hdropped ⊢
    rcases hcases ⟨address / 16, by omega⟩ with ⟨-, hall⟩ | ⟨hlatest, hold⟩
    · cases hall.symm.trans hdropped
    · rw [overlay_all haddress, hlatest, hmemory,
        ← h.eager address haddress (hold.symm.trans hdropped), overlay_all haddress]
  · rw [hmemory]
    exact h.outside address haddress

lemma exact_invalidate (h : Exact world meaning) (qword : QwordAddress) :
    Exact (world.call (.invalidateQword qword)).2
      (meaning.call world.ring (.invalidateQword qword)) := by
  refine exact_drop h (invalidateQword_spec h.tracked qword) rfl fun other => ?_
  by_cases heq : other = qword
  · subst heq
    exact Or.inl ⟨Function.update_self .., Function.update_self ..⟩
  · exact Or.inr ⟨Function.update_of_ne heq .., Function.update_of_ne heq ..⟩

lemma exact_invalidateFully (h : Exact world meaning) {masks : List (BitVec 32)}
    (htrue : (world.call (.invalidateFullyOverwrittenQwords masks)).1 = true) :
    Exact (world.call (.invalidateFullyOverwrittenQwords masks)).2
      (meaning.call world.ring (.invalidateFullyOverwrittenQwords masks)) := by
  refine exact_drop h (invalidateFullyOverwrittenQwords_of_true h.tracked htrue) rfl
    fun other => ?_
  by_cases hmem : other ∈ maskedQwords masks
  · exact Or.inl ⟨if_pos hmem, by rw [decide_eq_true hmem, Bool.true_or]⟩
  · exact Or.inr ⟨if_neg hmem, by rw [decide_eq_false hmem, Bool.false_or]⟩

lemma exact_materialize (h : Exact world meaning) {memorySize : ℕ} {qword : QwordAddress}
    (htrue : (world.call (.materializeAndInvalidateQword memorySize qword)).1 = true) :
    Exact (world.call (.materializeAndInvalidateQword memorySize qword)).2
      (meaning.call world.ring (.materializeAndInvalidateQword memorySize qword)) := by
  obtain ⟨htracked, hmemory⟩ := materializeAndInvalidateQword_of_true h.tracked htrue
  have hnext : (world.call (.materializeAndInvalidateQword memorySize qword)).2.memory =
      overlay meaning.latest [qword] world.memory := hmemory
  refine ⟨htracked, fun other hdropped => ?_, fun address haddress hdropped => ?_,
    fun address haddress => ?_⟩
  · have hlatest := h.latest_dropped other hdropped
    dsimp only [Meaning.call]
    by_cases heq : other = qword
    · rw [heq, Function.update_self]
    · rw [Function.update_of_ne heq, hlatest]
  · have heager := h.eager address haddress hdropped
    rw [overlay_all haddress] at heager
    rw [overlay_all haddress, hnext, overlay, dif_pos haddress]
    dsimp only [Meaning.call]
    rw [← heager]
    by_cases heq : (⟨address / 16, by omega⟩ : QwordAddress) = qword
    · rw [heq, Function.update_self, if_pos List.mem_cons_self]
      rfl
    · rw [Function.update_of_ne heq, if_neg (fun hmem => heq (List.mem_singleton.mp hmem))]
  · rw [hnext, overlay, dif_neg (by omega)]
    exact h.outside address haddress

lemma exact_ringChange (h : Exact world meaning) {ring : InputRing} {outside : ℕ → ℕ}
    (hring : RingChange world ring outside) :
    Exact { world with ring := ring } { meaning with outside := outside } := by
  have hheld : ∀ index, (world.provenance.owners index).active = true →
      world.provenance.held (world.provenance.owners index).span.payload.slot ≠ 0 :=
    fun index hactive =>
      (tokenCount_pos.mpr ⟨index, by simp [Owner.heldSlot, hactive]⟩).ne'
  refine ⟨?_, h.latest_dropped, h.eager, h.outside⟩
  refine ⟨h.tracked.toCounted, hring.active.trans h.tracked.ringActive, fun index hactive => ?_,
    h.tracked.covered, h.tracked.within, hring.references, fun qword => ?_⟩
  · have hlive := h.tracked.live index hactive
    have hslot := hheld index hactive
    exact
      { valid := hlive.valid
        slot := hlive.slot
        owner := hlive.owner.trans hring.address.symm
        range := hlive.range
        mapped := (hring.mapped _ hslot).trans hlive.mapped
        generation := (hring.generation _ hslot).trans hlive.generation
        committed := hlive.committed.trans (hring.committed _ hslot) }
  · dsimp only
    rw [h.tracked.latest_eq]
    refine Option.map_congr fun index htoken => funext fun byte => ?_
    have hactive := h.tracked.active_of_token htoken
    have hcommitted := (h.tracked.live index hactive).committed
    have hcovered := h.tracked.covered index hactive
    have hwithin := h.tracked.within qword index htoken
    have hbyte := byte.isLt
    exact (hring.bytes _ (hheld index hactive) _ (by omega)).symm

/-- A call that returns false changes nothing. -/
lemma call_of_false {call : Call} (hfalse : (world.call call).1 = false) :
    (world.call call).2 = world := by
  cases call with
  | applyDirectAffineSpan span =>
    have hresult := applyDirectAffineSpan_of_false hfalse
    simp only [World.call, hresult]
  | invalidateQword qword => cases hfalse
  | invalidateFullyOverwrittenQwords masks =>
    have hresult := invalidateFullyOverwrittenQwords_of_false hfalse
    simp only [World.call, hresult]
  | materializeAndInvalidateQword memorySize qword =>
    have hresult := materializeAndInvalidateQword_of_false hfalse
    simp only [World.call, hresult]

end Step

/-- Every run keeps the state and its meaning in step. -/
theorem Run.exact {world : World} {meaning : Meaning} (h : Run world meaning) :
    Exact world meaning := by
  induction h with
  | start ring memory hactive => exact exact_start hactive
  | @call world meaning call _ hadmissible ih =>
    cases htrue : (world.call call).1 with
    | false =>
      rw [call_of_false htrue]
      exact ih
    | true =>
      cases call with
      | applyDirectAffineSpan span => exact exact_apply ih hadmissible.1 hadmissible.2 htrue
      | invalidateQword qword => exact exact_invalidate ih qword
      | invalidateFullyOverwrittenQwords masks => exact exact_invalidateFully ih htrue
      | materializeAndInvalidateQword memorySize qword => exact exact_materialize ih htrue
  | ringChange _ hring ih => exact exact_ringChange ih hring

/-- In every run the counts and the free list are exact, every qword resolves to
its latest bytes, the owned qwords over the memory give the eager memory except
for the dropped qwords, and the references are those of the other owners and one
for every active owner; a call that returns false changes nothing. -/
theorem provenance_exact {world : World} {meaning : Meaning} (h : Run world meaning) :
    Counted world.provenance ∅ ∧
      (∀ qword, (resolveQword qword world.provenance world.ring).map (fun pointer (index : Fin 16) =>
        world.ring.read pointer index.val) = meaning.latest qword) ∧
      materializeOwnedQwords world.provenance world.ring world.memory (1024 * 16) =
        (true, fun address =>
          if h : address < 1024 * 16 then
            if meaning.dropped ⟨address / 16, by omega⟩ then world.memory address
            else meaning.eager address
          else meaning.eager address) ∧
      (∀ slot, (world.ring.slots slot).references =
        meaning.outside slot + world.provenance.held slot) ∧
      ∀ call, (world.call call).1 = false → (world.call call).2 = world := by
  have hexact := h.exact
  refine ⟨hexact.tracked.toCounted, resolveQword_spec hexact.tracked, ?_, hexact.tracked.references,
    fun _ => call_of_false⟩
  rw [materializeOwnedQwords_spec hexact.tracked]
  refine Prod.ext rfl (funext fun address => ?_)
  dsimp only
  split
  next haddress =>
    split
    next hdropped => rw [overlay_all haddress, hexact.latest_dropped _ hdropped]; rfl
    next hdropped => exact hexact.eager address haddress (Bool.eq_false_of_not_eq_true hdropped)
  next haddress =>
    rw [overlay, dif_neg haddress]
    exact hexact.outside address (Nat.le_of_not_lt haddress)

/-- A ring whose slots hold ones, each with one reference of another owner. -/
def onesRing : InputRing where
  address := 1
  active := true
  accepting := true
  slots := fun _ => ⟨1, 1, 16, true, fun _ => 1⟩

/-- One vector of ones for the first qword. -/
def onesSpan : VifUnpackSpan where
  payload := ⟨1, 0, 1, 0, 16⟩
  sourceSize := 16
  vectorCount := 1
  command := 0x6c#8

def onesWorld : World := ⟨{}, onesRing, fun _ => 0⟩

lemma onesWorld_apply : (onesWorld.call (.applyDirectAffineSpan onesSpan)).1 = true := by
  decide +kernel

lemma onesSpan_admissible : (Call.applyDirectAffineSpan onesSpan).Admissible := by
  refine ⟨?_, ?_⟩ <;> decide

def onesMeaning : Meaning where
  outside := fun slot => (onesRing.slots slot).references
  latest := fun _ => none
  dropped := fun _ => false
  eager := fun _ => 0

lemma onesWorld_run : Run onesWorld onesMeaning := Run.start onesRing (fun _ => 0) rfl

/-- The world after the span of ones. -/
lemma onesWorld_applied : Run (onesWorld.call (.applyDirectAffineSpan onesSpan)).2
    (onesMeaning.call onesRing (.applyDirectAffineSpan onesSpan)) := by
  have happlied := Run.call (.applyDirectAffineSpan onesSpan) onesWorld_run onesSpan_admissible
  rw [if_pos onesWorld_apply] at happlied
  exact happlied

theorem provenance_exact_ones :
    Counted (onesWorld.call (.applyDirectAffineSpan onesSpan)).2.provenance ∅ ∧
      (onesWorld.call (.applyDirectAffineSpan onesSpan)).2.provenance.activeOwnerCount = 1 := by
  refine ⟨(provenance_exact onesWorld_applied).1, ?_⟩
  decide +kernel

/-- A span that is applied and then invalidated is in the eager memory, but no
longer in the one that the object stands for. -/
theorem materializeOwnedQwords_ne_eager : ∃ world meaning, Run world meaning ∧
    materializeOwnedQwords world.provenance world.ring world.memory (1024 * 16) ≠
      (true, meaning.eager) := by
  have hdropped := Run.call (.invalidateQword 0) onesWorld_applied trivial
  have htrue : ∀ world : World, (world.call (.invalidateQword 0)).1 = true := fun _ => rfl
  rw [if_pos (htrue _)] at hdropped
  refine ⟨_, _, hdropped, fun heq => ?_⟩
  have hvalue := congrFun (congrArg Prod.snd heq) 0
  rw [materializeOwnedQwords_spec hdropped.exact.tracked] at hvalue
  dsimp only [Meaning.call] at hvalue
  rw [materialize_of_isDirectAffine (by decide) (by decide)] at hvalue
  revert hvalue
  decide +kernel

end VitaSX2.Vif
