/-
The steps outside the capture section.

They leave the generation, the offsets and the bytes of every slot alone, change
a reference count only together with the references of the thread, and whoever
drops the last reference of a slot goes on to claim the token of its waiter.
-/
import VitaSX2.InputRing.Invariant

namespace VitaSX2.InputRing

open Vif

/-- What the reader of a slot relies on is the same. -/
structure SameStorage (slot slot' : Slot) : Prop where
  generation : slot'.generation = slot.generation
  committedOffset : slot'.committedOffset = slot.committedOffset
  writeOffset : slot'.writeOffset = slot.writeOffset
  bytes : slot'.bytes = slot.bytes

/-- What a step outside the capture section can do. -/
structure OutsideStep (shared : Shared) (thread : Thread) (shared' : Shared) (thread' : Thread) :
    Prop where
  address : shared'.address = shared.address
  storage : ∀ slot, SameStorage (shared.slots slot) (shared'.slots slot)
  currentSlot : shared'.currentSlot = shared.currentSlot
  activeSlotCount : shared'.activeSlotCount = shared.activeSlotCount
  begun : shared'.begun = shared.begun
  captureLocked : shared'.captureLocked = shared.captureLocked
  active : shared.active = false → shared'.active = false
  notCritical : thread'.critical = false
  owned : ∀ owned, owned ∈ shared'.pool ∨ owned ∈ thread'.owned →
    owned ∈ shared.pool ∨ owned ∈ thread.owned
  balance : ∀ slot, (shared'.slots slot).references + (ownedSlots shared.pool).count slot +
      thread.slots.count slot =
    (shared.slots slot).references + (ownedSlots shared'.pool).count slot +
      thread'.slots.count slot
  touched : ∀ slot, (shared'.slots slot).references ≠ (shared.slots slot).references →
    slot ∈ thread.slots
  dropped : ∀ slot, (shared.slots slot).references ≠ 0 → (shared'.slots slot).references = 0 →
    ∃ back, thread' = .claim slot back
  token : shared'.waitingSlot = shared.waitingSlot ∨ ∃ back, thread' = .signal back
  claimed : ∀ slot back, thread = .claim slot back → shared.waitingSlot = some slot →
    ∃ back, thread' = .signal back
  semaphore : shared.semaphore ≤ shared'.semaphore
  signalled : ∀ back, thread = .signal back → 1 ≤ shared'.semaphore

/-! ### Shapes of steps -/

lemma ownedSlots_append (left right : List Owned) :
    ownedSlots (left ++ right) = ownedSlots left ++ ownedSlots right :=
  List.map_append

lemma sameStorage_setOwnership {shared : Shared} {slot generation references : ℕ}
    (h : (shared.slots slot).generation = generation) (other : ℕ) :
    SameStorage (shared.slots other) ((shared.setOwnership slot generation references).slots other) := by
  by_cases heq : other = slot
  · subst heq
    constructor <;> simp [Shared.setOwnership, Shared.setSlot, h]
  · constructor <;> simp [Shared.setOwnership, Shared.setSlot, heq]

lemma references_setOwnership (shared : Shared) (slot generation references other : ℕ) :
    ((shared.setOwnership slot generation references).slots other).references =
      if other = slot then references else (shared.slots other).references := by
  by_cases heq : other = slot
  · subst heq
    simp [Shared.setOwnership, Shared.setSlot]
  · simp [Shared.setOwnership, Shared.setSlot, heq]

@[simp] lemma pool_setOwnership (shared : Shared) (slot generation references : ℕ) :
    (shared.setOwnership slot generation references).pool = shared.pool := rfl

@[simp] lemma slots_return (shared : Shared) (back : List Owned) :
    (shared.return back).slots = shared.slots := rfl

@[simp] lemma pool_return (shared : Shared) (back : List Owned) :
    (shared.return back).pool = back ++ shared.pool := rfl

section

variable {shared : Shared} {thread thread' : Thread}

/-- A step that only moves the thread on. -/
lemma outsideStep_move (howned : thread'.owned = thread.owned)
    (hreserved : thread'.reserved = thread.reserved) (hcritical : thread'.critical = false)
    (hclaim : ∀ slot back, thread ≠ .claim slot back) (hsignal : ∀ back, thread ≠ .signal back) :
    OutsideStep shared thread shared thread' where
  address := rfl
  storage _ := ⟨rfl, rfl, rfl, rfl⟩
  currentSlot := rfl
  activeSlotCount := rfl
  begun := rfl
  captureLocked := rfl
  active h := h
  notCritical := hcritical
  owned _ h := howned ▸ h
  balance slot := by rw [Thread.slots, Thread.slots, howned, hreserved]
  touched _ h := absurd rfl h
  dropped _ h hzero := absurd hzero h
  token := Or.inl rfl
  claimed slot back h := absurd h (hclaim slot back)
  semaphore := le_rfl
  signalled back h := absurd h (hsignal back)

/-- A step that ends a call and returns its references. -/
lemma outsideStep_return (thread : Thread) (hreserved : thread.reserved = [])
    (hclaim : ∀ slot back, thread = .claim slot back → shared.waitingSlot ≠ some slot)
    (hsignal : ∀ back, thread ≠ .signal back) :
    OutsideStep shared thread (shared.return thread.owned) .idle where
  address := rfl
  storage _ := ⟨rfl, rfl, rfl, rfl⟩
  currentSlot := rfl
  activeSlotCount := rfl
  begun := rfl
  captureLocked := rfl
  active h := h
  notCritical := rfl
  owned owned h := by
    rcases h with h | h
    · exact (List.mem_append.mp h).symm
    · cases h
  balance slot := by
    rw [Shared.return, ownedSlots_append, List.count_append, Thread.slots, hreserved]
    simp only [List.append_nil, Thread.slots, Thread.owned, Thread.reserved, ownedSlots,
      List.map_nil, List.count_nil]
    omega
  touched _ h := absurd rfl h
  dropped _ h hzero := absurd hzero h
  token := Or.inl rfl
  claimed slot back h hwaiting := absurd hwaiting (hclaim slot back h)
  semaphore := le_rfl
  signalled back h := absurd h (hsignal back)

/-- A successful compare-exchange that counts one reference more. -/
lemma outsideStep_acquire {owned : Owned} {references : ℕ}
    (hgeneration : (shared.slots owned.payload.slot).generation = owned.payload.generation)
    (hreferences : (shared.slots owned.payload.slot).references = references)
    (howned : thread.owned = [owned]) (howned' : thread'.owned = [owned, owned])
    (hreserved : thread.reserved = []) (hreserved' : thread'.reserved = [])
    (hcritical : thread'.critical = false)
    (hclaim : ∀ slot back, thread ≠ .claim slot back) (hsignal : ∀ back, thread ≠ .signal back) :
    OutsideStep shared thread
      (shared.setOwnership owned.payload.slot owned.payload.generation (references + 1)) thread' where
  address := rfl
  storage := sameStorage_setOwnership hgeneration
  currentSlot := rfl
  activeSlotCount := rfl
  begun := rfl
  captureLocked := rfl
  active h := h
  notCritical := hcritical
  owned other h := by
    rw [howned'] at h
    rw [howned]
    refine h.imp_right fun hmem => ?_
    simpa using hmem
  balance slot := by
    rw [references_setOwnership, pool_setOwnership]
    simp only [Thread.slots, howned, howned', hreserved, hreserved', ownedSlots, List.map_cons,
      List.map_nil, List.append_nil, List.count_cons, List.count_nil]
    by_cases heq : slot = owned.payload.slot
    · subst heq
      simp only [if_true, beq_self_eq_true, hreferences]
      omega
    · have hne : (owned.payload.slot == slot) = false := beq_false_of_ne (Ne.symm heq)
      simp [heq, hne]
  touched slot h := by
    rw [references_setOwnership] at h
    split at h
    next heq =>
      rw [heq]
      refine mem_slots_of_owned ?_
      rw [howned]
      exact List.mem_cons_self
    next => exact absurd rfl h
  dropped slot h hzero := by
    rw [references_setOwnership] at hzero
    split at hzero
    next => cases hzero
    next => exact absurd hzero h
  token := Or.inl rfl
  claimed slot back h := absurd h (hclaim slot back)
  semaphore := le_rfl
  signalled back h := absurd h (hsignal back)

/-- A successful compare-exchange that drops one reference; the rest of the
thread's references stay with it or go to the pool. -/
lemma outsideStep_drop {owned : Owned} {references : ℕ} (rest back : List Owned)
    (hgeneration : (shared.slots owned.payload.slot).generation = owned.payload.generation)
    (hreferences : (shared.slots owned.payload.slot).references = references)
    (hpos : references ≠ 0) (howned : thread.owned = owned :: (rest ++ back))
    (howned' : thread'.owned = rest)
    (hreserved : thread.reserved = []) (hreserved' : thread'.reserved = [])
    (hlast : references = 1 → ∃ back, thread' = .claim owned.payload.slot back)
    (hcritical : thread'.critical = false)
    (hclaim : ∀ slot back, thread ≠ .claim slot back) (hsignal : ∀ back, thread ≠ .signal back) :
    OutsideStep shared thread
      ((shared.setOwnership owned.payload.slot owned.payload.generation
        (references - 1)).return back) thread' where
  address := rfl
  storage := sameStorage_setOwnership hgeneration
  currentSlot := rfl
  activeSlotCount := rfl
  begun := rfl
  captureLocked := rfl
  active h := h
  notCritical := hcritical
  owned other h := by
    rw [howned'] at h
    rw [howned]
    rcases h with h | h
    · rcases List.mem_append.mp h with h | h
      · exact Or.inr (List.mem_cons_of_mem _ (List.mem_append_right _ h))
      · exact Or.inl h
    · exact Or.inr (List.mem_cons_of_mem _ (List.mem_append_left _ h))
  balance slot := by
    rw [slots_return, pool_return, pool_setOwnership, references_setOwnership, ownedSlots_append, List.count_append, Thread.slots,
      Thread.slots, howned, howned', hreserved, hreserved']
    simp only [ownedSlots, List.map_cons, List.map_append, List.append_nil, List.count_cons,
      List.count_append]
    by_cases heq : slot = owned.payload.slot
    · subst heq
      simp only [if_true, beq_self_eq_true, hreferences]
      omega
    · have hne : (owned.payload.slot == slot) = false := beq_false_of_ne (Ne.symm heq)
      rw [if_neg heq, hne]
      simp only [Bool.false_eq_true, if_false]
      omega
  touched slot h := by
    rw [slots_return, references_setOwnership] at h
    split at h
    next heq =>
      rw [heq]
      refine mem_slots_of_owned ?_
      rw [howned]
      exact List.mem_cons_self
    next => exact absurd rfl h
  dropped slot h hzero := by
    rw [slots_return, references_setOwnership] at hzero
    split at hzero
    next heq =>
      rw [heq]
      exact hlast (by omega)
    next => exact absurd hzero h
  token := Or.inl rfl
  claimed slot back h := absurd h (hclaim slot back)
  semaphore := le_rfl
  signalled back h := absurd h (hsignal back)

/-! ### The calls -/

variable {shared' : Shared} {bit : Bool}

lemma outside_retain {owned : Owned} {pc : RetainPc}
    (h : stepRetain shared owned bit pc = some (shared', thread'))
    (hread : Readable shared owned) (hrefs : (shared.slots owned.payload.slot).references ≠ 0)
    (hlocal : (Thread.retain owned pc).LocalOk shared) :
    OutsideStep shared (.retain owned pc) shared' thread' ∧ thread'.LocalOk shared' := by
  have hgeneration := hread.generation
  have hback : ∀ pc, RetainPc.acquired pc = false → OutsideStep shared (.retain owned pc)
      (shared.return [owned]) .idle := fun pc hpc => by
    have howned : (Thread.retain owned pc).owned = [owned] := by rw [Thread.owned, hpc]; rfl
    rw [← howned]
    exact outsideStep_return _ rfl (fun _ _ h => nomatch h) (fun _ h => nomatch h)
  cases pc with
  | committedLoad =>
    rw [stepRetain] at h
    split at h <;> cases h
    · exact ⟨hback _ rfl, trivial⟩
    · exact ⟨outsideStep_move rfl rfl rfl (fun _ _ h => nomatch h) (fun _ h => nomatch h), trivial⟩
  | ownershipLoad =>
    simp only [stepRetain] at h
    split at h <;> cases h
    · exact ⟨hback _ rfl, trivial⟩
    · exact ⟨outsideStep_move rfl rfl rfl (fun _ _ h => nomatch h) (fun _ h => nomatch h), trivial⟩
  | cas generation references =>
    simp only [stepRetain] at h
    split at h
    next =>
      cases h
      exact ⟨hback _ rfl, trivial⟩
    next hold =>
      split at h <;> cases h
      · exact ⟨outsideStep_move rfl rfl rfl (fun _ _ h => nomatch h) (fun _ h => nomatch h), trivial⟩
      next hsame =>
        simp only [Bool.or_eq_true, not_or, bne_iff_ne, ne_eq, not_not] at hsame hold
        rw [hold.1]
        exact ⟨outsideStep_acquire hgeneration hsame.2 rfl rfl rfl rfl rfl (fun _ _ h => nomatch h)
          (fun _ h => nomatch h), trivial⟩
  | confirmCommitted =>
    rw [stepRetain] at h
    split at h <;> cases h
    all_goals
      exact ⟨outsideStep_move rfl rfl rfl (fun _ _ h => nomatch h) (fun _ h => nomatch h), trivial⟩
  | confirmActive =>
    rw [stepRetain] at h
    split at h <;> cases h
    all_goals
      exact ⟨outsideStep_move rfl rfl rfl (fun _ _ h => nomatch h) (fun _ h => nomatch h), trivial⟩
  | confirmAccepting =>
    rw [stepRetain] at h
    split at h <;> cases h
    · exact ⟨outsideStep_move rfl rfl rfl (fun _ _ h => nomatch h) (fun _ h => nomatch h), trivial⟩
    · have howned : (Thread.retain owned .confirmAccepting).owned = [owned, owned] := rfl
      rw [← howned]
      exact ⟨outsideStep_return _ rfl (fun _ _ h => nomatch h) (fun _ h => nomatch h), trivial⟩
  | rollbackLoad =>
    cases h
    exact ⟨outsideStep_move rfl rfl rfl (fun _ _ h => nomatch h) (fun _ h => nomatch h),
      hgeneration, hrefs⟩
  | rollbackCas generation references =>
    simp only [stepRetain] at h
    split at h
    next hlost => exact absurd hlost (not_or.mpr ⟨not_not.mpr hlocal.1, hlocal.2⟩)
    next =>
      split at h
      next =>
        cases h
        exact ⟨outsideStep_move rfl rfl rfl (fun _ _ h => nomatch h) (fun _ h => nomatch h),
          hgeneration, hrefs⟩
      next hsame =>
        simp only [Bool.or_eq_true, not_or, bne_iff_ne, ne_eq, not_not] at hsame
        rw [hlocal.1] at h
        split at h <;> cases h
        next hlast =>
          refine ⟨outsideStep_drop [owned] [] hgeneration hsame.2 hlocal.2 rfl rfl
            rfl rfl (fun _ => ⟨_, rfl⟩) rfl (fun _ _ h => nomatch h) (fun _ h => nomatch h), trivial⟩
        next hmore =>
          refine ⟨outsideStep_drop [] [owned] hgeneration hsame.2 hlocal.2 rfl rfl
            rfl rfl (fun hlast => absurd hlast hmore) rfl (fun _ _ h => nomatch h)
            (fun _ h => nomatch h), trivial⟩

lemma outside_release {owned : Owned} {pc : ReleasePc}
    (h : stepRelease shared owned bit pc = some (shared', thread'))
    (hread : Readable shared owned) (hrefs : (shared.slots owned.payload.slot).references ≠ 0)
    (hlocal : (Thread.release owned pc).LocalOk shared) :
    OutsideStep shared (.release owned pc) shared' thread' ∧ thread'.LocalOk shared' := by
  have hgeneration := hread.generation
  cases pc with
  | ownershipLoad =>
    simp only [stepRelease] at h
    split at h <;> cases h
    next hmalformed =>
      have hwell := hread.wellFormed
      simp only [Shared.wellFormed, Bool.and_eq_true, beq_iff_eq, decide_eq_true_eq] at hwell
      simp [hwell.1.1.1, hwell.1.1.2, Nat.not_le.mpr hwell.1.2] at hmalformed
    next =>
      exact ⟨outsideStep_move rfl rfl rfl (fun _ _ h => nomatch h) (fun _ h => nomatch h),
        hgeneration, hrefs⟩
  | cas generation references =>
    simp only [stepRelease] at h
    split at h
    next hlost => exact absurd hlost (not_or.mpr ⟨not_not.mpr hlocal.1, hlocal.2⟩)
    next =>
      split at h
      next =>
        cases h
        exact ⟨outsideStep_move rfl rfl rfl (fun _ _ h => nomatch h) (fun _ h => nomatch h),
          hgeneration, hrefs⟩
      next hsame =>
        simp only [Bool.or_eq_true, not_or, bne_iff_ne, ne_eq, not_not] at hsame
        rw [hlocal.1] at h
        split at h <;> cases h
        next hlast =>
          refine ⟨outsideStep_drop [] [] hgeneration hsame.2 hlocal.2 rfl rfl
            rfl rfl (fun _ => ⟨_, rfl⟩) rfl (fun _ _ h => nomatch h) (fun _ h => nomatch h), trivial⟩
        next hmore =>
          refine ⟨outsideStep_drop [] [] hgeneration hsame.2 hlocal.2 rfl rfl
            rfl rfl (fun hlast => absurd hlast hmore) rfl (fun _ _ h => nomatch h)
            (fun _ h => nomatch h), trivial⟩

/-- The accepting flag is nobody's concern. -/
lemma OutsideStep.setAccepting (h : OutsideStep shared thread shared' thread') (value : Bool) :
    OutsideStep shared thread { shared' with accepting := value } thread' :=
  { h with }

/-- A store to the published offset or to the fetch guard of a slot. -/
lemma outsideStep_setSlot {slot : ℕ} {value : Slot} (hsame : SameStorage (shared.slots slot) value)
    (hreferences : value.references = (shared.slots slot).references)
    (howned : thread'.owned = thread.owned) (hreserved : thread'.reserved = thread.reserved)
    (hcritical : thread'.critical = false)
    (hclaim : ∀ slot back, thread ≠ .claim slot back) (hsignal : ∀ back, thread ≠ .signal back) :
    OutsideStep shared thread (shared.setSlot slot value) thread' := by
  have hslots : ∀ other, SameStorage (shared.slots other) ((shared.setSlot slot value).slots other) ∧
      ((shared.setSlot slot value).slots other).references = (shared.slots other).references := by
    intro other
    by_cases heq : other = slot
    · subst heq
      simpa [Shared.setSlot, hreferences] using hsame
    · simpa [Shared.setSlot, heq] using (⟨rfl, rfl, rfl, rfl⟩ : SameStorage _ _)
  have hmove : OutsideStep shared thread shared thread' :=
    outsideStep_move howned hreserved hcritical hclaim hsignal
  exact
    { hmove with
      storage := fun other => (hslots other).1
      balance := fun other => by rw [(hslots other).2]; exact hmove.balance other
      touched := fun other h => absurd (hslots other).2 h
      dropped := fun other h hzero => absurd ((hslots other).2 ▸ hzero) h }

lemma outside_publish {borrowed : List Owned} {pc : PublishPc}
    (h : stepPublish shared borrowed bit pc = some (shared', thread')) :
    OutsideStep shared (.publish borrowed pc) shared' thread' ∧ thread'.LocalOk shared' := by
  have hback : ∀ pc, OutsideStep shared (.publish borrowed pc) (shared.return borrowed) .idle :=
    fun pc => outsideStep_return (.publish borrowed pc) rfl (fun _ _ h => nomatch h)
      (fun _ h => nomatch h)
  have hmove : ∀ pc pc', OutsideStep shared (.publish borrowed pc) shared (.publish borrowed pc') :=
    fun pc pc' => outsideStep_move rfl rfl rfl (fun _ _ h => nomatch h) (fun _ h => nomatch h)
  cases pc with
  | entry =>
    simp only [stepPublish] at h
    split at h
    next =>
      cases h
      exact ⟨hback _, trivial⟩
    next =>
      split at h <;> cases h
      · exact ⟨hback _, trivial⟩
      · exact ⟨hmove _ _, trivial⟩
  | live pending =>
    cases pending with
    | nil =>
      cases h
      exact ⟨hback _, trivial⟩
    | cons payload rest =>
      simp only [stepPublish] at h
      split at h <;> cases h
      · exact ⟨hback _, trivial⟩
      · exact ⟨hmove _ _, trivial⟩
  | fetchGuardLoad payload rest =>
    simp only [stepPublish] at h
    split at h <;> cases h
    all_goals exact ⟨hmove _ _, trivial⟩
  | scan payload rest =>
    simp only [stepPublish] at h
    split at h <;> cases h
    all_goals exact ⟨hmove _ _, trivial⟩
  | refuse =>
    cases h
    exact ⟨(hback _).setAccepting false, trivial⟩
  | liveAfterScan payload rest =>
    simp only [stepPublish] at h
    split at h <;> cases h
    · exact ⟨hback _, trivial⟩
    · exact ⟨hmove _ _, trivial⟩
  | fetchGuardStore payload rest =>
    cases h
    exact ⟨outsideStep_setSlot ⟨rfl, rfl, rfl, rfl⟩ rfl rfl rfl rfl (fun _ _ h => nomatch h)
      (fun _ h => nomatch h), trivial⟩
  | committedLoad payload rest =>
    cases h
    exact ⟨hmove _ _, trivial⟩
  | publishedLoad payload rest committed =>
    simp only [stepPublish] at h
    split at h
    next =>
      cases h
      exact ⟨hmove _ _, trivial⟩
    next =>
      split at h <;> cases h
      · exact ⟨hback _, trivial⟩
      · exact ⟨hmove _ _, trivial⟩
  | liveBeforeStore payload rest committed =>
    simp only [stepPublish] at h
    split at h <;> cases h
    · exact ⟨hback _, trivial⟩
    · exact ⟨hmove _ _, trivial⟩
  | publishedStore payload rest committed =>
    cases h
    exact ⟨outsideStep_setSlot ⟨rfl, rfl, rfl, rfl⟩ rfl rfl rfl rfl (fun _ _ h => nomatch h)
      (fun _ h => nomatch h), trivial⟩

/-- A resolution of a readable reference fails only when the ring is not active. -/
lemma outside_resolve {owned : Owned} {requirePublished : Bool} {pc : ResolvePc}
    (h : stepResolve shared owned requirePublished pc = some (shared', thread'))
    (hread : Readable shared owned) (hrefs : (shared.slots owned.payload.slot).references ≠ 0)
    (hlocal : (Thread.resolve owned requirePublished pc).LocalOk shared) :
    OutsideStep shared (.resolve owned requirePublished pc) shared' thread' ∧
      thread'.LocalOk shared' := by
  have hgeneration := hread.generation
  have hwell := hread.wellFormed
  simp only [Shared.wellFormed, Bool.and_eq_true, beq_iff_eq, decide_eq_true_eq] at hwell
  have hmove : ∀ pc pc', OutsideStep shared (.resolve owned requirePublished pc) shared
      (.resolve owned requirePublished pc') :=
    fun pc pc' => outsideStep_move rfl rfl rfl (fun _ _ h => nomatch h) (fun _ h => nomatch h)
  cases pc with
  | activeLoad =>
    simp only [stepResolve] at h
    split at h <;> cases h
    next hrejected =>
      refine ⟨hmove _ _, ?_⟩
      simp [hwell.1.1.1, hwell.1.1.2, Nat.not_le.mpr hwell.1.2] at hrejected
      exact Or.inr hrejected
    next => exact ⟨hmove _ _, trivial⟩
  | ownershipLoad =>
    cases h
    exact ⟨hmove _ _, hgeneration, hrefs⟩
  | committedLoad generation references =>
    cases h
    exact ⟨hmove _ _, hlocal.1, hlocal.2, hread.committed⟩
  | publishedLoad generation references committed =>
    simp only [stepResolve] at h
    split at h <;> cases h
    next hrejected =>
      refine ⟨hmove _ _, ?_⟩
      simp [hread.mapped, hlocal.1, hwell.2, Nat.not_lt.mpr hlocal.2.2, hlocal.2.1] at hrejected
      exact Or.inl hrejected.1
    next => exact ⟨hmove _ _, trivial⟩
  | confirm =>
    simp only [stepResolve] at h
    split at h <;> cases h
    next hrejected =>
      simp [Shared.isLive, hgeneration, hrefs] at hrejected
    next => exact ⟨hmove _ _, rfl⟩
  | done result =>
    cases h
    exact ⟨outsideStep_return (.resolve owned requirePublished (.done result)) rfl
      (fun _ _ h => nomatch h) (fun _ h => nomatch h), trivial⟩

lemma outside_shutdown {pc : ShutdownPc} (h : stepShutdown shared pc = some (shared', thread')) :
    OutsideStep shared (.shutdown pc) shared' thread' ∧ thread'.LocalOk shared' := by
  have hmove : ∀ pc pc', OutsideStep shared (.shutdown pc) shared (.shutdown pc') :=
    fun pc pc' => outsideStep_move rfl rfl rfl (fun _ _ h => nomatch h) (fun _ h => nomatch h)
  cases pc with
  | clearActive =>
    cases h
    exact ⟨{ hmove _ _ with active := fun _ => rfl }, trivial⟩
  | clearAccepting =>
    cases h
    exact ⟨(hmove _ _).setAccepting false, trivial⟩
  | exchange =>
    simp only [stepShutdown] at h
    split at h <;> cases h
    · exact ⟨outsideStep_return (.shutdown .exchange) rfl (fun _ _ h => nomatch h)
        (fun _ h => nomatch h), trivial⟩
    · have hclaim : OutsideStep shared (.shutdown .exchange) shared (.signal []) :=
        outsideStep_move rfl rfl rfl (fun _ _ h => nomatch h) (fun _ h => nomatch h)
      exact ⟨{ hclaim with token := Or.inr ⟨_, rfl⟩ }, trivial⟩

lemma outside_claim (shared : Shared) (slot : ℕ) (back : List Owned) :
    OutsideStep shared (.claim slot back) (stepClaim shared slot back).1
        (stepClaim shared slot back).2 ∧
      (stepClaim shared slot back).2.LocalOk (stepClaim shared slot back).1 := by
  rw [stepClaim]
  split
  next hwaiting =>
    have hback : ∀ other, (Thread.signal back).slots.count other =
        (Thread.claim slot back).slots.count other := fun _ => rfl
    exact ⟨⟨rfl, fun _ => ⟨rfl, rfl, rfl, rfl⟩, rfl, rfl, rfl, rfl, fun h => h, rfl, fun _ h => h,
      fun other => by rw [hback], fun _ h => absurd rfl h, fun _ h hzero => absurd hzero h,
      Or.inr ⟨_, rfl⟩, fun _ _ _ _ => ⟨_, rfl⟩, le_rfl, fun _ h => nomatch h⟩, trivial⟩
  next hwaiting =>
    refine ⟨outsideStep_return (.claim slot back) rfl (fun other _ h => ?_)
      (fun _ h => nomatch h), trivial⟩
    cases h
    exact hwaiting

lemma outside_signal (shared : Shared) (back : List Owned) :
    OutsideStep shared (.signal back) (stepSignal shared back).1 (stepSignal shared back).2 ∧
      (stepSignal shared back).2.LocalOk (stepSignal shared back).1 := by
  have hslots : (Thread.signal back).slots = ownedSlots back := List.append_nil _
  rw [stepSignal]
  refine ⟨⟨rfl, fun _ => ⟨rfl, rfl, rfl, rfl⟩, rfl, rfl, rfl, rfl, fun h => h, rfl,
    fun owned h => ?_, fun slot => ?_, fun _ h => absurd rfl h, fun _ h hzero => absurd hzero h,
    Or.inl rfl, fun _ _ h => (nomatch h), ?_, fun _ _ => ?_⟩, trivial⟩
  · rcases h with h | h
    · exact (List.mem_append.mp h).symm
    · cases h
  · simp only [hslots, pool_return, slots_return, ownedSlots_append, List.count_append]
    simp only [Thread.slots, Thread.owned, Thread.reserved, ownedSlots, List.map_nil,
      List.append_nil, List.count_nil]
    omega
  · dsimp only
    split <;> omega
  · dsimp only
    split <;> omega

/-- Every step of a thread that is not capturing is one outside the capture section. -/
theorem outside_step (h : thread.step shared bit = some (shared', thread'))
    (hcapture : ∀ request pc, thread ≠ .capture request pc)
    (hread : ∀ owned ∈ thread.owned, Readable shared owned)
    (hrefs : ∀ slot ∈ thread.slots, (shared.slots slot).references ≠ 0)
    (hlocal : thread.LocalOk shared) :
    OutsideStep shared thread shared' thread' ∧ thread'.LocalOk shared' := by
  cases thread with
  | idle => cases h
  | capture request pc => exact absurd rfl (hcapture request pc)
  | retain owned pc =>
    have hmem : owned ∈ (Thread.retain owned pc).owned := by
      rw [Thread.owned]
      split <;> exact List.mem_cons_self
    exact outside_retain h (hread owned hmem) (hrefs _ (mem_slots_of_owned hmem)) hlocal
  | release owned pc =>
    have hmem : owned ∈ (Thread.release owned pc).owned := List.mem_cons_self
    exact outside_release h (hread owned hmem) (hrefs _ (mem_slots_of_owned hmem)) hlocal
  | publish borrowed pc => exact outside_publish h
  | resolve owned requirePublished pc =>
    have hmem : owned ∈ (Thread.resolve owned requirePublished pc).owned := List.mem_cons_self
    exact outside_resolve h (hread owned hmem) (hrefs _ (mem_slots_of_owned hmem)) hlocal
  | shutdown pc => exact outside_shutdown h
  | claim slot back =>
    have hclaim := outside_claim shared slot back
    rw [Option.some.inj h] at hclaim
    exact hclaim
  | signal back =>
    have hsignal := outside_signal shared back
    rw [Option.some.inj h] at hsignal
    exact hsignal

/-! ### The begin of a call -/

lemma takeOwned_perm {positions : List ℕ} {pool taken rest : List Owned}
    (h : takeOwned positions pool = some (taken, rest)) : pool.Perm (taken ++ rest) := by
  induction positions generalizing pool taken with
  | nil =>
    cases h
    exact List.Perm.refl _
  | cons position positions ih =>
    rw [takeOwned] at h
    split at h
    next => cases h
    next owned hget =>
      obtain ⟨⟨others, left⟩, htake, heq⟩ := Option.map_eq_some_iff.mp h
      cases heq
      obtain ⟨hlt, hvalue⟩ := List.getElem?_eq_some_iff.mp hget
      have hperm := List.getElem_cons_eraseIdx_perm hlt
      rw [hvalue] at hperm
      exact hperm.symm.trans ((ih htake).cons owned)

/-- Taking references out of the pool for a call. -/
lemma outsideStep_take {taken pool : List Owned} (hperm : shared.pool.Perm (taken ++ pool))
    (howned : thread'.owned = taken) (hreserved : thread'.reserved = [])
    (hcritical : thread'.critical = false) :
    OutsideStep shared .idle { shared with pool := pool } thread' where
  address := rfl
  storage _ := ⟨rfl, rfl, rfl, rfl⟩
  currentSlot := rfl
  activeSlotCount := rfl
  begun := rfl
  captureLocked := rfl
  active h := h
  notCritical := hcritical
  owned owned h := by
    refine Or.inl (hperm.mem_iff.mpr (List.mem_append.mpr ?_))
    rw [howned] at h
    exact h.symm
  balance slot := by
    have hcount := (hperm.map fun reference => reference.payload.slot).count_eq slot
    rw [List.map_append, List.count_append] at hcount
    have hslots : thread'.slots = ownedSlots taken := by
      rw [Thread.slots, howned, hreserved, List.append_nil]
    have hidle : Thread.idle.slots.count slot = 0 := rfl
    rw [hslots, hidle, ownedSlots, ownedSlots, ownedSlots]
    dsimp only
    omega
  touched _ h := absurd rfl h
  dropped _ h hzero := absurd hzero h
  token := Or.inl rfl
  claimed _ _ h := nomatch h
  semaphore := le_rfl
  signalled _ h := nomatch h

theorem outside_call {call : Call} (h : beginCall shared call = some (shared', thread')) :
    OutsideStep shared .idle shared' thread' ∧ thread'.LocalOk shared' := by
  cases call with
  | capture request =>
    cases h
    exact ⟨outsideStep_move rfl rfl rfl (fun _ _ h => nomatch h) (fun _ h => nomatch h), trivial⟩
  | shutdown =>
    cases h
    exact ⟨outsideStep_move rfl rfl rfl (fun _ _ h => nomatch h) (fun _ h => nomatch h), trivial⟩
  | retain position =>
    simp only [beginCall] at h
    split at h <;> cases h
    next htake => exact ⟨outsideStep_take (takeOwned_perm htake) rfl rfl rfl, trivial⟩
  | release position =>
    simp only [beginCall] at h
    split at h <;> cases h
    next htake => exact ⟨outsideStep_take (takeOwned_perm htake) rfl rfl rfl, trivial⟩
  | publish positions =>
    simp only [beginCall] at h
    split at h <;> cases h
    next htake => exact ⟨outsideStep_take (takeOwned_perm htake) rfl rfl rfl, trivial⟩
  | resolve position requirePublished =>
    simp only [beginCall] at h
    split at h <;> cases h
    next htake => exact ⟨outsideStep_take (takeOwned_perm htake) rfl rfl rfl, trivial⟩

end

end VitaSX2.InputRing
