/-
The invariant of the input ring holds in every reachable state, and what it says
of ownership, identities, resolutions and wakeups.
-/
import VitaSX2.InputRing.Inside
import Mathlib.Tactic.FinCases

namespace VitaSX2.InputRing

open Vif

section

variable {n : ℕ} {state : State n} {thread : Fin n} {shared' : Shared} {thread' : Thread}

/-! ### Threads that do not move -/

/-- What a thread outside the section knows concerns at most the active ring. -/
lemma Thread.LocalOk.of_active {shared : Shared} {other : Thread} (h : other.LocalOk shared)
    (hcritical : other.critical = false)
    (hactive : shared.active = false → shared'.active = false) : other.LocalOk shared' := by
  cases other with
  | idle => exact trivial
  | capture request pc =>
    cases pc with
    | entryActive => exact trivial
    | entryAccepting => exact h
    | lock => exact h
    | _ => cases hcritical
  | retain owned pc => cases pc <;> exact h
  | release owned pc => cases pc <;> exact h
  | publish borrowed pc => exact trivial
  | resolve owned requirePublished pc =>
    cases pc with
    | done result =>
      simp only [Thread.LocalOk] at h ⊢
      split at h
      next hnone => exact if_pos hnone ▸ h.imp_right hactive
      next hsome => exact if_neg hsome ▸ h
    | _ => exact h
  | shutdown pc => exact trivial
  | claim slot back => exact trivial
  | signal back => exact trivial

/-- What the capture in the section knows survives the steps of the others. -/
lemma captureOk_of_outside {shared : Shared} {other : Thread} {request : CaptureRequest}
    {pc : CapturePc} (h : CaptureOk shared request pc)
    (hout : OutsideStep shared other shared' thread')
    (hone : ∀ slot ∈ pc.reserved, (shared.slots slot).references = 1 →
      (shared'.slots slot).references = 1)
    (hzero : ∀ slot, (shared.slots slot).references = 0 → (shared'.slots slot).references = 0) :
    CaptureOk shared' request pc := by
  have hfits : ∀ {slot offset size}, Fits shared slot offset size → Fits shared' slot offset size :=
    fun {slot _ _} hfits => ⟨(hout.storage slot).writeOffset ▸ hfits.above, hfits.range⟩
  cases pc with
  | appendLoad offset => exact ⟨h.1, hout.currentSlot ▸ hfits h.2⟩
  | appendCas offset generation references => exact ⟨h.1, hout.currentSlot ▸ hfits h.2⟩
  | resetCommitted slot offset generation =>
    obtain ⟨hsize, hslot, hfit, hbegun, hgeneration, href⟩ := h
    exact ⟨hsize, hslot.trans hout.currentSlot.symm, hfits hfit, hout.begun ▸ hbegun,
      (hout.storage slot).generation.trans hgeneration, hone slot List.mem_cons_self href⟩
  | resetPublished slot offset generation =>
    obtain ⟨hsize, hslot, hfit, hbegun, hgeneration, href⟩ := h
    exact ⟨hsize, hslot.trans hout.currentSlot.symm, hfits hfit, hout.begun ▸ hbegun,
      (hout.storage slot).generation.trans hgeneration, hone slot List.mem_cons_self href⟩
  | resetFetchGuard slot offset generation =>
    obtain ⟨hsize, hslot, hfit, hbegun, hgeneration, href⟩ := h
    exact ⟨hsize, hslot.trans hout.currentSlot.symm, hfits hfit, hout.begun ▸ hbegun,
      (hout.storage slot).generation.trans hgeneration, hone slot List.mem_cons_self href⟩
  | copy slot offset generation =>
    obtain ⟨hsize, hslot, hfit, hbegun, hgeneration⟩ := h
    exact ⟨hsize, hslot.trans hout.currentSlot.symm, hfits hfit, hout.begun ▸ hbegun,
      (hout.storage slot).generation.trans hgeneration⟩
  | commit slot offset generation =>
    obtain ⟨hsize, hslot, hrange, hbegun, hgeneration, hwrite, hbytes⟩ := h
    exact ⟨hsize, hslot.trans hout.currentSlot.symm, hrange, hout.begun ▸ hbegun,
      (hout.storage slot).generation.trans hgeneration,
      (hout.storage slot).writeOffset.trans hwrite, (hout.storage slot).bytes ▸ hbytes⟩
  | candidateLoad next => exact ⟨h.1, hout.activeSlotCount ▸ h.2⟩
  | scan next generation => exact ⟨h.1, hout.activeSlotCount ▸ h.2⟩
  | recycleCas next generation => exact ⟨h.1, hout.activeSlotCount ▸ h.2⟩
  | recycleCommitted next => exact ⟨h.1, hout.activeSlotCount ▸ h.2.1, hzero next h.2.2⟩
  | recyclePublished next => exact ⟨h.1, hout.activeSlotCount ▸ h.2.1, hzero next h.2.2⟩
  | recycleFetchGuard next => exact ⟨h.1, hout.activeSlotCount ▸ h.2.1, hzero next h.2.2⟩
  | _ => exact h

/-! ### The token of the waiter -/

lemma next_threads_self (result : Shared × Thread) :
    (state.next thread result).threads thread = result.2 :=
  Function.update_self ..

lemma next_threads_ne {other : Fin n} (hne : other ≠ thread) (result : Shared × Thread) :
    (state.next thread result).threads other = state.threads other :=
  Function.update_of_ne hne ..

lemma Handed.next (h : state.Handed)
    (hout : OutsideStep state.shared (state.threads thread) shared' thread') :
    (state.next thread (shared', thread')).Handed := by
  rcases h with ⟨other, back, hother⟩ | hsemaphore
  · by_cases heq : other = thread
    · subst heq
      exact Or.inr (hout.signalled back hother)
    · exact Or.inl ⟨other, back, (next_threads_ne heq _).trans hother⟩
  · exact Or.inr (hsemaphore.trans hout.semaphore)

/-- A step of another thread that takes the token goes on to signal. -/
lemma handed_of_signal (h : ∃ back, thread' = .signal back) :
    (state.next thread (shared', thread')).Handed := by
  obtain ⟨back, rfl⟩ := h
  exact Or.inl ⟨thread, back, next_threads_self _⟩

lemma Published.next {next : ℕ} (h : state.Published next)
    (hout : OutsideStep state.shared (state.threads thread) shared' thread') :
    (state.next thread (shared', thread')).Published next := by
  rcases h with hwaiting | hhanded
  · exact hout.token.imp (fun htoken => htoken.trans hwaiting) handed_of_signal
  · exact Or.inr (Handed.next hhanded hout)

/-- A waiter stays awaited: who drops the last reference claims the token next. -/
lemma Awaited.next {next : ℕ} (h : state.Awaited next)
    (hout : OutsideStep state.shared (state.threads thread) shared' thread') :
    (state.next thread (shared', thread')).Awaited next := by
  rcases h with ⟨hwaiting, hpending⟩ | hhanded
  · rcases hout.token with htoken | hsignal
    · by_cases hclaim : ∃ back, state.threads thread = .claim next back
      · obtain ⟨back, hclaim⟩ := hclaim
        exact Or.inr (handed_of_signal (hout.claimed next back hclaim hwaiting))
      · refine Or.inl ⟨htoken.trans hwaiting, ?_⟩
        rcases hpending with hreferences | ⟨other, back, hother⟩
        · by_cases hzero : (shared'.slots next).references = 0
          · obtain ⟨back, hback⟩ := hout.dropped next hreferences hzero
            exact Or.inr ⟨thread, back, (next_threads_self _).trans hback⟩
          · exact Or.inl hzero
        · have hne : other ≠ thread := by
            rintro rfl
            exact hclaim ⟨back, hother⟩
          exact Or.inr ⟨other, back, (next_threads_ne hne _).trans hother⟩
    · exact Or.inr (handed_of_signal hsignal)
  · exact Or.inr (Handed.next hhanded hout)

lemma tokenOk_next {other : Thread} (h : state.TokenOk other)
    (hout : OutsideStep state.shared (state.threads thread) shared' thread') :
    (state.next thread (shared', thread')).TokenOk other := by
  cases other with
  | capture request pc =>
    cases pc with
    | recheckAccepting next => exact Published.next h hout
    | recheckReferences next => exact Published.next h hout
    | withdraw next => exact Published.next h hout
    | wait next => exact Awaited.next h hout
    | _ => exact trivial
  | _ => exact trivial

/-- Only a capture in the section is concerned with the token. -/
lemma tokenOk_of_not_critical {other : Thread} (hcritical : other.critical = false) :
    state.TokenOk other := by
  cases other with
  | capture request pc =>
    cases pc with
    | recheckAccepting next => cases hcritical
    | recheckReferences next => cases hcritical
    | withdraw next => cases hcritical
    | wait next => cases hcritical
    | _ => exact trivial
  | _ => exact trivial

/-! ### Preservation -/

/-- Steps outside the section keep a count at zero, and at one for its only owner. -/
lemma references_of_outside (h : Invariant state)
    (hout : OutsideStep state.shared (state.threads thread) shared' thread') :
    (∀ slot, (state.shared.slots slot).references = 0 → (shared'.slots slot).references = 0) ∧
      ∀ other, other ≠ thread → ∀ slot ∈ (state.threads other).slots,
        (state.shared.slots slot).references = 1 → (shared'.slots slot).references = 1 := by
  refine ⟨fun slot hzero => ?_, fun other hne slot hslot hone => ?_⟩
  · by_contra hchanged
    have htouched := hout.touched slot fun heq => hchanged (heq.trans hzero)
    exact h.references_ne_zero htouched hzero
  · by_contra hchanged
    have htouched := hout.touched slot fun heq => hchanged (heq.trans hone)
    exact (h.not_mem_of_references_eq_one hone hslot).2 thread (Ne.symm hne) htouched

theorem Invariant.outside (h : Invariant state)
    (hout : OutsideStep state.shared (state.threads thread) shared' thread')
    (hlocal : thread'.LocalOk shared') :
    Invariant (state.next thread (shared', thread')) := by
  obtain ⟨hzero, hone⟩ := references_of_outside h hout
  have hread : ∀ owned, Readable state.shared owned → Readable shared' owned := fun owned hread =>
    hread.of_sameStorage hout.address hout.activeSlotCount (hout.storage _)
      fun _ hentry => hout.begun ▸ hentry
  have hmine : ∀ owned, owned ∈ shared'.pool ∨ owned ∈ thread'.owned → Readable shared' owned :=
    fun owned hmem => (hout.owned owned hmem).elim (fun hpool => hread _ (h.pool _ hpool))
      fun howned => hread _ (h.owned thread _ howned)
  have hcritical : ∀ other, ((state.next thread (shared', thread')).threads other).critical = true →
      other ≠ thread ∧ (state.threads other).critical = true := by
    intro other hother
    by_cases heq : other = thread
    · rw [heq, next_threads_self, hout.notCritical] at hother
      cases hother
    · rw [next_threads_ne heq] at hother
      exact ⟨heq, hother⟩
  have hgeneration := fun slot => (hout.storage slot).generation
  refine ⟨?_, ?_, ?_, ?_, fun slot generation hmem => ?_, fun slot generation hmem => ?_,
    fun slot hne => ?_, fun slot => ?_, fun owned howned => hmine owned (Or.inl howned),
    fun other owned howned => ?_, fun other => ?_, fun other => ?_, fun other hother => ?_,
    fun other third hother hthird => ?_⟩
  · exact hout.address ▸ h.address
  · exact hout.activeSlotCount ▸ h.slotCount
  · exact hout.currentSlot ▸ hout.activeSlotCount ▸ h.currentSlot
  · exact hout.begun ▸ h.begun_nodup
  · exact hgeneration slot ▸ h.begun_le slot generation (hout.begun ▸ hmem)
  · exact h.begun_pos slot generation (hout.begun ▸ hmem)
  · exact hout.begun ▸ hgeneration slot ▸ h.begun_current slot fun hold => hne (hzero slot hold)
  · have hbalance := hout.balance slot
    have hcounts := h.counts slot
    have hnext := outstanding_next state thread (shared', thread') slot
    dsimp only [State.next] at hnext ⊢
    omega
  · by_cases heq : other = thread
    · rw [heq, next_threads_self] at howned
      exact hmine owned (Or.inr howned)
    · rw [next_threads_ne heq] at howned
      exact hread _ (h.owned other _ howned)
  · by_cases heq : other = thread
    · rw [heq, next_threads_self]
      exact hlocal
    · rw [next_threads_ne heq]
      have hother := h.localOk other
      by_cases hcritical : (state.threads other).critical = true
      · cases hcase : state.threads other with
        | capture request pc =>
          rw [hcase] at hother
          refine captureOk_of_outside hother hout (fun slot hslot hold => ?_) hzero
          refine hone other heq slot ?_ hold
          rw [hcase]
          exact List.mem_append_right _ hslot
        | _ =>
          rw [hcase] at hcritical
          cases hcritical
      · exact hother.of_active (Bool.eq_false_of_not_eq_true hcritical) hout.active
  · by_cases heq : other = thread
    · rw [heq, next_threads_self]
      exact tokenOk_of_not_critical hout.notCritical
    · rw [next_threads_ne heq]
      exact tokenOk_next (h.tokenOk other) hout
  · obtain ⟨-, hold⟩ := hcritical other hother
    exact hout.captureLocked.trans (h.locked other hold)
  · exact h.unique other third (hcritical other hother).2 (hcritical third hthird).2

theorem Invariant.inside (h : Invariant state)
    (hin : InsideStep state.shared (state.threads thread) shared' thread')
    (hcritical : (state.threads thread).critical = true)
    (htoken : (state.next thread (shared', thread')).TokenOk thread') :
    Invariant (state.next thread (shared', thread')) := by
  have halone : ∀ other, other ≠ thread → (state.threads other).critical = false :=
    fun other hne => Bool.eq_false_of_not_eq_true fun hother => hne (h.unique _ _ hother hcritical)
  have hread : ∀ owned, Readable state.shared owned →
      (owned ∈ state.shared.pool ∨ ∃ other, other ≠ thread ∧ owned ∈ (state.threads other).owned) →
      Readable shared' owned := by
    intro owned hread hmem
    rcases hin.readable owned hread with (hzero | ⟨hone, hslot⟩) | hdone
    · have hnone := h.not_mem_of_references_eq_zero hzero
      rcases hmem with hpool | ⟨other, -, howned⟩
      · exact absurd (List.mem_map_of_mem hpool) hnone.1
      · exact absurd (mem_slots_of_owned howned) (hnone.2 other)
    · have hnone := h.not_mem_of_references_eq_one hone
        (List.mem_append_right (ownedSlots (state.threads thread).owned) hslot)
      rcases hmem with hpool | ⟨other, hne, howned⟩
      · exact absurd (List.mem_map_of_mem hpool) hnone.1
      · exact absurd (mem_slots_of_owned howned) (hnone.2 other hne)
    · exact hdone
  refine ⟨hin.address ▸ h.address, hin.activeSlotCount ▸ h.slotCount,
    hin.activeSlotCount ▸ hin.currentSlot, hin.begun_nodup, hin.begun_le, hin.begun_pos,
    hin.begun_current, fun slot => ?_, fun owned howned => ?_, fun other owned howned => ?_,
    fun other => ?_, fun other => ?_, fun other hother => ?_, fun other third hother hthird => ?_⟩
  · have hbalance := hin.balance slot
    have hcounts := h.counts slot
    have hnext := outstanding_next state thread (shared', thread') slot
    dsimp only [State.next] at hnext ⊢
    omega
  · rcases hin.pool owned howned with hpool | hown
    · exact hread owned (h.pool owned hpool) (Or.inl hpool)
    · exact hown
  · by_cases heq : other = thread
    · rw [heq, next_threads_self] at howned
      exact hin.owned owned howned
    · rw [next_threads_ne heq] at howned
      exact hread owned (h.owned other owned howned) (Or.inr ⟨other, heq, howned⟩)
  · by_cases heq : other = thread
    · rw [heq, next_threads_self]
      exact hin.localOk
    · rw [next_threads_ne heq]
      exact (h.localOk other).of_active (halone other heq) fun hactive => hin.active.trans hactive
  · by_cases heq : other = thread
    · rw [heq, next_threads_self]
      exact htoken
    · rw [next_threads_ne heq]
      exact tokenOk_of_not_critical (halone other heq)
  · by_cases heq : other = thread
    · rw [heq, next_threads_self] at hother
      exact hin.locked hother
    · rw [next_threads_ne heq, halone other heq] at hother
      cases hother
  · have hself : ∀ other,
        ((state.next thread (shared', thread')).threads other).critical = true → other = thread := by
      intro other hother
      by_contra heq
      rw [next_threads_ne heq, halone other heq] at hother
      cases hother
    rw [hself other hother, hself third hthird]

/-- Taking the capture mutex. -/
theorem Invariant.lock (h : Invariant state) {request : CaptureRequest}
    (hthread : state.threads thread = .capture request .lock)
    (hfree : state.shared.captureLocked = false) :
    Invariant (state.next thread
      ({ state.shared with captureLocked := true }, .capture request .check)) := by
  have halone : ∀ other, (state.threads other).critical = false := fun other =>
    Bool.eq_false_of_not_eq_true fun hcritical => by
      rw [h.locked other hcritical] at hfree
      cases hfree
  have hread : ∀ owned, Readable state.shared owned →
      Readable { state.shared with captureLocked := true } owned := fun owned hread =>
    hread.of_sameStorage rfl rfl ⟨rfl, rfl, rfl, rfl⟩ fun _ hentry => hentry
  have hsize : request.size ≠ 0 := by
    have hlocal := h.localOk thread
    rw [hthread] at hlocal
    exact hlocal
  refine ⟨h.address, h.slotCount, h.currentSlot, h.begun_nodup, h.begun_le, h.begun_pos,
    h.begun_current, fun slot => ?_, fun owned howned => hread owned (h.pool owned howned),
    fun other owned howned => ?_, fun other => ?_, fun other => ?_, fun _ _ => rfl,
    fun other third hother hthird => ?_⟩
  · have hcounts := h.counts slot
    have hnext := outstanding_next state thread
      ({ state.shared with captureLocked := true }, .capture request .check) slot
    have hslots : (Thread.capture request .check).slots = (state.threads thread).slots := by
      rw [hthread]
      rfl
    dsimp only [State.next] at hnext ⊢
    rw [hslots] at hnext
    omega
  · by_cases heq : other = thread
    · rw [heq, next_threads_self] at howned
      cases howned
    · rw [next_threads_ne heq] at howned
      exact hread owned (h.owned other owned howned)
  · by_cases heq : other = thread
    · rw [heq, next_threads_self]
      exact hsize
    · rw [next_threads_ne heq]
      exact (h.localOk other).of_active (halone other) fun hactive => hactive
  · by_cases heq : other = thread
    · rw [heq, next_threads_self]
      exact trivial
    · rw [next_threads_ne heq]
      exact tokenOk_of_not_critical (halone other)
  · have hself : ∀ other, ((state.next thread ({ state.shared with captureLocked := true },
        .capture request .check)).threads other).critical = true → other = thread := by
      intro other hother
      by_contra heq
      rw [next_threads_ne heq, halone other] at hother
      cases hother
    rw [hself other hother, hself third hthird]

/-- A capture that has not taken the mutex yet. -/
lemma outside_entry {request : CaptureRequest} {pc : CapturePc} {shared : Shared} {bit : Bool}
    (h : stepCapture shared request bit pc = some (shared', thread'))
    (hpc : pc = .entryActive ∨ pc = .entryAccepting)
    (hlocal : CaptureOk shared request pc) :
    OutsideStep shared (.capture request pc) shared' thread' ∧ thread'.LocalOk shared' := by
  rcases hpc with rfl | rfl
  · rw [stepCapture] at h
    split at h <;> cases h
    next => exact ⟨outsideStep_move rfl rfl rfl (fun _ _ h => by cases h) (fun _ h => by cases h), trivial⟩
    next hentry =>
      exact ⟨outsideStep_move rfl rfl rfl (fun _ _ h => by cases h) (fun _ h => by cases h),
        fun hzero => hentry (Or.inl hzero)⟩
  · rw [stepCapture] at h
    split at h <;> cases h
    next => exact ⟨outsideStep_move rfl rfl rfl (fun _ _ h => by cases h) (fun _ h => by cases h), trivial⟩
    next => exact ⟨outsideStep_move rfl rfl rfl (fun _ _ h => by cases h) (fun _ h => by cases h), hlocal⟩

/-- The steps of a capture do not undo a handoff, the wait apart. -/
lemma handed_capture {request : CaptureRequest} {pc : CapturePc} (h : state.Handed)
    (hthread : state.threads thread = .capture request pc) :
    (state.next thread (state.shared, thread')).Handed := by
  refine h.imp_left ?_
  rintro ⟨other, back, hother⟩
  have hne : other ≠ thread := by
    rintro rfl
    cases hthread.symm.trans hother
  exact ⟨other, back, (next_threads_ne hne _).trans hother⟩

/-- The token while its capture publishes it, checks again, withdraws it or waits. -/
lemma token_capture {request : CaptureRequest} {pc : CapturePc} {bit : Bool}
    (h : stepCapture state.shared request bit pc = some (shared', thread'))
    (htoken : state.TokenOk (.capture request pc))
    (hthread : state.threads thread = .capture request pc) :
    (state.next thread (shared', thread')).TokenOk thread' := by
  cases pc with
  | publishToken next =>
    rw [stepCapture] at h
    split at h <;> cases h
    · exact trivial
    · exact Or.inl rfl
  | recheckAccepting next =>
    rw [stepCapture] at h
    split at h <;> cases h
    all_goals exact Or.imp_right (fun hhanded => handed_capture hhanded hthread) htoken
  | recheckReferences next =>
    rw [stepCapture] at h
    split at h <;> cases h
    · exact Or.imp_right (fun hhanded => handed_capture hhanded hthread) htoken
    next hreferences =>
      rcases htoken with hwaiting | hhanded
      · exact Or.inl ⟨hwaiting, Or.inl hreferences⟩
      · exact Or.inr (handed_capture hhanded hthread)
  | withdraw next =>
    rw [stepCapture] at h
    split at h <;> cases h
    · exact trivial
    next hclaimed =>
      have hhanded : state.Handed := htoken.resolve_left hclaimed
      exact Or.inr (handed_capture hhanded hthread)
  | appendCas offset generation references =>
    simp only [stepCapture] at h
    split_ifs at h <;> cases h <;> exact trivial
  | loop =>
    rw [stepCapture] at h
    split at h
    next =>
      cases h
      exact trivial
    next => split at h <;> cases h <;> exact trivial
  | wait next =>
    rw [stepCapture] at h
    split_ifs at h <;> cases h <;> exact trivial
  | afterWait next failed =>
    cases h
    cases failed <;> exact trivial
  | entryActive => rw [stepCapture] at h; split at h <;> cases h <;> exact trivial
  | entryAccepting => rw [stepCapture] at h; split at h <;> cases h <;> exact trivial
  | lock =>
    rw [stepCapture] at h
    split at h
    next => cases h
    next =>
      cases h
      exact trivial
  | check => rw [stepCapture] at h; split at h <;> cases h <;> exact trivial
  | candidateLoad next => simp only [stepCapture] at h; split at h <;> cases h <;> exact trivial
  | scan next generation => simp only [stepCapture] at h; split at h <;> cases h <;> exact trivial
  | recycleCas next generation =>
    simp only [stepCapture] at h
    split at h <;> cases h <;> exact trivial
  | _ =>
    cases h
    exact trivial

theorem Invariant.perform (h : Invariant state) {event : Event n} {state' : State n}
    (hevent : state.perform event = some state') : Invariant state' := by
  cases event with
  | call thread call =>
    rw [State.perform] at hevent
    split at hevent
    next hidle =>
      obtain ⟨⟨shared', thread'⟩, hcall, rfl⟩ := Option.map_eq_some_iff.mp hevent
      obtain ⟨hout, hlocal⟩ := outside_call hcall
      rw [← hidle] at hout
      exact h.outside hout hlocal
    next => cases hevent
  | step thread bit =>
    obtain ⟨⟨shared', thread'⟩, hstep, rfl⟩ := Option.map_eq_some_iff.mp hevent
    have hlocal := h.localOk thread
    have hread := h.owned thread
    have htoken := h.tokenOk thread
    by_cases hcapture : ∃ request pc, state.threads thread = .capture request pc
    · obtain ⟨request, pc, hthread⟩ := hcapture
      rw [hthread] at hstep hlocal hread htoken
      by_cases hentry : pc = .entryActive ∨ pc = .entryAccepting
      · obtain ⟨hout, hlocal'⟩ := outside_entry hstep hentry hlocal
        rw [← hthread] at hout
        exact h.outside hout hlocal'
      · by_cases hlock : pc = .lock
        · subst hlock
          rw [Thread.step, stepCapture] at hstep
          split at hstep <;> cases hstep
          next hfree => exact h.lock hthread (Bool.eq_false_of_not_eq_true hfree)
        · have hcritical : pc.critical = true := by
            cases pc with
            | entryActive => exact absurd (Or.inl rfl) hentry
            | entryAccepting => exact absurd (Or.inr rfl) hentry
            | lock => exact absurd rfl hlock
            | _ => rfl
          have hstart : InsideStart state.shared :=
            ⟨h.address, h.slotCount, h.currentSlot, h.locked thread (by rw [hthread]; exact hcritical),
              h.begun_nodup, h.begun_le, h.begun_pos, h.begun_current⟩
          have hin := inside_capture hstart hcritical hlocal hread hstep
          have hnext := token_capture hstep htoken hthread
          rw [← hthread] at hin
          exact h.inside hin (by rw [hthread]; exact hcritical) hnext
    · obtain ⟨hout, hlocal'⟩ := outside_step hstep (fun request pc hthread =>
        hcapture ⟨request, pc, hthread⟩) hread (fun slot hslot => h.references_ne_zero hslot) hlocal
      exact h.outside hout hlocal'

theorem invariant_of_initial (h : Initial state) : Invariant state where
  address := h.address
  slotCount := h.activeSlotCount.2
  currentSlot := by
    rw [h.currentSlot]
    exact Nat.lt_of_lt_of_le Nat.zero_lt_two h.activeSlotCount.1
  begun_nodup := h.begun ▸ List.nodup_nil
  begun_le _ _ hmem := by
    rw [h.begun] at hmem
    cases hmem
  begun_pos _ _ hmem := by
    rw [h.begun] at hmem
    cases hmem
  begun_current slot hne := absurd (h.references slot) hne
  counts slot := by
    have hthreads : ∀ thread, (state.threads thread).slots.count slot = 0 := fun thread => by
      rw [h.idle]
      rfl
    simp [State.outstanding, WeightSum.weightSum, h.references, h.pool, hthreads, ownedSlots]
  pool owned hmem := by
    rw [h.pool] at hmem
    cases hmem
  owned thread owned hmem := by
    rw [h.idle] at hmem
    cases hmem
  localOk thread := h.idle thread ▸ trivial
  tokenOk thread := h.idle thread ▸ trivial
  locked thread hcritical := by
    rw [h.idle] at hcritical
    cases hcritical
  unique thread _ hcritical := by
    rw [h.idle] at hcritical
    cases hcritical

theorem Reachable.invariant (h : Reachable state) : Invariant state := by
  induction h with
  | start hinitial => exact invariant_of_initial hinitial
  | next event _ hevent ih => exact ih.perform hevent

/-- A reference that is at rest in the pool or held by a thread. -/
def State.Outstanding (state : State n) (owned : Owned) : Prop :=
  owned ∈ state.shared.pool ∨ ∃ thread, owned ∈ (state.threads thread).owned

/-- In every reachable state the bytes of an outstanding reference are the captured
ones and stay committed, and it resolves while the ring is active; no slot begins
a generation twice; the counts are the outstanding references; and a blocked
capture is still going to be signalled. -/
theorem ownership_protocol (h : Reachable state) :
    (∀ owned, state.Outstanding owned →
      (state.shared.slots owned.payload.slot).generation = owned.payload.generation ∧
      owned.payload.offset + owned.payload.size ≤
        (state.shared.slots owned.payload.slot).committedOffset ∧
      ∀ index < owned.payload.size,
        (state.shared.slots owned.payload.slot).bytes (owned.payload.offset + index) =
          owned.bytes index) ∧
    (∀ thread owned result, state.threads thread = .resolve owned false (.done result) →
      state.shared.active = true →
      result = some ⟨owned.payload.slot, owned.payload.offset⟩) ∧
    state.shared.begun.Nodup ∧
    (∀ owned, state.Outstanding owned →
      (owned.payload.slot, owned.payload.generation) ∈ state.shared.begun) ∧
    (∀ slot, (state.shared.slots slot).references = state.outstanding slot) ∧
    ∀ thread request next, state.threads thread = .capture request (.wait next) →
      state.shared.semaphore = 0 →
      (state.shared.waitingSlot = some next ∧
        ((state.shared.slots next).references ≠ 0 ∨
          ∃ other back, state.threads other = .claim next back)) ∨
      ∃ other back, state.threads other = .signal back := by
  have hinv := h.invariant
  have hread : ∀ owned, state.Outstanding owned → Readable state.shared owned := by
    rintro owned (hpool | ⟨thread, howned⟩)
    · exact hinv.pool owned hpool
    · exact hinv.owned thread owned howned
  refine ⟨fun owned howned => ?_, fun thread owned result hthread hactive => ?_, hinv.begun_nodup,
    fun owned howned => (hread owned howned).begun, hinv.counts,
    fun thread request next hthread hzero => ?_⟩
  · obtain ⟨-, -, hgeneration, hcommitted, -, hbytes, -⟩ := hread owned howned
    exact ⟨hgeneration, hcommitted, hbytes⟩
  · have hlocal := hinv.localOk thread
    rw [hthread] at hlocal
    simp only [Thread.LocalOk] at hlocal
    split at hlocal
    next =>
      rcases hlocal with hfalse | hinactive
      · cases hfalse
      · cases hinactive.symm.trans hactive
    next => exact hlocal
  · have htoken := hinv.tokenOk thread
    rw [hthread] at htoken
    refine htoken.imp_right fun hhanded => hhanded.resolve_right ?_
    rw [hzero]
    exact Nat.not_succ_le_zero 0

end

/-! ### Computed runs -/

def State.performAll {n : ℕ} : State n → List (Event n) → Option (State n)
  | state, [] => some state
  | state, event :: rest => (state.perform event).bind fun next => next.performAll rest

lemma reachable_performAll {n : ℕ} {state final : State n} {events : List (Event n)}
    (h : Reachable state) (hrun : state.performAll events = some final) : Reachable final := by
  induction events generalizing state with
  | nil =>
    cases hrun
    exact h
  | cons event rest ih =>
    obtain ⟨next, hnext, hrest⟩ := Option.bind_eq_some_iff.mp hrun
    exact ih (h.next event hnext) hrest

/-- A ring of two slots for three threads. -/
def emptyRing : State 3 where
  shared :=
    { address := 1
      slots := fun _ => ⟨1, 0, 0, 0, 0, 0, fun _ => 0⟩
      waitingSlot := none
      accepting := true
      active := true
      semaphore := 0
      captureLocked := false
      currentSlot := 0
      activeSlotCount := 2
      pool := []
      begun := [] }
  threads := fun _ => .idle

lemma emptyRing_reachable : Reachable emptyRing := by
  refine .start ⟨fun _ => rfl, ?_, fun _ => rfl, rfl, rfl, rfl, ?_, rfl, rfl, rfl⟩
  · decide
  · decide

/-- A check of the state that a computed run reaches. -/
lemma reachable_of_any {events : List (Event 3)} {check : State 3 → Bool}
    (h : (emptyRing.performAll events).any check = true) :
    ∃ state, Reachable state ∧ check state = true := by
  obtain ⟨state, hrun, hcheck⟩ := (Option.any_eq_true _ _).mp h
  exact ⟨state, reachable_performAll emptyRing_reachable hrun, hcheck⟩

/-- The first thread starts to capture a payload that fills a slot. -/
def captureSlot : Event 3 := .call 0 (.capture ⟨fun _ => 1, inputRingSlotSize, false⟩)

def stepsOf (thread : Fin 3) (count : ℕ) : List (Event 3) := List.replicate count (.step thread false)

/-- The first capture goes into the current slot. -/
def firstCapture : List (Event 3) := captureSlot :: stepsOf 0 13

theorem ownership_protocol_capture : ∃ state : State 3, Reachable state ∧
    (state.shared.slots 0).references = 1 ∧ state.outstanding 0 = 1 := by
  have hrun : (emptyRing.performAll firstCapture).any
      (fun state => (state.shared.slots 0).references == 1) = true := by decide +kernel
  obtain ⟨state, hreachable, hone⟩ := reachable_of_any hrun
  have hcounts := (ownership_protocol hreachable).2.2.2.2.1 0
  have hreferences := eq_of_beq hone
  exact ⟨state, hreachable, hreferences, hcounts.symm.trans hreferences⟩

/-- The first thread fills both slots and blocks on the first one; the second
finds a damaged fetch guard; the third drops the last reference of the slot. -/
def blockedRun : List (Event 3) :=
  firstCapture ++ captureSlot :: stepsOf 0 6 ++ .step 0 true :: stepsOf 0 13 ++
    captureSlot :: stepsOf 0 10 ++ .call 1 (.publish [0]) :: stepsOf 1 5 ++
    .call 2 (.release 1) :: stepsOf 2 2

/-- A capture is blocked on a slot without references, and nobody has claimed its token. -/
def State.blockedUnclaimed (state : State 3) : Bool :=
  (match state.threads 0 with
    | .capture _ (.wait 0) => true
    | _ => false) &&
  state.shared.semaphore == 0 && (state.shared.slots 0).references == 0 &&
  !state.shared.accepting &&
  (match state.threads 1, state.threads 2 with
    | .idle, .claim 0 _ => true
    | _, _ => false)

/-- Between the drop of the last reference and the claim, a blocked capture has
neither a slot with references nor somebody who has claimed its token. -/
theorem blocked_without_claim : ¬ ∀ state : State 3, Reachable state →
    ∀ thread request next, state.threads thread = .capture request (.wait next) →
      state.shared.semaphore = 0 →
      (state.shared.waitingSlot = some next ∧
        ((state.shared.slots next).references ≠ 0 ∨ state.shared.accepting = true)) ∨
      ∃ other back, other ≠ thread ∧ state.threads other = .signal back := by
  intro hclaim
  have hrun : (emptyRing.performAll blockedRun).any State.blockedUnclaimed = true := by
    decide +kernel
  obtain ⟨state, hreachable, hcheck⟩ := reachable_of_any hrun
  simp only [State.blockedUnclaimed, Bool.and_eq_true, beq_iff_eq, Bool.not_eq_true'] at hcheck
  obtain ⟨⟨⟨⟨hwait, hsemaphore⟩, hzero⟩, haccepting⟩, hothers⟩ := hcheck
  split at hwait
  next request hthread =>
    split at hothers
    next hfirst hsecond =>
      rcases hclaim state hreachable 0 request 0 hthread hsemaphore with
        ⟨-, hreferences | haccept⟩ | ⟨other, back, hne, hsignal⟩
      · exact hreferences hzero
      · rw [haccepting] at haccept
        cases haccept
      · fin_cases other
        · exact hne rfl
        · cases hfirst.symm.trans hsignal
        · cases hsecond.symm.trans hsignal
    next => cases hothers
  next => cases hwait

end VitaSX2.InputRing
