/-
The steps inside the capture section.

What they overwrite is nobody's: a slot without references, a slot whose only
reference is the one being captured, or bytes above everything written.
-/
import VitaSX2.InputRing.Outside

namespace VitaSX2.InputRing

open Vif

/-- Nobody but the thread refers to the slot. -/
def Exclusive (shared : Shared) (thread : Thread) (slot : ℕ) : Prop :=
  (shared.slots slot).references = 0 ∨
    (shared.slots slot).references = 1 ∧ slot ∈ thread.reserved

/-- What a step inside the capture section can do. -/
structure InsideStep (shared : Shared) (thread : Thread) (shared' : Shared) (thread' : Thread) :
    Prop where
  address : shared'.address = shared.address
  activeSlotCount : shared'.activeSlotCount = shared.activeSlotCount
  active : shared'.active = shared.active
  currentSlot : shared'.currentSlot < shared.activeSlotCount
  locked : thread'.critical = true → shared'.captureLocked = true
  begun_nodup : shared'.begun.Nodup
  begun_le : ∀ slot generation, (slot, generation) ∈ shared'.begun →
    generation ≤ (shared'.slots slot).generation
  begun_pos : ∀ slot generation, (slot, generation) ∈ shared'.begun → generation ≠ 0
  begun_current : ∀ slot, (shared'.slots slot).references ≠ 0 →
    (slot, (shared'.slots slot).generation) ∈ shared'.begun
  balance : ∀ slot, (shared'.slots slot).references + (ownedSlots shared.pool).count slot +
      thread.slots.count slot =
    (shared.slots slot).references + (ownedSlots shared'.pool).count slot +
      thread'.slots.count slot
  pool : ∀ owned ∈ shared'.pool, owned ∈ shared.pool ∨ Readable shared' owned
  readable : ∀ owned, Readable shared owned →
    Exclusive shared thread owned.payload.slot ∨ Readable shared' owned
  owned : ∀ owned ∈ thread'.owned, Readable shared' owned
  localOk : thread'.LocalOk shared'

/-- What a critical step starts from. -/
structure InsideStart (shared : Shared) : Prop where
  address : shared.address ≠ 0
  slotCount : shared.activeSlotCount ≤ inputRingSlotCount
  currentSlot : shared.currentSlot < shared.activeSlotCount
  locked : shared.captureLocked = true
  begun_nodup : shared.begun.Nodup
  begun_le : ∀ slot generation, (slot, generation) ∈ shared.begun →
    generation ≤ (shared.slots slot).generation
  begun_pos : ∀ slot generation, (slot, generation) ∈ shared.begun → generation ≠ 0
  begun_current : ∀ slot, (shared.slots slot).references ≠ 0 →
    (slot, (shared.slots slot).generation) ∈ shared.begun

section

variable {shared shared' : Shared} {request : CaptureRequest} {pc pc' : CapturePc}

lemma Readable.of_sameStorage {owned : Owned} (h : Readable shared owned)
    (haddress : shared'.address = shared.address)
    (hcount : shared'.activeSlotCount = shared.activeSlotCount)
    (hstorage : SameStorage (shared.slots owned.payload.slot) (shared'.slots owned.payload.slot))
    (hbegun : ∀ entry ∈ shared.begun, entry ∈ shared'.begun) : Readable shared' owned where
  wellFormed := by
    have hwell := h.wellFormed
    rw [Shared.wellFormed] at hwell ⊢
    rw [haddress]
    exact hwell
  mapped := by
    have hmapped := h.mapped
    rw [Shared.isMapped] at hmapped ⊢
    rw [hcount]
    exact hmapped
  generation := hstorage.generation.trans h.generation
  committed := hstorage.committedOffset ▸ h.committed
  written := hstorage.writeOffset ▸ h.written
  bytes := hstorage.bytes ▸ h.bytes
  begun := hbegun _ h.begun

/-- A step that moves on within the section and leaves the slots alone. -/
lemma insideStep_of_slots (hstart : InsideStart shared) (hslots : shared'.slots = shared.slots)
    (haddress : shared'.address = shared.address)
    (hcount : shared'.activeSlotCount = shared.activeSlotCount)
    (hactive : shared'.active = shared.active) (hcurrent : shared'.currentSlot = shared.currentSlot)
    (hbegun : shared'.begun = shared.begun) (hpool : shared'.pool = shared.pool)
    (hlocked : shared'.captureLocked = shared.captureLocked)
    (howned : (Thread.capture request pc).owned = []) (howned' : (Thread.capture request pc').owned = [])
    (hreserved : pc'.reserved = pc.reserved) (hlocal : CaptureOk shared' request pc') :
    InsideStep shared (.capture request pc) shared' (.capture request pc') where
  address := haddress
  activeSlotCount := hcount
  active := hactive
  currentSlot := hcurrent ▸ hstart.currentSlot
  locked _ := hlocked.trans hstart.locked
  begun_nodup := hbegun ▸ hstart.begun_nodup
  begun_le := by
    rw [hbegun, hslots]
    exact hstart.begun_le
  begun_pos := hbegun ▸ hstart.begun_pos
  begun_current := by
    rw [hbegun, hslots]
    exact hstart.begun_current
  balance slot := by
    rw [hslots, hpool, Thread.slots, Thread.slots, howned, howned', Thread.reserved, Thread.reserved,
      hreserved]
  pool owned h := Or.inl (hpool ▸ h)
  readable owned h := Or.inr (h.of_sameStorage haddress hcount
    (hslots ▸ ⟨rfl, rfl, rfl, rfl⟩) fun entry hentry => hbegun ▸ hentry)
  owned owned h := by
    rw [howned'] at h
    cases h
  localOk := hlocal

/-- A step that only moves on within the section. -/
lemma insideStep_move (hstart : InsideStart shared)
    (howned : (Thread.capture request pc).owned = []) (howned' : (Thread.capture request pc').owned = [])
    (hreserved : pc'.reserved = pc.reserved) (hlocal : CaptureOk shared request pc') :
    InsideStep shared (.capture request pc) shared (.capture request pc') :=
  insideStep_of_slots hstart rfl rfl rfl rfl rfl rfl rfl rfl howned howned' hreserved hlocal

/-- A store to a slot that keeps its generation, its count and what is readable in it. -/
lemma insideStep_setSlot (hstart : InsideStart shared) {slot : ℕ} {value : Slot}
    (hgeneration : value.generation = (shared.slots slot).generation)
    (hreferences : value.references = (shared.slots slot).references)
    (hreadable : ∀ owned, owned.payload.slot = slot → Readable shared owned →
      Exclusive shared (.capture request pc) slot ∨ Readable (shared.setSlot slot value) owned)
    (howned : (Thread.capture request pc).owned = []) (howned' : (Thread.capture request pc').owned = [])
    (hreserved : pc'.reserved = pc.reserved)
    (hlocal : CaptureOk (shared.setSlot slot value) request pc') :
    InsideStep shared (.capture request pc) (shared.setSlot slot value) (.capture request pc') := by
  have hslots : ∀ other, ((shared.setSlot slot value).slots other).generation =
      (shared.slots other).generation ∧
      ((shared.setSlot slot value).slots other).references = (shared.slots other).references := by
    intro other
    by_cases heq : other = slot
    · subst heq
      simp [Shared.setSlot, hgeneration, hreferences]
    · simp [Shared.setSlot, heq]
  refine ⟨rfl, rfl, rfl, hstart.currentSlot, fun _ => hstart.locked, hstart.begun_nodup,
    fun other generation hmem => ?_, hstart.begun_pos, fun other => ?_, fun other => ?_,
    fun owned h => Or.inl h, fun owned h => ?_, fun owned h => ?_, hlocal⟩
  · rw [(hslots other).1]
    exact hstart.begun_le other generation hmem
  · rw [(hslots other).1, (hslots other).2]
    exact hstart.begun_current other
  · rw [(hslots other).2, Thread.slots, Thread.slots, howned, howned', Thread.reserved,
      Thread.reserved, hreserved]
    rfl
  · by_cases heq : owned.payload.slot = slot
    · rw [heq]
      exact hreadable owned heq h
    · refine Or.inr (h.of_sameStorage rfl rfl ?_ fun _ hentry => hentry)
      simpa [Shared.setSlot, heq] using (⟨rfl, rfl, rfl, rfl⟩ : SameStorage _ _)
  · rw [howned'] at h
    cases h

/-! ### The steps of the capture section -/

lemma le_of_alignUp {value offset : ℕ} (h : alignUp value payloadAlignment = some offset) :
    value ≤ offset := by
  unfold alignUp payloadAlignment at h
  split at h
  next => cases h
  next =>
    cases h
    omega

/-- An append offset lies above everything written and leaves room for the payload. -/
lemma fits_of_appendOffset {offset : ℕ} (h : appendOffset shared request = some offset) :
    Fits shared shared.currentSlot offset request.size := by
  obtain ⟨halign, hrange⟩ := Option.filter_eq_some_iff.mp h
  refine ⟨le_of_alignUp halign, ?_⟩
  have hsize : request.size ≤ request.requiredCapacity := by
    unfold CaptureRequest.requiredCapacity
    split
    · exact le_max_left _ _
    · exact le_rfl
  simp only [isInputRingLogicalRange, decide_eq_true_eq] at hrange ⊢
  exact ⟨hrange.1, hsize.trans hrange.2⟩

lemma nextSlot_lt (hstart : InsideStart shared) : shared.nextSlot < shared.activeSlotCount :=
  Nat.mod_lt _ (Nat.zero_lt_of_lt hstart.currentSlot)

/-- A fresh generation of a slot without references. -/
lemma inside_begin (hstart : InsideStart shared) {slot references writeOffset : ℕ}
    (hzero : (shared.slots slot).references = 0)
    (howned : (Thread.capture request pc).owned = []) (howned' : (Thread.capture request pc').owned = [])
    (hreserved : pc.reserved = []) (hreserved' : pc'.reserved = List.replicate references slot)
    (hlocal : CaptureOk ((shared.begin slot ((shared.slots slot).generation + 1)
      references).setWriteOffset slot writeOffset) request pc') :
    InsideStep shared (.capture request pc)
      ((shared.begin slot ((shared.slots slot).generation + 1) references).setWriteOffset slot
        writeOffset) (.capture request pc') := by
  set shared' := (shared.begin slot ((shared.slots slot).generation + 1) references).setWriteOffset
    slot writeOffset with hshared
  have hother : ∀ other, other ≠ slot → shared'.slots other = shared.slots other := by
    intro other hne
    simp [hshared, Shared.begin, Shared.setWriteOffset, Shared.setOwnership, Shared.setSlot, hne]
  have hslot : (shared'.slots slot).generation = (shared.slots slot).generation + 1 ∧
      (shared'.slots slot).references = references := by
    simp [hshared, Shared.begin, Shared.setWriteOffset, Shared.setOwnership, Shared.setSlot]
  have hbegun : shared'.begun = (slot, (shared.slots slot).generation + 1) :: shared.begun := rfl
  refine ⟨rfl, rfl, rfl, hstart.currentSlot, fun _ => hstart.locked, ?_,
    fun other generation hmem => ?_, fun other generation hmem => ?_, fun other hne => ?_,
    fun other => ?_, fun owned h => Or.inl h, fun owned h => ?_, fun owned h => ?_, hlocal⟩
  · rw [hbegun]
    refine List.nodup_cons.mpr ⟨fun hmem => ?_, hstart.begun_nodup⟩
    have hle := hstart.begun_le slot _ hmem
    omega
  · rw [hbegun] at hmem
    rcases List.mem_cons.mp hmem with heq | hmem
    · cases heq
      rw [hslot.1]
    · have hle := hstart.begun_le other generation hmem
      by_cases heq : other = slot
      · subst heq
        rw [hslot.1]
        omega
      · rw [hother other heq]
        exact hle
  · rw [hbegun] at hmem
    rcases List.mem_cons.mp hmem with heq | hmem
    · cases heq
      exact Nat.succ_ne_zero _
    · exact hstart.begun_pos other generation hmem
  · rw [hbegun]
    by_cases heq : other = slot
    · rw [heq, hslot.1]
      exact List.mem_cons_self
    · rw [hother other heq] at hne ⊢
      exact List.mem_cons_of_mem _ (hstart.begun_current other hne)
  · have hpool : shared'.pool = shared.pool := rfl
    rw [hpool, Thread.slots, Thread.slots, howned, howned', Thread.reserved, Thread.reserved,
      hreserved, hreserved']
    simp only [ownedSlots, List.map_nil, List.nil_append, List.count_nil, List.count_replicate]
    by_cases heq : other = slot
    · subst heq
      rw [hslot.2, hzero]
      simp only [beq_self_eq_true, if_true]
      omega
    · have hne : (slot == other) = false := beq_false_of_ne (Ne.symm heq)
      rw [hother other heq, hne]
      simp
  · by_cases heq : owned.payload.slot = slot
    · exact Or.inl (Or.inl (heq ▸ hzero))
    · refine Or.inr (h.of_sameStorage rfl rfl ?_ fun _ hentry => List.mem_cons_of_mem _ hentry)
      rw [hother _ heq]
      exact ⟨rfl, rfl, rfl, rfl⟩
  · rw [howned'] at h
    cases h

lemma begin_setWriteOffset_self (slot generation references : ℕ) :
    (shared.begin slot generation references).setWriteOffset slot
      (shared.slots slot).writeOffset = shared.begin slot generation references := by
  simp [Shared.begin, Shared.setWriteOffset, Shared.setOwnership, Shared.setSlot]

lemma copy_eq_setSlot (slot offset size : ℕ) (source : ℕ → Byte) :
    (shared.setWriteOffset slot (offset + size)).copyBytes slot offset size source =
      shared.setSlot slot
        { shared.slots slot with
          writeOffset := offset + size
          bytes := fun index =>
            if offset ≤ index ∧ index < offset + size then source (index - offset)
            else (shared.slots slot).bytes index } := by
  simp [Shared.copyBytes, Shared.setWriteOffset, Shared.setSlot]

/-- The end of a capture that succeeded or not. -/
lemma inside_unlock (hstart : InsideStart shared) (hreserved : pc.reserved = [])
    (hread : ∀ owned ∈ (Thread.capture request pc).owned, Readable shared owned) :
    InsideStep shared (.capture request pc)
      { shared.return (Thread.capture request pc).owned with captureLocked := false } .idle where
  address := rfl
  activeSlotCount := rfl
  active := rfl
  currentSlot := hstart.currentSlot
  locked h := nomatch h
  begun_nodup := hstart.begun_nodup
  begun_le := hstart.begun_le
  begun_pos := hstart.begun_pos
  begun_current := hstart.begun_current
  balance slot := by
    have hidle : Thread.idle.slots.count slot = 0 := rfl
    rw [hidle, Thread.slots, Thread.reserved, hreserved, List.append_nil]
    simp only [Shared.return, ownedSlots_append, List.count_append]
    omega
  pool owned h := (List.mem_append.mp h).symm.imp_right fun hown =>
    (hread owned hown).of_sameStorage rfl rfl ⟨rfl, rfl, rfl, rfl⟩ fun _ hentry => hentry
  readable owned h := Or.inr (h.of_sameStorage rfl rfl ⟨rfl, rfl, rfl, rfl⟩ fun _ hentry => hentry)
  owned _ h := nomatch h
  localOk := trivial

/-- One more reference to the current generation, for the payload being captured. -/
lemma inside_append {offset : ℕ} (hstart : InsideStart shared) (hsize : request.size ≠ 0)
    (hfits : Fits shared shared.currentSlot offset request.size)
    (hpos : (shared.slots shared.currentSlot).references ≠ 0)
    (howned : (Thread.capture request pc).owned = []) (hreserved : pc.reserved = []) :
    InsideStep shared (.capture request pc)
      (shared.setOwnership shared.currentSlot (shared.slots shared.currentSlot).generation
        ((shared.slots shared.currentSlot).references + 1))
      (.capture request (.copy shared.currentSlot offset
        (shared.slots shared.currentSlot).generation)) := by
  set slot := shared.currentSlot with hslot
  have hstorage := @sameStorage_setOwnership shared slot _ ((shared.slots slot).references + 1) rfl
  refine ⟨rfl, rfl, rfl, hstart.currentSlot, fun _ => hstart.locked, hstart.begun_nodup,
    fun other generation hmem => ?_, hstart.begun_pos, fun other hne => ?_, fun other => ?_,
    fun owned h => Or.inl h, fun owned h => Or.inr ?_, (fun _ h => nomatch h),
    ⟨hsize, hslot, ⟨?_, hfits.range⟩, hstart.begun_current slot hpos, (hstorage slot).generation⟩⟩
  · rw [(hstorage other).generation]
    exact hstart.begun_le other generation hmem
  · rw [(hstorage other).generation]
    refine hstart.begun_current other ?_
    rw [references_setOwnership] at hne
    split at hne
    next heq => rwa [heq]
    next => exact hne
  · rw [references_setOwnership, pool_setOwnership, Thread.slots, Thread.slots, howned,
      Thread.reserved, Thread.reserved, hreserved]
    have hcount : List.count other (ownedSlots
        (Thread.capture request (.copy slot offset (shared.slots slot).generation)).owned ++
          CapturePc.reserved (.copy slot offset (shared.slots slot).generation)) =
        if slot = other then 1 else 0 := by
      simp [Thread.owned, ownedSlots, CapturePc.reserved, List.count_cons]
    rw [hcount]
    by_cases heq : other = slot
    · subst heq
      simp [ownedSlots]
      omega
    · simp [heq, Ne.symm heq, ownedSlots]
  · exact h.of_sameStorage rfl rfl (hstorage _) fun _ hentry => hentry
  · exact (hstorage slot).writeOffset ▸ hfits.above

/-- What is readable lies below the bytes that are copied. -/
lemma readable_of_copy {owned : Owned} {slot offset : ℕ} (h : Readable shared owned)
    (hslot : owned.payload.slot = slot) (habove : (shared.slots slot).writeOffset ≤ offset) :
    Readable (shared.setSlot slot
      { shared.slots slot with
        writeOffset := offset + request.size
        bytes := fun index =>
          if offset ≤ index ∧ index < offset + request.size then request.source (index - offset)
          else (shared.slots slot).bytes index }) owned := by
  subst hslot
  have hwritten := h.written
  refine ⟨h.wellFormed, h.mapped, ?_, ?_, ?_, fun index hindex => ?_, h.begun⟩
  · simpa [Shared.setSlot] using h.generation
  · simpa [Shared.setSlot] using h.committed
  · simp only [Shared.setSlot, Function.update_self]
    omega
  · have hbelow : ¬ (offset ≤ owned.payload.offset + index ∧
        owned.payload.offset + index < offset + request.size) := by omega
    simp only [Shared.setSlot, Function.update_self, if_neg hbelow]
    exact h.bytes index hindex

/-- The payload is readable once its bytes are committed. -/
lemma inside_commit {slot offset generation : ℕ} (hstart : InsideStart shared)
    (hlocal : CaptureOk shared request (.commit slot offset generation)) :
    InsideStep shared (.capture request (.commit slot offset generation))
      (shared.setCommitted slot (offset + request.size))
      (.capture request (.finish ⟨shared.address, slot, generation, offset, request.size⟩)) := by
  obtain ⟨hsize, hslot, hrange, hbegun, hgeneration, hwrite, hbytes⟩ := hlocal
  have hother : ∀ other, ((shared.setCommitted slot (offset + request.size)).slots other) =
      { shared.slots other with
        committedOffset := if other = slot then offset + request.size
          else (shared.slots other).committedOffset } := by
    intro other
    by_cases heq : other = slot
    · subst heq
      simp [Shared.setCommitted, Shared.setSlot]
    · simp [Shared.setCommitted, Shared.setSlot, heq]
  have hread : ∀ owned, Readable shared owned →
      Readable (shared.setCommitted slot (offset + request.size)) owned := by
    intro owned h
    refine ⟨h.wellFormed, h.mapped, ?_, ?_, ?_, ?_, h.begun⟩
    · rw [hother]
      exact h.generation
    · rw [hother]
      dsimp only
      split
      next heq =>
        have hwritten := h.written
        rw [heq] at hwritten
        omega
      next => exact h.committed
    · rw [hother]
      exact h.written
    · rw [hother]
      exact h.bytes
  refine ⟨rfl, rfl, rfl, hstart.currentSlot, fun _ => hstart.locked, hstart.begun_nodup,
    fun other generation hmem => ?_, hstart.begun_pos, fun other hne => ?_, fun other => ?_,
    fun owned h => Or.inl h, fun owned h => Or.inr (hread owned h), fun owned h => ?_, hsize⟩
  · rw [hother]
    exact hstart.begun_le other generation hmem
  · rw [hother] at hne ⊢
    exact hstart.begun_current other hne
  · rw [hother]
    rfl
  · have hmem : owned = ⟨⟨shared.address, slot, generation, offset, request.size⟩,
        request.source⟩ := List.mem_singleton.mp h
    have hlt : slot < shared.activeSlotCount := hslot ▸ hstart.currentSlot
    subst hmem
    refine ⟨?_, ?_, ?_, ?_, ?_, ?_, hbegun⟩
    · have hpos := hstart.begun_pos slot generation hbegun
      have hcount : slot < inputRingSlotCount := hlt.trans_le hstart.slotCount
      simp [Shared.wellFormed, RawVifPayloadRef.isValid, hstart.address, hpos, hsize, hcount, hrange,
        Shared.setCommitted, Shared.setSlot]
    · exact decide_eq_true hlt
    · rw [hother]
      exact hgeneration
    · rw [hother]
      simp
    · rw [hother]
      exact hwrite.ge
    · rw [hother]
      exact hbytes

/-- The current slot is private to the capture section. -/
lemma InsideStep.setCurrentSlot {thread : Thread} {next : ℕ}
    (h : InsideStep shared thread shared' (.capture request .loop))
    (hnext : next < shared.activeSlotCount) :
    InsideStep shared thread { shared' with currentSlot := next } (.capture request .loop) :=
  { h with
    currentSlot := hnext
    pool := fun owned howned => (h.pool owned howned).imp_right fun hread =>
      hread.of_sameStorage rfl rfl ⟨rfl, rfl, rfl, rfl⟩ fun _ hentry => hentry
    readable := fun owned howned => (h.readable owned howned).imp_right fun hread =>
      hread.of_sameStorage rfl rfl ⟨rfl, rfl, rfl, rfl⟩ fun _ hentry => hentry
    owned := fun _ howned => nomatch howned
    localOk := h.localOk }

theorem inside_capture {bit : Bool} {thread' : Thread} (hstart : InsideStart shared)
    (hcritical : pc.critical = true) (hlocal : CaptureOk shared request pc)
    (hread : ∀ owned ∈ (Thread.capture request pc).owned, Readable shared owned)
    (h : stepCapture shared request bit pc = some (shared', thread')) :
    InsideStep shared (.capture request pc) shared' thread' := by
  cases pc with
  | entryActive => cases hcritical
  | entryAccepting => cases hcritical
  | lock => cases hcritical
  | check =>
    rw [stepCapture] at h
    split at h <;> cases h
    all_goals exact insideStep_move hstart rfl rfl rfl hlocal
  | loop =>
    rw [stepCapture] at h
    split at h
    next =>
      cases h
      exact insideStep_move hstart rfl rfl rfl hlocal
    next =>
      split at h <;> cases h
      next offset hoffset =>
        exact insideStep_move hstart rfl rfl rfl ⟨hlocal, fits_of_appendOffset hoffset⟩
      next => exact insideStep_move hstart rfl rfl rfl ⟨hlocal, nextSlot_lt hstart⟩
  | appendLoad offset =>
    cases h
    exact insideStep_move hstart rfl rfl rfl hlocal
  | appendCas offset generation references =>
    obtain ⟨hsize, hfits⟩ := hlocal
    simp only [stepCapture] at h
    split at h
    next =>
      cases h
      exact insideStep_move hstart rfl rfl rfl hsize
    next =>
      split at h
      next =>
        cases h
        exact insideStep_move hstart rfl rfl rfl hsize
      next =>
        split at h
        next =>
          cases h
          exact insideStep_move hstart rfl rfl rfl ⟨hsize, hfits⟩
        next hsame =>
          simp only [Bool.or_eq_true, not_or, bne_iff_ne, ne_eq, not_not] at hsame
          obtain ⟨⟨-, rfl⟩, rfl⟩ := hsame
          split at h <;> cases h
          next hzero =>
            rw [← begin_setWriteOffset_self]
            refine inside_begin hstart hzero rfl rfl rfl rfl ?_
            rw [begin_setWriteOffset_self]
            refine ⟨hsize, rfl, ?_, List.mem_cons_self, ?_, ?_⟩
            · refine ⟨?_, hfits.range⟩
              simpa [Shared.begin, Shared.setOwnership, Shared.setSlot] using hfits.above
            · simp [Shared.begin, Shared.setOwnership, Shared.setSlot]
            · simp [Shared.begin, Shared.setOwnership, Shared.setSlot]
          next hpos => exact inside_append hstart hsize hfits hpos rfl rfl
  | refuse =>
    cases h
    exact insideStep_of_slots hstart rfl rfl rfl rfl rfl rfl rfl rfl rfl rfl rfl hlocal
  | resetCommitted slot offset generation =>
    obtain ⟨hsize, hslot, hfits, hbegun, hgeneration, hone⟩ := hlocal
    cases h
    refine insideStep_setSlot hstart rfl rfl (fun _ _ _ => Or.inl (Or.inr ⟨hone, List.mem_cons_self⟩))
      rfl rfl rfl ⟨hsize, hslot, ⟨?_, hfits.range⟩, hbegun, ?_, ?_⟩
    · simpa [Shared.setSlot] using hfits.above
    · simpa [Shared.setSlot] using hgeneration
    · simpa [Shared.setSlot] using hone
  | resetPublished slot offset generation =>
    obtain ⟨hsize, hslot, hfits, hbegun, hgeneration, hone⟩ := hlocal
    cases h
    refine insideStep_setSlot hstart rfl rfl (fun _ _ _ => Or.inl (Or.inr ⟨hone, List.mem_cons_self⟩))
      rfl rfl rfl ⟨hsize, hslot, ⟨?_, hfits.range⟩, hbegun, ?_, ?_⟩
    · simpa [Shared.setSlot] using hfits.above
    · simpa [Shared.setSlot] using hgeneration
    · simpa [Shared.setSlot] using hone
  | resetFetchGuard slot offset generation =>
    obtain ⟨hsize, hslot, hfits, hbegun, hgeneration, hone⟩ := hlocal
    cases h
    refine insideStep_setSlot hstart rfl rfl (fun _ _ _ => Or.inl (Or.inr ⟨hone, List.mem_cons_self⟩))
      rfl rfl rfl ⟨hsize, hslot, ⟨?_, hfits.range⟩, hbegun, ?_⟩
    · simpa [Shared.setSlot] using hfits.above
    · simpa [Shared.setSlot] using hgeneration
  | copy slot offset generation =>
    obtain ⟨hsize, hslot, hfits, hbegun, hgeneration⟩ := hlocal
    cases h
    rw [copy_eq_setSlot]
    refine insideStep_setSlot hstart rfl rfl (fun owned howned hread => Or.inr ?_) rfl rfl rfl
      ⟨hsize, hslot, hfits.range, hbegun, ?_, ?_, fun index hindex => ?_⟩
    · exact readable_of_copy hread howned hfits.above
    · simpa [Shared.setSlot] using hgeneration
    · simp [Shared.setSlot]
    · have hrange : offset ≤ offset + index ∧ offset + index < offset + request.size := by omega
      simp [Shared.setSlot, hrange]
  | commit slot offset generation =>
    cases h
    exact inside_commit hstart hlocal
  | finish payload =>
    cases h
    exact inside_unlock hstart rfl hread
  | candidateLoad next =>
    simp only [stepCapture] at h
    split at h <;> cases h
    · exact insideStep_move hstart rfl rfl rfl hlocal
    · exact insideStep_move hstart rfl rfl rfl hlocal.1
  | scan next generation =>
    simp only [stepCapture] at h
    split at h <;> cases h
    · exact insideStep_move hstart rfl rfl rfl hlocal.1
    · exact insideStep_move hstart rfl rfl rfl hlocal
  | recycleCas next generation =>
    simp only [stepCapture] at h
    split at h
    next =>
      cases h
      exact insideStep_move hstart rfl rfl rfl hlocal.1
    next hsame =>
      simp only [not_or, ne_eq, not_not] at hsame
      obtain ⟨rfl, hzero⟩ := hsame
      cases h
      refine inside_begin hstart hzero rfl rfl rfl rfl ⟨hlocal.1, hlocal.2, ?_⟩
      simp [Shared.begin, Shared.setWriteOffset, Shared.setOwnership, Shared.setSlot]
  | recycleCommitted next =>
    obtain ⟨hsize, hnext, hzero⟩ := hlocal
    cases h
    refine insideStep_setSlot hstart rfl rfl (fun _ _ _ => Or.inl (Or.inl hzero)) rfl rfl rfl
      ⟨hsize, hnext, ?_⟩
    simpa [Shared.setSlot] using hzero
  | recyclePublished next =>
    obtain ⟨hsize, hnext, hzero⟩ := hlocal
    cases h
    refine insideStep_setSlot hstart rfl rfl (fun _ _ _ => Or.inl (Or.inl hzero)) rfl rfl rfl
      ⟨hsize, hnext, ?_⟩
    simpa [Shared.setSlot] using hzero
  | recycleFetchGuard next =>
    obtain ⟨hsize, hnext, hzero⟩ := hlocal
    cases h
    have hset : InsideStep shared (.capture request (.recycleFetchGuard next))
        (shared.setSlot next { shared.slots next with fetchGuardGeneration := 0 })
        (.capture request .loop) :=
      insideStep_setSlot hstart rfl rfl (fun _ _ _ => Or.inl (Or.inl hzero)) rfl rfl rfl hsize
    exact hset.setCurrentSlot hnext
  | blockedLoad next =>
    cases h
    exact insideStep_move hstart rfl rfl rfl hlocal
  | publishToken next =>
    rw [stepCapture] at h
    split at h <;> cases h
    · exact insideStep_move hstart rfl rfl rfl hlocal
    · exact insideStep_of_slots hstart rfl rfl rfl rfl rfl rfl rfl rfl rfl rfl rfl hlocal
  | recheckAccepting next =>
    rw [stepCapture] at h
    split at h <;> cases h
    all_goals exact insideStep_move hstart rfl rfl rfl hlocal
  | recheckReferences next =>
    rw [stepCapture] at h
    split at h <;> cases h
    all_goals exact insideStep_move hstart rfl rfl rfl hlocal
  | withdraw next =>
    rw [stepCapture] at h
    split at h <;> cases h
    · exact insideStep_of_slots hstart rfl rfl rfl rfl rfl rfl rfl rfl rfl rfl rfl hlocal
    · exact insideStep_move hstart rfl rfl rfl hlocal
  | wait next =>
    rw [stepCapture] at h
    split at h
    next =>
      cases h
      exact insideStep_move hstart rfl rfl rfl hlocal
    next =>
      split at h <;> cases h
      exact insideStep_of_slots hstart rfl rfl rfl rfl rfl rfl rfl rfl rfl rfl rfl hlocal
  | afterWait next failed =>
    simp only [stepCapture] at h
    split at h <;> cases h
    · cases failed
      all_goals exact insideStep_of_slots hstart rfl rfl rfl rfl rfl rfl rfl rfl rfl rfl rfl hlocal
    · cases failed
      all_goals exact insideStep_move hstart rfl rfl rfl hlocal
  | fail =>
    cases h
    exact @inside_unlock shared request .fail hstart rfl hread

end

end VitaSX2.InputRing
