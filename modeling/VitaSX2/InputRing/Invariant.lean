/-
The invariant of the input ring.

The reference count of a slot is the number of outstanding references to it.
Only the thread in the capture section changes a generation, an offset or bytes,
and it does so in a slot that nobody refers to, or above everything referred to.
-/
import VitaSX2.Lib.WeightSum
import VitaSX2.InputRing.Machine

namespace VitaSX2.InputRing

open Vif WeightSum

/-- The retain has counted a new reference. -/
def RetainPc.acquired : RetainPc → Bool
  | .committedLoad | .ownershipLoad | .cas .. => false
  | _ => true

/-- The slot a capture has counted a reference in before its bytes are committed. -/
def CapturePc.reserved : CapturePc → List ℕ
  | .resetCommitted slot .. | .resetPublished slot .. | .resetFetchGuard slot .. | .copy slot ..
  | .commit slot .. => [slot]
  | _ => []

/-- The capture holds the mutex. -/
def CapturePc.critical : CapturePc → Bool
  | .entryActive | .entryAccepting | .lock => false
  | _ => true

/-- The references a thread holds to committed bytes. -/
def Thread.owned : Thread → List Owned
  | .idle => []
  | .capture request (.finish payload) => [⟨payload, request.source⟩]
  | .capture _ _ => []
  | .retain owned pc => if pc.acquired then [owned, owned] else [owned]
  | .release owned _ => [owned]
  | .publish borrowed _ => borrowed
  | .resolve owned _ _ => [owned]
  | .shutdown _ => []
  | .claim _ back => back
  | .signal back => back

def Thread.reserved : Thread → List ℕ
  | .capture _ pc => pc.reserved
  | _ => []

def Thread.critical : Thread → Bool
  | .capture _ pc => pc.critical
  | _ => false

def ownedSlots (owned : List Owned) : List ℕ := owned.map fun reference => reference.payload.slot

/-- The slots of all references a thread holds. -/
def Thread.slots (thread : Thread) : List ℕ := ownedSlots thread.owned ++ thread.reserved

/-- The number of outstanding references to a slot. -/
def State.outstanding {n : ℕ} (state : State n) (slot : ℕ) : ℕ :=
  (ownedSlots state.shared.pool).count slot +
    weightSum (fun thread => thread.slots.count slot) state.threads

/-- The reference names committed bytes of the current generation, and they are the captured ones. -/
structure Readable (shared : Shared) (owned : Owned) : Prop where
  wellFormed : shared.wellFormed owned.payload = true
  mapped : shared.isMapped owned.payload.slot = true
  generation : (shared.slots owned.payload.slot).generation = owned.payload.generation
  committed : owned.payload.offset + owned.payload.size ≤
    (shared.slots owned.payload.slot).committedOffset
  written : owned.payload.offset + owned.payload.size ≤
    (shared.slots owned.payload.slot).writeOffset
  bytes : ∀ index < owned.payload.size,
    (shared.slots owned.payload.slot).bytes (owned.payload.offset + index) = owned.bytes index
  begun : (owned.payload.slot, owned.payload.generation) ∈ shared.begun

/-- An offset above everything written in a slot, with room for the payload. -/
structure Fits (shared : Shared) (slot offset size : ℕ) : Prop where
  above : (shared.slots slot).writeOffset ≤ offset
  range : isInputRingLogicalRange offset size = true

/-- What a capture knows where it is. -/
def CaptureOk (shared : Shared) (request : CaptureRequest) : CapturePc → Prop
  | .entryActive => True
  | .appendLoad offset | .appendCas offset _ _ =>
    request.size ≠ 0 ∧ Fits shared shared.currentSlot offset request.size
  | .resetCommitted slot offset generation | .resetPublished slot offset generation
  | .resetFetchGuard slot offset generation =>
    request.size ≠ 0 ∧ slot = shared.currentSlot ∧ Fits shared slot offset request.size ∧
      (slot, generation) ∈ shared.begun ∧ (shared.slots slot).generation = generation ∧
      (shared.slots slot).references = 1
  | .copy slot offset generation =>
    request.size ≠ 0 ∧ slot = shared.currentSlot ∧ Fits shared slot offset request.size ∧
      (slot, generation) ∈ shared.begun ∧ (shared.slots slot).generation = generation
  | .commit slot offset generation =>
    request.size ≠ 0 ∧ slot = shared.currentSlot ∧
      isInputRingLogicalRange offset request.size = true ∧
      (slot, generation) ∈ shared.begun ∧ (shared.slots slot).generation = generation ∧
      (shared.slots slot).writeOffset = offset + request.size ∧
      ∀ index < request.size, (shared.slots slot).bytes (offset + index) = request.source index
  | .candidateLoad next | .scan next _ | .recycleCas next _ =>
    request.size ≠ 0 ∧ next < shared.activeSlotCount
  | .recycleCommitted next | .recyclePublished next | .recycleFetchGuard next =>
    request.size ≠ 0 ∧ next < shared.activeSlotCount ∧ (shared.slots next).references = 0
  | _ => request.size ≠ 0

/-- What a thread knows where it is. -/
def Thread.LocalOk (shared : Shared) : Thread → Prop
  | .capture request pc => CaptureOk shared request pc
  | .retain owned (.rollbackCas generation references)
  | .release owned (.cas generation references)
  | .resolve owned _ (.committedLoad generation references) =>
    generation = owned.payload.generation ∧ references ≠ 0
  | .resolve owned _ (.publishedLoad generation references committed) =>
    generation = owned.payload.generation ∧ references ≠ 0 ∧
      owned.payload.offset + owned.payload.size ≤ committed
  | .resolve owned requirePublished (.done result) =>
    if result = none then requirePublished = true ∨ shared.active = false
    else result = some ⟨owned.payload.slot, owned.payload.offset⟩
  | _ => True

/-- A signal for the waiter was sent or is about to be. -/
def State.Handed {n : ℕ} (state : State n) : Prop :=
  (∃ thread back, state.threads thread = .signal back) ∨ 1 ≤ state.shared.semaphore

/-- The token of a waiter is published, or somebody has claimed it. -/
def State.Published {n : ℕ} (state : State n) (next : ℕ) : Prop :=
  state.shared.waitingSlot = some next ∨ state.Handed

/-- The token of a waiter is published while somebody will claim it, or somebody has. -/
def State.Awaited {n : ℕ} (state : State n) (next : ℕ) : Prop :=
  (state.shared.waitingSlot = some next ∧
    ((state.shared.slots next).references ≠ 0 ∨
      ∃ thread back, state.threads thread = .claim next back)) ∨ state.Handed

/-- What holds of the token where a capture is. -/
def State.TokenOk {n : ℕ} (state : State n) : Thread → Prop
  | .capture _ (.recheckAccepting next) | .capture _ (.recheckReferences next)
  | .capture _ (.withdraw next) => state.Published next
  | .capture _ (.wait next) => state.Awaited next
  | _ => True

structure Invariant {n : ℕ} (state : State n) : Prop where
  address : state.shared.address ≠ 0
  slotCount : state.shared.activeSlotCount ≤ inputRingSlotCount
  currentSlot : state.shared.currentSlot < state.shared.activeSlotCount
  begun_nodup : state.shared.begun.Nodup
  begun_le : ∀ slot generation, (slot, generation) ∈ state.shared.begun →
    generation ≤ (state.shared.slots slot).generation
  begun_pos : ∀ slot generation, (slot, generation) ∈ state.shared.begun → generation ≠ 0
  begun_current : ∀ slot, (state.shared.slots slot).references ≠ 0 →
    (slot, (state.shared.slots slot).generation) ∈ state.shared.begun
  counts : ∀ slot, (state.shared.slots slot).references = state.outstanding slot
  pool : ∀ owned ∈ state.shared.pool, Readable state.shared owned
  owned : ∀ thread, ∀ owned ∈ (state.threads thread).owned, Readable state.shared owned
  localOk : ∀ thread, (state.threads thread).LocalOk state.shared
  tokenOk : ∀ thread, state.TokenOk (state.threads thread)
  locked : ∀ thread, (state.threads thread).critical = true → state.shared.captureLocked = true
  unique : ∀ thread other, (state.threads thread).critical = true →
    (state.threads other).critical = true → thread = other

section

variable {n : ℕ} {state : State n}

/-- A slot to which a thread refers has references. -/
lemma Invariant.references_ne_zero (h : Invariant state) {thread : Fin n} {slot : ℕ}
    (hslot : slot ∈ (state.threads thread).slots) :
    (state.shared.slots slot).references ≠ 0 := by
  have hcount : 0 < (state.threads thread).slots.count slot := List.count_pos_iff.mpr hslot
  have hle := weight_le_weightSum (fun thread : Thread => thread.slots.count slot) state.threads thread
  rw [h.counts, State.outstanding]
  omega

lemma mem_slots_of_owned {thread : Thread} {owned : Owned} (h : owned ∈ thread.owned) :
    owned.payload.slot ∈ thread.slots :=
  List.mem_append_left _ (List.mem_map_of_mem h)

/-- If a slot has no reference, nothing outstanding names it. -/
lemma Invariant.not_mem_of_references_eq_zero (h : Invariant state) {slot : ℕ}
    (hzero : (state.shared.slots slot).references = 0) :
    slot ∉ ownedSlots state.shared.pool ∧ ∀ thread, slot ∉ (state.threads thread).slots := by
  have hcounts := h.counts slot
  rw [hzero, State.outstanding] at hcounts
  refine ⟨fun hmem => ?_, fun thread hmem => h.references_ne_zero hmem hzero⟩
  have hpos := List.count_pos_iff.mpr hmem
  omega

/-- If its only reference is that of one thread, nothing else names a slot. -/
lemma Invariant.not_mem_of_references_eq_one (h : Invariant state) {thread : Fin n} {slot : ℕ}
    (hone : (state.shared.slots slot).references = 1) (hslot : slot ∈ (state.threads thread).slots) :
    slot ∉ ownedSlots state.shared.pool ∧
      ∀ other, other ≠ thread → slot ∉ (state.threads other).slots := by
  have hcounts := h.counts slot
  rw [hone, State.outstanding] at hcounts
  have hown := List.count_pos_iff.mpr hslot
  have hle := weight_le_weightSum (fun thread : Thread => thread.slots.count slot) state.threads thread
  refine ⟨fun hmem => ?_, fun other hne hmem => ?_⟩
  · have hpos := List.count_pos_iff.mpr hmem
    omega
  · have hpos := List.count_pos_iff.mpr hmem
    have htwo := add_le_weightSum (fun thread : Thread => thread.slots.count slot) state.threads hne
    omega

/-- The count of outstanding references after a step of one thread. -/
lemma outstanding_next (state : State n) (thread : Fin n) (result : Shared × Thread) (slot : ℕ) :
    (state.next thread result).outstanding slot + (ownedSlots state.shared.pool).count slot +
        (state.threads thread).slots.count slot =
      state.outstanding slot + (ownedSlots result.1.pool).count slot +
        result.2.slots.count slot := by
  have hsum := weightSum_update (fun thread : Thread => thread.slots.count slot) state.threads
    thread result.2
  simp only [State.outstanding, State.next]
  omega

end

end VitaSX2.InputRing
