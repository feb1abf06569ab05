/-
What one step of the cache does to counts, programs, slots, handles and the mutex.

A step changes a count by as much as the owners that its thread sees: the slots and the
handles that point to the entry, and what the call holds.  Programs are only written by
calls that encode.
-/
import VitaSX2.Lib.WeightSum
import VitaSX2.MicroCache.Ownership
import Mathlib.Algebra.BigOperators.Fin
import Mathlib.Tactic.Ring

namespace VitaSX2.MicroCache

open WeightSum

/-! ### Owners -/

/-- What a handle points to. -/
def Handle.content {ι : Type} : Handle ι → Option (Entry × Request)
  | .absent => none
  | .present content => content
  | .reserved _ content => content

/-- The entries that a call has to release or to hand on. -/
def Thread.owned {κ : Type} : Thread κ → List Entry
  | .searched _ hit => hit.toList
  | .encoding _ candidate | .discarding _ candidate _ | .installing _ candidate
  | .rechecking _ candidate => [candidate]
  | .superseding _ candidate hit => [candidate, hit]
  | .installed _ result displaced | .retiring _ result displaced => result :: displaced.toList
  | .finishing _ (.ok result) => [result]
  | .emptied retired | .releasing retired => retired
  | _ => []

/-- An entry that a call has acquired and not yet installed. -/
def Thread.candidate {κ : Type} : Thread κ → Option Entry
  | .encoding _ candidate | .discarding _ candidate _ | .installing _ candidate
  | .rechecking _ candidate | .superseding _ candidate _ => some candidate
  | _ => none

/-- The request of a call and its result, once it is known. -/
def Thread.promise {κ : Type} : Thread κ → Option (Request × Entry)
  | .searched call (some hit) => some (call.request, hit)
  | .installing call candidate | .rechecking call candidate => some (call.request, candidate)
  | .superseding call _ hit => some (call.request, hit)
  | .installed call result _ | .retiring call result _ => some (call.request, result)
  | .finishing call (.ok result) => some (call.request, result)
  | _ => none

/-- The thread holds the mutex. -/
def Thread.locked {κ : Type} : Thread κ → Bool
  | .searching _ | .searched _ _ | .rechecking _ _ | .superseding _ _ _ | .installed _ _ _
  | .emptying | .emptied _ => true
  | _ => false

def slotWeight (entry : Entry) (slot : CacheSlot) : ℕ := if slot.entry = some entry then 1 else 0

def contentWeight (entry : Entry) (content : Option (Entry × Request)) : ℕ :=
  if content.map Prod.fst = some entry then 1 else 0

section Owners

variable {ι κ : Type} [Fintype κ] (s : Cache ι κ) (entry : Entry)

/-- The slots with an entry. -/
def slotsOwning : ℕ := weightSum (slotWeight entry) s.slots

/-- The handles of an entry. -/
def handlesOwning : ℕ := weightSum (fun handle => contentWeight entry handle.content) s.handles

/-- The owners that one thread sees. -/
def visibleOwners (t : Thread κ) : ℕ :=
  slotsOwning s entry + handlesOwning s entry + t.owned.count entry

end Owners

variable {ι κ : Type} {s s' : Cache ι κ} {t t' : Thread κ} {entry other : Entry}

/-! ### Changes of one place -/

lemma slotsOwning_update (slot : Fin 8) (value : CacheSlot) (clock : ℕ) :
    slotsOwning { s with slots := Function.update s.slots slot value, clock } entry +
      slotWeight entry (s.slots slot) = slotsOwning s entry + slotWeight entry value :=
  weightSum_update _ _ _ _

lemma slotsOwning_touch (slot : Fin 8) :
    slotsOwning (s.touch slot) entry = slotsOwning s entry := by
  have h : slotsOwning (s.touch slot) entry + slotWeight entry (s.slots slot) =
      slotsOwning s entry + slotWeight entry (s.slots slot) := slotsOwning_update slot _ _
  exact Nat.add_right_cancel h

/-- The new program takes a slot from the displaced one. -/
lemma slotsOwning_install (candidate : Entry) :
    slotsOwning (s.install candidate) entry +
        (s.slots s.evictionTarget).entry.toList.count entry =
      slotsOwning s entry + [candidate].count entry := by
  have h : slotsOwning (s.install candidate) entry + slotWeight entry (s.slots s.evictionTarget) =
      slotsOwning s entry + slotWeight entry ⟨some candidate, s.clock + 1⟩ :=
    slotsOwning_update _ _ _
  have hdisplaced : (s.slots s.evictionTarget).entry.toList.count entry =
      slotWeight entry (s.slots s.evictionTarget) := by
    rw [slotWeight]
    cases (s.slots s.evictionTarget).entry <;> simp [List.count_cons]
  have hcandidate : [candidate].count entry = slotWeight entry ⟨some candidate, s.clock + 1⟩ := by
    simp [slotWeight, List.count_cons]
  omega

/-- The slots point to what is listed as resident. -/
lemma slotsOwning_eq_count : slotsOwning s entry = s.resident.count entry := by
  have hlist : ∀ l : List (Fin 8), (l.map fun slot => slotWeight entry (s.slots slot)).sum =
      (l.filterMap fun slot => (s.slots slot).entry).count entry := by
    intro l
    induction l with
    | nil => rfl
    | cons slot l ih =>
      rw [List.map_cons, List.sum_cons, ih, List.filterMap_cons, slotWeight]
      cases (s.slots slot).entry with
      | none => simp
      | some value =>
        simp only [Option.some.injEq, List.count_cons, beq_iff_eq]
        omega
  rw [slotsOwning, weightSum, Fin.sum_univ_def]
  exact hlist _

lemma contentWeight_none : contentWeight entry none = 0 := rfl

lemma contentWeight_some (request : Request) :
    contentWeight entry (some (other, request)) = [other].count entry := by
  simp [contentWeight, List.count_cons]

lemma references_touch (slot : Fin 8) : (s.touch slot).references = s.references := rfl

lemma references_install (candidate : Entry) : (s.install candidate).references = s.references := rfl

lemma slotsOwning_retain : slotsOwning (s.retain other) entry = slotsOwning s entry := rfl

lemma slotsOwning_release : slotsOwning (s.release other) entry = slotsOwning s entry := rfl

lemma program_releaseContent (content : Option (Entry × Request)) :
    (s.releaseContent content).program = s.program := by cases content <;> rfl

lemma slots_releaseContent (content : Option (Entry × Request)) :
    (s.releaseContent content).slots = s.slots := by cases content <;> rfl

lemma holder_releaseContent (content : Option (Entry × Request)) :
    (s.releaseContent content).holder = s.holder := by cases content <;> rfl

lemma slotsOwning_releaseContent (content : Option (Entry × Request)) :
    slotsOwning (s.releaseContent content) entry = slotsOwning s entry := by cases content <;> rfl

/-- A count goes up by one. -/
lemma references_retain (entry other : Entry) :
    (s.retain entry).references other = s.references other + ([entry].count other : ℕ) := by
  by_cases h : entry = other
  · subst h
    simp [Cache.retain]
  · simp [Cache.retain, Function.update_of_ne (Ne.symm h), h]

/-- A count goes down by one. -/
lemma references_release (entry other : Entry) :
    (s.release entry).references other = s.references other - ([entry].count other : ℕ) := by
  by_cases h : entry = other
  · subst h
    simp [Cache.release]
  · simp [Cache.release, Function.update_of_ne (Ne.symm h), h]

section Handles

variable [DecidableEq κ] [Fintype κ]

lemma references_releaseContent (content : Option (Entry × Request)) (other : Entry) :
    (s.releaseContent content).references other =
      s.references other - (contentWeight other content : ℕ) := by
  cases content with
  | none => simp [Cache.releaseContent, contentWeight_none]
  | some value =>
    rw [Cache.releaseContent, references_release]
    simp [contentWeight, List.count_cons]

omit [DecidableEq κ] in
lemma handlesOwning_retain : handlesOwning (s.retain other) entry = handlesOwning s entry := rfl

omit [DecidableEq κ] in
lemma handlesOwning_release : handlesOwning (s.release other) entry = handlesOwning s entry := rfl

omit [DecidableEq κ] in
lemma handlesOwning_touch (slot : Fin 8) :
    handlesOwning (s.touch slot) entry = handlesOwning s entry := rfl

omit [DecidableEq κ] in
lemma handlesOwning_install (candidate : Entry) :
    handlesOwning (s.install candidate) entry = handlesOwning s entry := rfl

omit [DecidableEq κ] in
lemma handlesOwning_releaseContent (content : Option (Entry × Request)) :
    handlesOwning (s.releaseContent content) entry = handlesOwning s entry := by
  cases content <;> rfl

omit [DecidableEq κ] [Fintype κ] in
lemma handles_releaseContent (content : Option (Entry × Request)) :
    (s.releaseContent content).handles = s.handles := by cases content <;> rfl

omit [Fintype κ] in
lemma handles_setHandle_of_ne {place other : κ} (handle : Handle ι) (h : other ≠ place) :
    (s.setHandle place handle).handles other = s.handles other := Function.update_of_ne h _ _

omit [Fintype κ] in
lemma references_setHandle (place : κ) (handle : Handle ι) :
    (s.setHandle place handle).references = s.references := rfl

omit [Fintype κ] in
lemma slotsOwning_setHandle (place : κ) (handle : Handle ι) :
    slotsOwning (s.setHandle place handle) entry = slotsOwning s entry := rfl

lemma handlesOwning_setHandle (entry : Entry) {place : κ} {handle : Handle ι}
    {old new : Option (Entry × Request)} (hold : (s.handles place).content = old)
    (hnew : handle.content = new) :
    handlesOwning (s.setHandle place handle) entry + contentWeight entry old =
      handlesOwning s entry + contentWeight entry new := by
  subst hold hnew
  exact weightSum_update (fun handle : Handle ι => contentWeight entry handle.content) s.handles
    place handle

end Handles

/-! ### The balance of a step -/

/-- The places that a thread has reserved. -/
def Reserved (i : ι) (s : Cache ι κ) : Thread κ → Prop
  | .lookup call | .searching call | .searched call _ | .acquiring call _ | .encoding call _
  | .discarding call _ _ | .installing call _ | .rechecking call _ | .superseding call _ _
  | .installed call _ _ | .retiring call _ _ | .finishing call _ =>
    s.handles call.result = .reserved i none
  | .assigning destination source => destination ≠ source ∧
    s.handles destination = .reserved i none ∧ ∃ content, s.handles source = .reserved i content
  | _ => True

section Balance

variable [DecidableEq κ] [Fintype κ]
  {tables : BitVec 32 → BitVec 32 → BitVec 32 → Bool → Bool → Option GpuPairPlan} {i : ι}

/-- A reference count changes by as much as the owners that the thread sees. -/
lemma Move.balance (h : Move tables i s t s' t') (hreserved : Reserved i s t) (entry : Entry) :
    s'.references entry + visibleOwners s entry t = s.references entry + visibleOwners s' entry t' := by
  cases h with
  | lockLookup hfree | lockInstall hfree | lockClear hfree => rfl
  | miss hfind => rfl
  | unlockHit | unlockMiss | unlockInstalled | unlockClear => rfl
  | noPool hindex | skip hused | retireNone | clear | cleared => rfl
  | write program | encoded hencode | refused hencode => rfl
  | prepare habsent _ | reject habsent _ =>
    have hplace := handlesOwning_setHandle entry (congrArg Handle.content habsent)
      (rfl : (Handle.reserved i none).content = _)
    simp only [visibleOwners, Thread.owned, Handle.content, references_setHandle,
      slotsOwning_setHandle, contentWeight_none, List.count_nil] at hplace ⊢
    omega
  | construct habsent =>
    have hplace := handlesOwning_setHandle entry (congrArg Handle.content habsent)
      (rfl : (Handle.present none).content = _)
    simp only [visibleOwners, Thread.owned, Handle.content, references_setHandle,
      slotsOwning_setHandle, contentWeight_none, List.count_nil] at hplace ⊢
    omega
  | acquire hzero =>
    rename_i call acquired
    have hcount : Function.update s.references acquired 1 entry =
        s.references entry + ([acquired].count entry : ℕ) := by
      by_cases h : acquired = entry
      · subst h
        simp [hzero]
      · simp [Function.update_of_ne (Ne.symm h), h]
    simp only [visibleOwners, Thread.owned, hcount, List.count_nil]
    have hslots : slotsOwning { s with references := Function.update s.references acquired 1 } entry =
      slotsOwning s entry := rfl
    have hhandles : handlesOwning { s with references := Function.update s.references acquired 1 }
      entry = handlesOwning s entry := rfl
    omega
  | hit hfind hentry =>
    simp only [visibleOwners, Thread.owned, references_retain, references_touch, slotsOwning_retain,
      slotsOwning_touch, handlesOwning_retain, handlesOwning_touch, Option.toList_some,
      List.count_nil]
    omega
  | hitAgain hfind hentry =>
    simp only [visibleOwners, Thread.owned, references_retain, references_touch, slotsOwning_retain,
      slotsOwning_touch, handlesOwning_retain, handlesOwning_touch, List.count_cons, List.count_nil]
    omega
  | discard | supersede | retire | releaseRetired =>
    simp only [visibleOwners, Thread.owned, references_release, slotsOwning_release,
      handlesOwning_release, Option.toList_none, Option.toList_some, List.count_cons, List.count_nil]
    omega
  | install hfind =>
    rename_i call candidate
    have hslots : slotsOwning (s.install candidate) entry +
        (s.slots s.evictionTarget).entry.toList.count entry =
      slotsOwning s entry + [candidate].count entry := slotsOwning_install candidate
    simp only [visibleOwners, Thread.owned, references_retain, references_install,
      slotsOwning_retain, handlesOwning_retain, handlesOwning_install, List.count_cons,
      List.count_nil] at hslots ⊢
    omega
  | finish =>
    rename_i call result
    have hplace := handlesOwning_setHandle entry (congrArg Handle.content hreserved)
      (rfl : (resultHandle (ι := ι) call.request result).content = _)
    cases result <;>
    · simp only [visibleOwners, Thread.owned, Handle.content, resultHandle, references_setHandle,
        slotsOwning_setHandle, contentWeight_none, contentWeight_some, List.count_nil] at hplace ⊢
      omega
  | empty =>
    have hslots : slotsOwning s entry = s.resident.count entry := slotsOwning_eq_count
    have hnone : slotsOwning { s with slots := fun _ => {}, clock := 0 } entry = 0 := by
      simp [slotsOwning, weightSum, slotWeight]
    have hhandles : handlesOwning { s with slots := fun _ => {}, clock := 0 } entry =
      handlesOwning s entry := rfl
    simp only [visibleOwners, Thread.owned, List.count_nil]
    omega
  | moveConstruct habsent hsource =>
    rename_i place source content
    have hne : source ≠ place := by
      rintro rfl
      rw [habsent] at hsource
      cases hsource
    have hplace := handlesOwning_setHandle entry (congrArg Handle.content habsent)
      (rfl : (Handle.present (ι := ι) content).content = _)
    have hsource' : ((s.setHandle place (.present content)).handles source).content = content := by
      rw [handles_setHandle_of_ne _ hne, hsource]
      rfl
    have hmoved := handlesOwning_setHandle entry hsource'
      (rfl : (Handle.present (ι := ι) none).content = _)
    simp only [visibleOwners, Thread.owned, Handle.content, references_setHandle,
      slotsOwning_setHandle, contentWeight_none, List.count_nil] at hplace hmoved ⊢
    omega
  | assign hne hdestination hsource =>
    rename_i destination source old content
    have hdestination' : ((s.releaseContent old).handles destination).content = old := by
      rw [handles_releaseContent, hdestination]
      rfl
    have hplace := handlesOwning_setHandle entry hdestination'
      (rfl : (Handle.reserved i none).content = _)
    have hsource' : (((s.releaseContent old).setHandle destination (.reserved i none)).handles
        source).content = content := by
      rw [handles_setHandle_of_ne _ (Ne.symm hne), handles_releaseContent, hsource]
      rfl
    have hmoved := handlesOwning_setHandle entry hsource'
      (rfl : (Handle.reserved i content).content = _)
    simp only [visibleOwners, Thread.owned, Handle.content, references_setHandle,
      references_releaseContent,
      slotsOwning_setHandle, slotsOwning_releaseContent, handlesOwning_releaseContent,
      contentWeight_none, List.count_nil] at hplace hmoved ⊢
    omega
  | assigned hsource =>
    rename_i destination source content
    obtain ⟨hne, hdestination, -⟩ := hreserved
    have hplace := handlesOwning_setHandle entry (congrArg Handle.content hdestination)
      (rfl : (Handle.present (ι := ι) content).content = _)
    have hsource' : ((s.setHandle destination (.present content)).handles source).content =
        content := by
      rw [handles_setHandle_of_ne _ (Ne.symm hne), hsource]
      rfl
    have hmoved := handlesOwning_setHandle entry hsource'
      (rfl : (Handle.present (ι := ι) none).content = _)
    simp only [visibleOwners, Thread.owned, Handle.content, references_setHandle,
      slotsOwning_setHandle, contentWeight_none, List.count_nil] at hplace hmoved ⊢
    omega
  | destroy hpresent =>
    rename_i place content
    have hpresent' : ((s.releaseContent content).handles place).content = content := by
      rw [handles_releaseContent, hpresent]
      rfl
    have hplace := handlesOwning_setHandle entry hpresent'
      (rfl : (Handle.absent (ι := ι)).content = _)
    simp only [visibleOwners, Thread.owned, Handle.content, references_setHandle,
      references_releaseContent,
      slotsOwning_setHandle, slotsOwning_releaseContent, handlesOwning_releaseContent,
      contentWeight_none, List.count_nil] at hplace ⊢
    omega

omit [DecidableEq κ] [Fintype κ] in
lemma slotsOwning_pos {slot : Fin 8} (h : (s.slots slot).entry = some entry) :
    0 < slotsOwning s entry := by
  have hle := weight_le_weightSum (slotWeight entry) s.slots slot
  rw [slotWeight, if_pos h] at hle
  exact hle

omit [DecidableEq κ] in
lemma handlesOwning_pos {place : κ} {request : Request}
    (h : (s.handles place).content = some (entry, request)) : 0 < handlesOwning s entry := by
  have hle := weight_le_weightSum (fun handle => contentWeight entry handle.content) s.handles place
  rw [h, contentWeight_some, List.count_singleton_self] at hle
  exact hle

omit [DecidableEq κ] [Fintype κ] in
lemma eq_of_retain_ne (h : (s.retain other).references entry ≠ s.references entry) :
    other = entry := by
  by_contra hne
  exact h (Function.update_of_ne (Ne.symm hne) _ _)

omit [DecidableEq κ] [Fintype κ] in
lemma eq_of_release_ne (h : (s.release other).references entry ≠ s.references entry) :
    other = entry := by
  by_contra hne
  exact h (Function.update_of_ne (Ne.symm hne) _ _)

omit [DecidableEq κ] in
lemma handlesOwning_pos_of_releaseContent {place : κ} {content : Option (Entry × Request)}
    (hcontent : (s.handles place).content = content)
    (h : (s.releaseContent content).references entry ≠ s.references entry) :
    0 < handlesOwning s entry := by
  cases content with
  | none => exact absurd rfl h
  | some value =>
    obtain ⟨released, request⟩ := value
    obtain rfl := eq_of_release_ne h
    exact handlesOwning_pos hcontent

/-- A count that a step changes is zero or counts an owner that the thread sees. -/
lemma Move.changes_count (h : Move tables i s t s' t')
    (hne : s'.references entry ≠ s.references entry) :
    s.references entry = 0 ∨ 0 < visibleOwners s entry t := by
  unfold visibleOwners
  cases h with
  | lockLookup hfree | lockInstall hfree | lockClear hfree => exact absurd rfl hne
  | miss hfind => exact absurd rfl hne
  | unlockHit | unlockMiss | unlockInstalled | unlockClear => exact absurd rfl hne
  | noPool hindex | skip hused | retireNone | clear | cleared => exact absurd rfl hne
  | write program | encoded hencode | refused hencode => exact absurd rfl hne
  | prepare habsent _ | reject habsent _ | construct habsent => exact absurd rfl hne
  | finish | empty | assigned hsource => exact absurd rfl hne
  | moveConstruct habsent hsource => exact absurd rfl hne
  | acquire hzero =>
    rename_i call acquired
    by_cases heq : acquired = entry
    · exact Or.inl (heq ▸ hzero)
    · exact absurd (Function.update_of_ne (Ne.symm heq) _ _) hne
  | hit hfind hentry | hitAgain hfind hentry =>
    obtain rfl := eq_of_retain_ne (s := s.touch _) hne
    exact Or.inr (Nat.add_pos_left (Nat.add_pos_left (slotsOwning_pos hentry) _) _)
  | install hfind =>
    obtain rfl := eq_of_retain_ne (s := s.install _) hne
    exact Or.inr (Nat.add_pos_right _ (by simp [Thread.owned]))
  | discard | supersede | retire | releaseRetired =>
    obtain rfl := eq_of_release_ne hne
    exact Or.inr (Nat.add_pos_right _ (by simp [Thread.owned]))
  | assign _ hdestination hsource =>
    have hpos := handlesOwning_pos_of_releaseContent (congrArg Handle.content hdestination) hne
    exact Or.inr (Nat.add_pos_left (Nat.add_pos_right _ hpos) _)
  | destroy hpresent =>
    have hpos := handlesOwning_pos_of_releaseContent (congrArg Handle.content hpresent) hne
    exact Or.inr (Nat.add_pos_left (Nat.add_pos_right _ hpos) _)

omit [Fintype κ] in
/-- Only a call that is encoding writes a program, that of its candidate. -/
lemma Move.changes_program (h : Move tables i s t s' t')
    (hne : s'.program entry ≠ s.program entry) : ∃ call, t = .encoding call entry := by
  cases h with
  | write program =>
    refine ⟨_, congrArg _ ?_⟩
    by_contra heq
    exact hne (Function.update_of_ne (Ne.symm heq) _ _)
  | encoded hencode =>
    refine ⟨_, congrArg _ ?_⟩
    by_contra heq
    exact hne (Function.update_of_ne (Ne.symm heq) _ _)
  | assign _ _ _ | destroy _ => exact absurd (congrFun (program_releaseContent _) _) hne
  | _ => exact absurd rfl hne

omit [Fintype κ] in
lemma Move.program_eq (h : Move tables i s t s' t') (hthread : ∀ call, t ≠ .encoding call entry) :
    s'.program entry = s.program entry := by
  by_contra hne
  obtain ⟨call, hencoding⟩ := h.changes_program hne
  exact hthread call hencoding

omit [Fintype κ] in
/-- A slot gets its entry from a call that has found no other one for its request. -/
lemma Move.changes_slot (h : Move tables i s t s' t') {slot : Fin 8}
    (hentry : (s'.slots slot).entry = some entry) :
    (s.slots slot).entry = some entry ∨ ∃ call, t = .rechecking call entry ∧
      s.findLocked call.request = none ∧ slot = s.evictionTarget := by
  have htouch : ∀ {found slot : Fin 8} {clock : ℕ}, ((Function.update s.slots found
      { s.slots found with lastUse := clock }) slot).entry = (s.slots slot).entry := by
    intro found slot clock
    by_cases heq : slot = found
    · rw [heq, Function.update_self]
    · rw [Function.update_of_ne heq]
  cases h with
  | hit hfind _ | hitAgain hfind _ => exact Or.inl (htouch.symm.trans hentry)
  | install hfind =>
    by_cases heq : slot = s.evictionTarget
    · change (Function.update s.slots s.evictionTarget _ slot).entry = _ at hentry
      rw [heq, Function.update_self] at hentry
      cases hentry
      exact Or.inr ⟨_, rfl, hfind, heq⟩
    · change (Function.update s.slots s.evictionTarget _ slot).entry = _ at hentry
      rw [Function.update_of_ne heq] at hentry
      exact Or.inl hentry
  | empty => cases hentry
  | assign _ _ _ | destroy _ =>
    change ((Cache.releaseContent _ _).slots slot).entry = _ at hentry
    rw [slots_releaseContent] at hentry
    exact Or.inl hentry
  | _ => exact Or.inl hentry

omit [Fintype κ] in
/-- What a handle points to comes from a handle, or from a call that returns it. -/
lemma Move.changes_handle (h : Move tables i s t s' t') {place : κ} {request : Request}
    (hcontent : (s'.handles place).content = some (entry, request)) :
    (∃ source, (s.handles source).content = some (entry, request)) ∨
      ∃ call, t = .finishing call (.ok entry) ∧ request = call.request := by
  have hset : ∀ {s : Cache ι κ} {target : κ} {handle : Handle ι},
      ((s.setHandle target handle).handles place).content = some (entry, request) →
        handle.content = some (entry, request) ∨
          (s.handles place).content = some (entry, request) := by
    intro s target handle hcontent
    by_cases heq : place = target
    · subst heq
      rw [Cache.setHandle] at hcontent
      dsimp only at hcontent
      rw [Function.update_self] at hcontent
      exact Or.inl hcontent
    · rw [handles_setHandle_of_ne _ heq] at hcontent
      exact Or.inr hcontent
  cases h with
  | prepare _ _ | reject _ _ | construct _ =>
    rcases hset hcontent with hnew | hold
    · cases hnew
    · exact Or.inl ⟨_, hold⟩
  | finish =>
    rename_i call result
    rcases hset hcontent with hnew | hold
    · cases result with
      | error message => cases hnew
      | ok result =>
        cases hnew
        exact Or.inr ⟨call, rfl, rfl⟩
    · exact Or.inl ⟨_, hold⟩
  | moveConstruct _ hsource =>
    rcases hset hcontent with hnew | hcontent
    · cases hnew
    rcases hset hcontent with hnew | hold
    · exact Or.inl ⟨_, (congrArg Handle.content hsource).trans hnew⟩
    · exact Or.inl ⟨_, hold⟩
  | assign _ _ hsource =>
    rcases hset hcontent with hnew | hcontent
    · exact Or.inl ⟨_, (congrArg Handle.content hsource).trans hnew⟩
    rcases hset hcontent with hnew | hold
    · cases hnew
    · rw [handles_releaseContent] at hold
      exact Or.inl ⟨_, hold⟩
  | assigned hsource =>
    rcases hset hcontent with hnew | hcontent
    · cases hnew
    rcases hset hcontent with hnew | hold
    · exact Or.inl ⟨_, (congrArg Handle.content hsource).trans hnew⟩
    · exact Or.inl ⟨_, hold⟩
  | destroy _ =>
    rcases hset hcontent with hnew | hold
    · cases hnew
    · rw [handles_releaseContent] at hold
      exact Or.inl ⟨_, hold⟩
  | _ => exact Or.inl ⟨_, hcontent⟩

/-! ### Reserved places -/

omit [Fintype κ] in
/-- A thread leaves the places alone that another one has reserved. -/
lemma Move.keeps_reserved (h : Move tables i s t s' t') (hreserved : Reserved i s t) {j : ι}
    (hne : j ≠ i) {place : κ} {content : Option (Entry × Request)}
    (hplace : s.handles place = .reserved j content) : s'.handles place = .reserved j content := by
  -- A place that the step writes is absent, present or reserved by the thread itself.
  have habsent : ∀ {target : κ}, s.handles target = .absent → place ≠ target := by
    rintro target htarget rfl
    rw [hplace] at htarget
    cases htarget
  have hpresent : ∀ {target : κ} {content' : Option (Entry × Request)},
      s.handles target = .present content' → place ≠ target := by
    rintro target content' htarget rfl
    rw [hplace] at htarget
    cases htarget
  have hown : ∀ {target : κ} {content' : Option (Entry × Request)},
      s.handles target = .reserved i content' → place ≠ target := by
    rintro target content' htarget rfl
    rw [hplace] at htarget
    cases htarget
    exact hne rfl
  cases h with
  | prepare h _ | reject h _ | construct h =>
    rw [handles_setHandle_of_ne _ (habsent h), hplace]
  | finish => rw [handles_setHandle_of_ne _ (hown hreserved), hplace]
  | moveConstruct h hsource =>
    rw [handles_setHandle_of_ne _ (hpresent hsource), handles_setHandle_of_ne _ (habsent h), hplace]
  | assign _ hdestination hsource =>
    rw [handles_setHandle_of_ne _ (hpresent hsource), handles_setHandle_of_ne _ (hpresent hdestination),
      handles_releaseContent, hplace]
  | assigned hsource =>
    rw [handles_setHandle_of_ne _ (hown hsource), handles_setHandle_of_ne _ (hown hreserved.2.1),
      hplace]
  | destroy h =>
    rw [handles_setHandle_of_ne _ (hpresent h), handles_releaseContent, hplace]
  | _ => exact hplace

omit [Fintype κ] in
/-- A thread keeps its own places until it is done with them. -/
lemma Move.reserved (h : Move tables i s t s' t') (hreserved : Reserved i s t) :
    Reserved i s' t' := by
  cases h with
  | prepare _ _ | reject _ _ => exact Function.update_self _ _ _
  | assign hne hdestination hsource =>
    refine ⟨hne, ?_, _, Function.update_self _ _ _⟩
    rw [handles_setHandle_of_ne _ hne]
    exact Function.update_self _ _ _
  | finish | cleared | clear | construct _ | moveConstruct _ _ | assigned _ | destroy _ => trivial
  | lockClear _ | empty | unlockClear | releaseRetired => trivial
  | _ => exact hreserved

omit [DecidableEq κ] [Fintype κ] in
/-- The places of a thread stay reserved when no one else writes them. -/
lemma Reserved.congr {s' : Cache ι κ} (h : Reserved i s t)
    (hkeep : ∀ (place : κ) (content : Option (Entry × Request)),
      s.handles place = .reserved i content → s'.handles place = .reserved i content) :
    Reserved i s' t := by
  cases t with
  | assigning destination source =>
    obtain ⟨hne, hdestination, content, hsource⟩ := h
    exact ⟨hne, hkeep _ _ hdestination, content, hkeep _ _ hsource⟩
  | idle | clearing | emptying | emptied retired | releasing retired => trivial
  | _ => exact hkeep _ _ h

/-! ### The mutex -/

omit [Fintype κ] in
/-- A step of a thread that knows whether it holds the mutex. -/
lemma Move.holder (h : Move tables i s t s' t') (hlock : s.holder = some i ↔ t.locked = true) :
    (s'.holder = some i ↔ t'.locked = true) ∧ ∀ j ≠ i, s'.holder = some j ↔ s.holder = some j := by
  have hfreed : s.holder = some i → ∀ j ≠ i, (none : Option ι) = some j ↔ s.holder = some j := by
    intro hheld j hne
    rw [hheld]
    exact ⟨fun h => (nomatch h), fun h => absurd (Option.some.inj h).symm hne⟩
  cases h with
  | lockLookup hfree | lockInstall hfree | lockClear hfree =>
    refine ⟨⟨fun _ => rfl, fun _ => rfl⟩, fun j hne => ?_⟩
    rw [hfree]
    exact ⟨fun h => absurd (Option.some.inj h).symm hne, fun h => nomatch h⟩
  | unlockHit | unlockMiss | unlockInstalled | unlockClear =>
    exact ⟨⟨fun h => (nomatch h), fun h => (nomatch h)⟩, hfreed (hlock.mpr rfl)⟩
  | assign _ _ _ | destroy _ =>
    change ((Cache.releaseContent _ _).holder = _ ↔ _) ∧ ∀ j ≠ i, (Cache.releaseContent _ _).holder = _ ↔ _
    rw [holder_releaseContent]
    exact ⟨hlock, fun _ _ => Iff.rfl⟩
  | _ => exact ⟨hlock, fun _ _ => Iff.rfl⟩

/-! ### Candidates and promises -/

omit [Fintype κ] in
/-- The count of a candidate is one when it is acquired, and stays so while no slot points
to it. -/
lemma Move.candidate (h : Move tables i s t s' t')
    (hone : ∀ e, t.candidate = some e → s.references e = 1 ∧ slotsOwning s e = 0)
    (hcandidate : t'.candidate = some entry) : s'.references entry = 1 := by
  cases h with
  | acquire hzero =>
    cases hcandidate
    exact Function.update_self _ _ _
  | hitAgain hfind hentry =>
    cases hcandidate
    obtain ⟨hone, hslots⟩ := hone _ rfl
    by_contra hne
    obtain rfl := eq_of_retain_ne (s := s.touch _) fun heq => hne (heq.trans hone)
    exact absurd (slotsOwning_pos hentry) (by omega)
  | write _ | encoded _ | refused _ | lockInstall _ =>
    cases hcandidate
    exact (hone _ rfl).1
  | _ => cases hcandidate

/-- Every slot points to an encoded program. -/
def SlotsEncoded (tables : BitVec 32 → BitVec 32 → BitVec 32 → Bool → Bool → Option GpuPairPlan)
    (s : Cache ι κ) : Prop :=
  ∀ slot entry, (s.slots slot).entry = some entry →
    ∃ request, encodeUniversalMicroProgram tables request = .ok (s.program entry)

omit [DecidableEq κ] [Fintype κ] in
/-- What is found in the slots is the program of the request. -/
lemma encode_of_findLocked (hslots : SlotsEncoded tables s) {request : Request} {slot : Fin 8}
    (hfind : s.findLocked request = some slot) (hentry : (s.slots slot).entry = some entry) :
    encodeUniversalMicroProgram tables request = .ok (s.program entry) := by
  have hmatch := List.find?_some hfind
  rw [hentry] at hmatch
  obtain ⟨other, hother⟩ := hslots slot entry hentry
  rw [(matches_iff_of_encode hother request).mp hmatch]
  exact hother

omit [Fintype κ] in
/-- A call knows the program of its result: it has found it, encoded it or known it. -/
lemma Move.promise (h : Move tables i s t s' t') (hslots : SlotsEncoded tables s)
    (hpromise : ∀ request e, t.promise = some (request, e) →
      encodeUniversalMicroProgram tables request = .ok (s.program e))
    {request : Request} (hresult : t'.promise = some (request, entry)) :
    encodeUniversalMicroProgram tables request = .ok (s'.program entry) := by
  cases h with
  | hit hfind hentry | hitAgain hfind hentry =>
    cases hresult
    exact encode_of_findLocked hslots hfind hentry
  | encoded hencode =>
    cases hresult
    dsimp only
    rw [Function.update_self]
    exact hencode
  | unlockHit | lockInstall _ | supersede | install _ | unlockInstalled | retire | retireNone =>
    cases hresult
    exact hpromise _ _ rfl
  | _ => cases hresult

end Balance

end VitaSX2.MicroCache
