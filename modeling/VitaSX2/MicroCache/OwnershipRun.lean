/-
Reference counts, programs and slots over all runs of the cache.

The count of an entry is the number of its owners: the slots and handles that point to it
and the calls that hold it.  A candidate that is being encoded has one owner, so no slot,
no handle and no other call sees what is written to it.
-/
import VitaSX2.MicroCache.OwnershipFacts

namespace VitaSX2.MicroCache

open Interleaving WeightSum

section Run

variable {ι κ : Type} [Fintype ι] [Fintype κ] [DecidableEq ι] [DecidableEq κ]
  {tables : BitVec 32 → BitVec 32 → BitVec 32 → Bool → Bool → Option GpuPairPlan}
  {state state' : State ι (Cache ι κ) (Thread κ)} {entry : Entry} {i j : ι}

omit [DecidableEq ι] [DecidableEq κ] in
/-- The owners of an entry: slots, handles and calls in progress. -/
def owners (entry : Entry) (state : State ι (Cache ι κ) (Thread κ)) : ℕ :=
  slotsOwning state.shared entry + handlesOwning state.shared entry +
    weightSum (fun thread => thread.owned.count entry) state.threads

/-- What holds in every state: the counts are those of the owners, the slots and handles
point to programs that are encoded, no two slots to that of one request, and the calls
know what they hold. -/
structure OwnershipInv
    (tables : BitVec 32 → BitVec 32 → BitVec 32 → Bool → Bool → Option GpuPairPlan)
    (state : State ι (Cache ι κ) (Thread κ)) : Prop where
  counted : ∀ entry, state.shared.references entry = owners entry state
  slots : SlotsEncoded tables state.shared
  distinct : ∀ (slot other : Fin 8) (entry entry' : Entry) (request : Request), slot ≠ other →
    (state.shared.slots slot).entry = some entry → (state.shared.slots other).entry = some entry' →
    encodeUniversalMicroProgram tables request = .ok (state.shared.program entry) →
    encodeUniversalMicroProgram tables request ≠ .ok (state.shared.program entry')
  handles : ∀ (place : κ) (entry : Entry) (request : Request),
    (state.shared.handles place).content = some (entry, request) →
    encodeUniversalMicroProgram tables request = .ok (state.shared.program entry)
  reserved : ∀ i, Reserved i state.shared (state.threads i)
  locked : ∀ i, state.shared.holder = some i ↔ (state.threads i).locked = true
  candidates : ∀ i entry, (state.threads i).candidate = some entry →
    state.shared.references entry = 1
  promises : ∀ i request entry, (state.threads i).promise = some (request, entry) →
    encodeUniversalMicroProgram tables request = .ok (state.shared.program entry)

omit [Fintype ι] [Fintype κ] [DecidableEq ι] [DecidableEq κ] in
lemma count_candidate {t : Thread κ} (h : t.candidate = some entry) : 0 < t.owned.count entry := by
  cases t <;> cases h <;> simp [Thread.owned]

omit [Fintype ι] [Fintype κ] [DecidableEq ι] [DecidableEq κ] in
lemma count_promise {t : Thread κ} {request : Request} (h : t.promise = some (request, entry)) :
    0 < t.owned.count entry := by
  cases t with
  | searched call hit =>
    cases hit <;> cases h
    simp [Thread.owned]
  | finishing call result =>
    cases result <;> cases h
    simp [Thread.owned]
  | _ => cases h <;> simp [Thread.owned]

omit [DecidableEq κ] in
/-- The thread is the only owner of its candidate. -/
lemma OwnershipInv.sole (h : OwnershipInv tables state)
    (hcandidate : (state.threads i).candidate = some entry) :
    slotsOwning state.shared entry = 0 ∧ handlesOwning state.shared entry = 0 ∧
      ∀ j ≠ i, (state.threads j).owned.count entry = 0 := by
  have hone := h.candidates i entry hcandidate
  have hcounted := h.counted entry
  have hpos := count_candidate hcandidate
  have hle := weight_le_weightSum (fun thread : Thread κ => thread.owned.count entry)
    state.threads i
  unfold owners at hcounted
  refine ⟨by omega, by omega, fun j hne => ?_⟩
  exact eq_zero_of_weightSum_le (fun thread : Thread κ => thread.owned.count entry) state.threads
    hne (by omega)

/-! ### One step -/

variable {s' : Cache ι κ} {t' : Thread κ}

/-- A program that someone else can see is not written. -/
lemma OwnershipInv.program_eq (h : OwnershipInv tables state)
    (hmove : Move tables i state.shared (state.threads i) s' t')
    (hseen : 0 < slotsOwning state.shared entry ∨ 0 < handlesOwning state.shared entry ∨
      ∃ j ≠ i, 0 < (state.threads j).owned.count entry) :
    s'.program entry = state.shared.program entry := by
  by_contra hne
  obtain ⟨call, hencoding⟩ := hmove.changes_program hne
  have hcandidate : (state.threads i).candidate = some entry := by
    rw [hencoding]
    rfl
  obtain ⟨hslots, hhandles, hthreads⟩ := h.sole hcandidate
  rcases hseen with hpos | hpos | ⟨j, hj, hpos⟩
  · omega
  · omega
  · rw [hthreads j hj] at hpos
    exact absurd hpos (Nat.lt_irrefl 0)

/-- The counts stay those of the owners. -/
lemma OwnershipInv.counted_step (h : OwnershipInv tables state)
    (hmove : Move tables i state.shared (state.threads i) s' t') (entry : Entry) :
    s'.references entry = owners entry ⟨s', Function.update state.threads i t'⟩ := by
  have hbalance := hmove.balance (h.reserved i) entry
  have hcounted := h.counted entry
  have hthreads := weightSum_update (fun thread : Thread κ => thread.owned.count entry)
    state.threads i t'
  unfold visibleOwners at hbalance
  unfold owners at hcounted ⊢
  dsimp only at hcounted hthreads ⊢
  omega

/-- No two slots point to the program of one request. -/
lemma OwnershipInv.distinct_step (h : OwnershipInv tables state)
    (hmove : Move tables i state.shared (state.threads i) s' t') {slot other : Fin 8}
    {entry entry' : Entry} {request : Request} (hne : slot ≠ other)
    (hentry : (s'.slots slot).entry = some entry) (hentry' : (s'.slots other).entry = some entry')
    (hencode : encodeUniversalMicroProgram tables request = .ok (s'.program entry))
    (hencode' : encodeUniversalMicroProgram tables request = .ok (s'.program entry')) : False := by
  -- A call that takes a slot has found the program of its request in no slot.
  have hnew : ∀ {call : Call κ} {candidate old : Entry} {place : Fin 8},
      state.threads i = .rechecking call candidate →
      state.shared.findLocked call.request = none →
      (state.shared.slots place).entry = some old →
      encodeUniversalMicroProgram tables request = .ok (s'.program candidate) →
      encodeUniversalMicroProgram tables request = .ok (s'.program old) → False := by
    intro call candidate old place hthread hfind hold hcandidate hprogram
    have hunchanged : s'.program candidate = state.shared.program candidate :=
      hmove.program_eq fun _ => by rw [hthread]; exact fun h => nomatch h
    have hown := h.promises i call.request candidate (by rw [hthread]; rfl)
    rw [hunchanged] at hcandidate
    obtain rfl : call.request = request :=
      (matches_iff_of_encode hcandidate _).mp (matches_of_encode hown)
    rw [h.program_eq hmove (Or.inl (slotsOwning_pos hold))] at hprogram
    have hmiss := List.find?_eq_none.mp hfind place (List.mem_finRange _)
    rw [hold] at hmiss
    exact hmiss (matches_of_encode hprogram)
  rcases hmove.changes_slot hentry with hold | ⟨call, hthread, hfind, rfl⟩
  · rcases hmove.changes_slot hentry' with hold' | ⟨call, hthread, hfind, rfl⟩
    · rw [h.program_eq hmove (Or.inl (slotsOwning_pos hold))] at hencode
      rw [h.program_eq hmove (Or.inl (slotsOwning_pos hold'))] at hencode'
      exact h.distinct slot other entry entry' request hne hold hold' hencode hencode'
    · exact hnew hthread hfind hold hencode' hencode
  · rcases hmove.changes_slot hentry' with hold' | ⟨call', -, -, rfl⟩
    · exact hnew hthread hfind hold' hencode hencode'
    · exact hne rfl

/-- One step keeps everything. -/
lemma OwnershipInv.step (h : OwnershipInv tables state)
    (hmove : Move tables i state.shared (state.threads i) s' t') :
    OwnershipInv tables ⟨s', Function.update state.threads i t'⟩ := by
  have hown : Function.update state.threads i t' i = t' := Function.update_self _ _ _
  have hother : ∀ j ≠ i, Function.update state.threads i t' j = state.threads j :=
    fun j hne => Function.update_of_ne hne _ _
  have hholder := hmove.holder (h.locked i)
  constructor
  · exact h.counted_step hmove
  · intro slot entry hentry
    rcases hmove.changes_slot hentry with hold | ⟨call, hthread, hfind, -⟩
    · obtain ⟨request, hencode⟩ := h.slots slot entry hold
      exact ⟨request, (h.program_eq hmove (Or.inl (slotsOwning_pos hold))).symm ▸ hencode⟩
    · refine ⟨call.request, ?_⟩
      have hunchanged : s'.program entry = state.shared.program entry :=
        hmove.program_eq fun _ => by rw [hthread]; exact fun h => nomatch h
      dsimp only
      rw [hunchanged]
      exact h.promises i _ _ (by rw [hthread]; rfl)
  · exact fun slot other entry entry' request hne hentry hentry' hencode hencode' =>
      h.distinct_step hmove hne hentry hentry' hencode hencode'
  · intro place entry request hcontent
    rcases hmove.changes_handle hcontent with ⟨source, hold⟩ | ⟨call, hthread, rfl⟩
    · dsimp only
      rw [h.program_eq hmove (Or.inr (Or.inl (handlesOwning_pos hold)))]
      exact h.handles source entry request hold
    · have hunchanged : s'.program entry = state.shared.program entry :=
        hmove.program_eq fun _ => by rw [hthread]; exact fun h => nomatch h
      dsimp only
      rw [hunchanged]
      exact h.promises i _ _ (by rw [hthread]; rfl)
  · intro j
    by_cases hj : j = i
    · subst hj
      dsimp only
      rw [hown]
      exact hmove.reserved (h.reserved j)
    · dsimp only
      rw [hother j hj]
      exact (h.reserved j).congr fun place content hplace =>
        hmove.keeps_reserved (h.reserved i) hj hplace
  · intro j
    by_cases hj : j = i
    · subst hj
      dsimp only
      rw [hown]
      exact hholder.1
    · dsimp only
      rw [hother j hj, hholder.2 j hj]
      exact h.locked j
  · intro j entry hcandidate
    by_cases hj : j = i
    · subst hj
      dsimp only at hcandidate
      rw [hown] at hcandidate
      exact hmove.candidate (fun e he => ⟨h.candidates j e he, (h.sole he).1⟩) hcandidate
    · dsimp only at hcandidate ⊢
      rw [hother j hj] at hcandidate
      have hone := h.candidates j entry hcandidate
      obtain ⟨hslots, hhandles, hthreads⟩ := h.sole hcandidate
      by_contra hne
      rcases hmove.changes_count (fun heq => hne (heq.trans hone)) with hzero | hpos
      · omega
      · have hthread := hthreads i (Ne.symm hj)
        unfold visibleOwners at hpos
        omega
  · intro j request entry hpromise
    by_cases hj : j = i
    · subst hj
      dsimp only at hpromise ⊢
      rw [hown] at hpromise
      exact hmove.promise h.slots (h.promises j) hpromise
    · dsimp only at hpromise ⊢
      rw [hother j hj] at hpromise
      rw [h.program_eq hmove (Or.inr (Or.inr ⟨j, hj, count_promise hpromise⟩))]
      exact h.promises j request entry hpromise

omit [DecidableEq ι] [DecidableEq κ] in
lemma ownershipInv_start (program : Entry → UniversalMicroProgram) :
    OwnershipInv tables (startState ι κ program) := by
  constructor
  · intro entry
    simp [startState, owners, slotsOwning, handlesOwning, weightSum, slotWeight, contentWeight,
      Handle.content, Thread.owned]
  · intro slot entry hentry
    cases hentry
  · intro slot other entry entry' request hne hentry
    cases hentry
  · intro place entry request hcontent
    cases hcontent
  · exact fun i => trivial
  · intro i
    constructor
    · intro h
      cases h
    · intro h
      cases h
  · intro i entry hcandidate
    cases hcandidate
  · intro i request entry hpromise
    cases hpromise

/-- Every state of every run. -/
theorem ownershipInv_of_reachable {program : Entry → UniversalMicroProgram}
    (hreach : (ownershipSystem tables).Reachable (startState ι κ program) state) :
    OwnershipInv tables state := by
  refine hreach.invariant (ownershipInv_start program) fun {state state'} h hstep => ?_
  cases hstep with
  | thread i hmove => exact h.step hmove
  | ambient hmove => cases hmove

/-- The ownership of the pool: the counts are those of the owners, an entry that is owned
is not acquired, the program of a handle is that of its request and is not written, and no
two slots hold one request. -/
structure CacheOwnership
    (tables : BitVec 32 → BitVec 32 → BitVec 32 → Bool → Bool → Option GpuPairPlan)
    (state : State ι (Cache ι κ) (Thread κ)) : Prop where
  counted : ∀ entry, state.shared.references entry = owners entry state
  nonneg : ∀ entry, 0 ≤ state.shared.references entry
  unowned : ∀ i s' call (entry : Entry),
    Move tables i state.shared (state.threads i) s' (.encoding call entry) →
    state.threads i = .acquiring call entry.val → owners entry state = 0
  encoded : ∀ place entry request, (state.shared.handles place).content = some (entry, request) →
    encodeUniversalMicroProgram tables request = .ok (state.shared.program entry)
  unwritten : ∀ i s' t' place entry request,
    Move tables i state.shared (state.threads i) s' t' →
    (state.shared.handles place).content = some (entry, request) →
    s'.program entry = state.shared.program entry
  distinct : state.shared.holder = none → ∀ (slot other : Fin 8) (entry entry' : Entry) request,
    slot ≠ other → (state.shared.slots slot).entry = some entry →
    (state.shared.slots other).entry = some entry' →
    encodeUniversalMicroProgram tables request = .ok (state.shared.program entry) →
    encodeUniversalMicroProgram tables request ≠ .ok (state.shared.program entry')

/-- The ownership of the pool over any number of threads and handles and any interleaving. -/
theorem cacheOwnership_of_reachable {program : Entry → UniversalMicroProgram}
    (hreach : (ownershipSystem tables).Reachable (startState ι κ program) state) :
    CacheOwnership tables state := by
  have h := ownershipInv_of_reachable hreach
  constructor
  · exact h.counted
  · intro entry
    rw [h.counted]
    exact Int.natCast_nonneg _
  · intro i s' call entry hmove hthread
    have hcounted := h.counted entry
    rw [hthread] at hmove
    generalize hindex : entry.val = index at hmove
    cases hmove with
    | acquire hzero => omega
  · exact h.handles
  · exact fun i s' t' place entry request hmove hcontent =>
      h.program_eq hmove (Or.inr (Or.inl (handlesOwning_pos hcontent)))
  · exact fun _ => h.distinct

end Run

/-- An image of zeros with its first pair as the start. -/
def zeroRequest : Request := ⟨fun _ => 0, 0, 0⟩

lemma encodes_zeroRequest : ∃ program,
    encodeUniversalMicroProgram (fun _ _ _ _ _ => none) zeroRequest = .ok program := by
  have hpairs : ∀ l : List ℕ, ∃ encoded,
      l.mapM (encodePair (fun _ _ _ _ _ => none) zeroRequest) = .ok encoded := by
    intro l
    induction l with
    | nil => exact ⟨[], rfl⟩
    | cons index l ih =>
      obtain ⟨encoded, hencoded⟩ := ih
      cases hpair : encodePair (fun _ _ _ _ _ => none) zeroRequest index with
      | error error => cases hpair
      | ok pair =>
        refine ⟨pair :: encoded, ?_⟩
        rw [List.mapM_cons, hpair, hencoded]
        rfl
  obtain ⟨encoded, hencoded⟩ := hpairs (List.range universalMicroProgramPairCount)
  cases hencode : encodeUniversalMicroProgram (fun _ _ _ _ _ => none) zeroRequest with
  | ok program => exact ⟨program, rfl⟩
  | error error =>
    unfold encodeUniversalMicroProgram at hencode
    rw [if_neg (by decide), if_neg (by decide), hencoded] at hencode
    cases hencode

lemma findLocked_eq_none {ι κ : Type} {s : Cache ι κ} (h : ∀ slot, (s.slots slot).entry = none)
    (request : Request) : s.findLocked request = none := by
  unfold Cache.findLocked
  rw [List.find?_eq_none]
  intro slot _
  rw [h]
  exact Bool.false_ne_true

/-- The only thread moves. -/
lemma reachable_move {κ : Type} [DecidableEq κ]
    {tables : BitVec 32 → BitVec 32 → BitVec 32 → Bool → Bool → Option GpuPairPlan}
    {start : Interleaving.State Unit (Cache Unit κ) (Thread κ)} {s s' : Cache Unit κ}
    {t t' : Thread κ} (hreach : (ownershipSystem tables).Reachable start ⟨s, fun _ => t⟩)
    (hmove : Move tables () s t s' t') :
    (ownershipSystem tables).Reachable start ⟨s', fun _ => t'⟩ := by
  have hthreads : Function.update (fun _ : Unit => t) () t' = fun _ => t' := by
    ext
    rfl
  rw [← hthreads]
  exact hreach.tail (.thread () hmove)

/-- One thread that asks an empty cache for a program owns it. -/
theorem cacheOwnership_of_reachable_prepared :
    ∃ state : State Unit (Cache Unit Unit) (Thread Unit),
      (state.shared.handles ()).content = some (0, zeroRequest) ∧
        CacheOwnership (fun _ _ _ _ _ => none) state := by
  obtain ⟨program, hencode⟩ := encodes_zeroRequest
  have hmiss : ∀ {s : Cache Unit Unit}, (∀ slot, (s.slots slot).entry = none) →
      s.findLocked (⟨zeroRequest, ()⟩ : Call Unit).request = none :=
    fun h => findLocked_eq_none h _
  have hacquire : ∀ {s : Cache Unit Unit} {call : Call Unit}, s.references 0 = 0 →
      Move (fun _ _ _ _ _ => none) () s (.acquiring call 0)
        { s with references := Function.update s.references 0 1 } (.encoding call 0) :=
    fun h => .acquire h
  have hstart : (ownershipSystem fun _ _ _ _ _ => none).Reachable
      (startState Unit Unit fun _ => {})
      ⟨(startState Unit Unit fun _ => {}).shared, fun _ => .idle⟩ := .refl
  have hprepare : Move (fun _ _ _ _ _ => none) () (startState Unit Unit fun _ => {}).shared .idle _
      (.lookup ⟨zeroRequest, ()⟩) := .prepare rfl (by decide)
  have hlookup := reachable_move hstart hprepare
  have hmissed := reachable_move (reachable_move hlookup (.lockLookup rfl))
    (.miss (hmiss fun _ => rfl))
  have hencoding := reachable_move (reachable_move hmissed .unlockMiss) (hacquire rfl)
  have hlocked := reachable_move (reachable_move hencoding (.encoded hencode)) (.lockInstall rfl)
  have hinstalled := reachable_move hlocked (.install (hmiss fun _ => rfl))
  have hretiring := reachable_move hinstalled .unlockInstalled
  have hfinishing := reachable_move hretiring .retireNone
  exact ⟨_, rfl, cacheOwnership_of_reachable (reachable_move hfinishing .finish)⟩

end VitaSX2.MicroCache
