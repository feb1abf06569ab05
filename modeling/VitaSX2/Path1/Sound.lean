/-
The account of PATH1 that every step keeps.

What MTVU has finished is what the worker has consumed, what stands in its queue,
what MTVU has still to push and what is pending, in this order.  The worker consumes
as many reservations as dispatches, so the k-th of the ones meets the k-th of the
others.  MTVU passes all its assertions; this holds for every interleaving, also
where the worker fails.
-/
import VitaSX2.Path1.System
import VitaSX2.Path1.RingRun
import VitaSX2.Path1.ConsumptionFacts

namespace VitaSX2.Path1

variable {κ : Type}

def Item.isReservation : Item κ → Bool
  | reservation => true
  | other _ => false

/-- The reservations among what has been queued. -/
def reservations (items : List (Item κ)) : ℕ := items.countP Item.isReservation

lemma reservations_append (items others : List (Item κ)) :
    reservations (items ++ others) = reservations items + reservations others :=
  List.countP_append

lemma reservations_replicate (n : ℕ) :
    reservations (List.replicate n (.reservation : Item κ)) = n := by
  induction n with
  | zero => rfl
  | succ n ih =>
    rw [List.replicate_succ, reservations, List.countP_cons_of_pos rfl]
    exact congrArg (· + 1) ih

/-! ### The invariant -/

namespace State

/-- What the place of the worker relies on. -/
def WorkerOk (s : State κ) : Prop :=
  match s.worker with
  | .idle => s.ring.owned = true → 0 < s.ring.remaining
  | .claim completion _ =>
    (∃ queue, s.queue = completion :: queue) ∧ s.ring.read < s.ring.write ∧
      s.ring.command s.ring.read = .path1 ∧ (s.ring.owned = true → 0 < s.ring.remaining)
  | .consume completion _ =>
    (∃ queue, s.queue = completion :: queue) ∧ s.ring.owned = true ∧ 0 < s.ring.remaining
  | .replay _ _ _ | .advance => s.ring.owned = true
  | .failed => True

structure Sound (s : State κ) : Prop where
  ring : s.ring.Ok
  conserved : s.finished = s.consumed ++ (s.queue.flatMap Completion.contents ++
    (s.outbox.flatMap Completion.contents ++ s.pending.contents))
  published : s.published.flatMap Completion.contents =
    s.consumed ++ s.queue.flatMap Completion.contents
  completions : ∀ c ∈ s.queue ++ s.outbox, c.Ok
  marked : ∀ c ∈ s.published ++ s.outbox, c.Marked
  pending : s.pending.Ok
  executed : reservations s.ring.executed = s.consumed.length
  worker : s.WorkerOk
  notFailed : s.mtvuFailed = false

lemma empty_sound : (empty : State κ).Sound where
  ring := Ring.empty_ok
  conserved := rfl
  published := rfl
  completions := nofun
  marked := nofun
  pending := empty_ok
  executed := rfl
  worker := nofun
  notFailed := rfl

end State

/-! ### The EE thread -/

/-- What a move of the EE thread leaves to the worker. -/
structure EeFrame (r r' : Ring κ) : Prop where
  read : r'.read = r.read
  remaining : r'.remaining = r.remaining
  owned : r'.owned = r.owned
  executed : r'.executed = r.executed
  write : r.write ≤ r'.write
  command : ∀ p < r.write, r'.command p = r.command p

lemma Ring.test_frame (r : Ring κ) (slot : ℕ) (state : Run) : EeFrame r (r.test slot state) := by
  unfold Ring.test
  split <;> exact ⟨rfl, rfl, rfl, rfl, Nat.le_refl _, fun _ _ => rfl⟩

lemma Ring.testClose_frame (r : Ring κ) (slot : ℕ) (state : Run) (command : κ) :
    EeFrame r (r.testClose slot state command) := by
  unfold Ring.testClose
  split <;> exact ⟨rfl, rfl, rfl, rfl, Nat.le_refl _, fun _ _ => rfl⟩

lemma EeMove.frame {r r' : Ring κ} (hmove : EeMove r r') : EeFrame r r' := by
  cases hmove with
  | dispatch | noRun | exchange | noClose | exchangeClose =>
    exact ⟨rfl, rfl, rfl, rfl, Nat.le_refl _, fun _ _ => rfl⟩
  | load | failExchange => exact r.test_frame _ _
  | loadClose | failClose => exact r.testClose_frame _ _ _
  | store | write =>
    exact ⟨rfl, rfl, rfl, rfl, Nat.le_refl _,
      fun p hp => Function.update_of_ne (Nat.ne_of_lt hp) _ _⟩
  | finish | publish => exact ⟨rfl, rfl, rfl, rfl, Nat.le_succ _, fun _ _ => rfl⟩

namespace State

variable {s s' : State κ}

lemma WorkerOk.ee (h : s.WorkerOk) {ring : Ring κ} (hframe : EeFrame s.ring ring) :
    WorkerOk { s with ring := ring } := by
  unfold WorkerOk at h ⊢
  simp only [hframe.read, hframe.owned, hframe.remaining]
  cases hworker : s.worker with
  | claim completion fallback =>
    rw [hworker] at h
    obtain ⟨hqueue, hlt, hcommand, howned⟩ := h
    exact ⟨hqueue, Nat.lt_of_lt_of_le hlt hframe.write, (hframe.command _ hlt).trans hcommand, howned⟩
  | _ =>
    rw [hworker] at h
    exact h

lemma Sound.ee (h : s.Sound) {ring : Ring κ} (hmove : EeMove s.ring ring) :
    Sound { s with ring := ring } :=
  { h with
    ring := hmove.ok h.ring
    executed := (congrArg reservations hmove.frame.executed).trans h.executed
    worker := h.worker.ee hmove.frame }

/-! ### MTVU -/

/-- The worker relies on nothing of MTVU but the head of the queue. -/
lemma WorkerOk.mtvu (h : s.WorkerOk) (hring : s'.ring = s.ring) (hworker : s'.worker = s.worker)
    (hqueue : ∃ added, s'.queue = s.queue ++ added) : s'.WorkerOk := by
  obtain ⟨added, hqueue⟩ := hqueue
  unfold WorkerOk at h ⊢
  rw [hworker, hring, hqueue]
  cases hplace : s.worker with
  | claim completion fallback =>
    rw [hplace] at h
    obtain ⟨⟨queue, hhead⟩, hrest⟩ := h
    exact ⟨⟨queue ++ added, by rw [hhead]; rfl⟩, hrest⟩
  | consume completion fallback =>
    rw [hplace] at h
    obtain ⟨⟨queue, hhead⟩, hrest⟩ := h
    exact ⟨⟨queue ++ added, by rw [hhead]; rfl⟩, hrest⟩
  | _ =>
    rw [hplace] at h
    exact h

/-- The fields that the account does not read may change. -/
lemma Sound.congr (h : s.Sound) (hring : s'.ring = s.ring) (hqueue : s'.queue = s.queue)
    (hpending : s'.pending = s.pending) (houtbox : s'.outbox = s.outbox)
    (hworker : s'.worker = s.worker) (hfailed : s'.mtvuFailed = s.mtvuFailed)
    (hfinished : s'.finished = s.finished) (hpublished : s'.published = s.published)
    (hconsumed : s'.consumed = s.consumed) : s'.Sound where
  ring := by rw [hring]; exact h.ring
  conserved := by rw [hfinished, hconsumed, hqueue, houtbox, hpending]; exact h.conserved
  published := by rw [hpublished, hconsumed, hqueue]; exact h.published
  completions := by rw [hqueue, houtbox]; exact h.completions
  marked := by rw [hpublished, houtbox]; exact h.marked
  pending := by rw [hpending]; exact h.pending
  executed := by rw [hring, hconsumed]; exact h.executed
  worker := h.worker.mtvu hring hworker ⟨[], by rw [hqueue, List.append_nil]⟩
  notFailed := by rw [hfailed]; exact h.notFailed

/-- A function of MTVU that publishes what it should. -/
lemma Sound.mtvu (h : s.Sound) (hready : s.Ready) {result : Option (Pending × List Completion)}
    {outcomes : List Outcome}
    (hresult : ∃ found, result = some found ∧ Publishes (s.pending.contents ++ outcomes) found) :
    (s.mtvu result outcomes).Sound := by
  obtain ⟨⟨pending, outbox⟩, rfl, hpublishes⟩ := hresult
  have hcontents : outbox.flatMap Completion.contents ++ pending.contents =
      s.pending.contents ++ outcomes := hpublishes.contents
  refine ⟨h.ring, ?_, h.published, fun c hc => ?_, fun c hc => ?_, hpublishes.ok, h.executed,
    h.worker.mtvu rfl rfl ⟨[], (List.append_nil _).symm⟩, h.notFailed⟩
  · show s.finished ++ outcomes =
      s.consumed ++ (s.queue.flatMap _ ++ (outbox.flatMap _ ++ pending.contents))
    rw [h.conserved, hready.outbox, hcontents]
    simp only [List.flatMap_nil, List.nil_append, List.append_assoc]
  · rcases List.mem_append.mp hc with hc | hc
    · exact h.completions c (List.mem_append_left _ hc)
    · exact (hpublishes.completions c hc).1
  · rcases List.mem_append.mp hc with hc | hc
    · exact h.marked c (List.mem_append_left _ hc)
    · exact (hpublishes.completions c hc).2

lemma Sound.finish (h : s.Sound) (hready : s.Ready) (dispatch : Dispatch)
    (hpos : ∀ executeCount, dispatch = .epoch executeCount → 0 < executeCount) :
    (s.finish dispatch).Sound := by
  cases dispatch with
  | noOutput => exact h.mtvu hready (Pending.appendNoOutput_spec h.pending)
  | draw isPrivate generated =>
    obtain ⟨found, hfound, hpublishes, -⟩ :=
      Pending.appendDirectDraw_spec h.pending ⟨s.finished.length, isPrivate, generated⟩
    exact (h.mtvu hready ⟨found, hfound, hpublishes⟩).congr rfl rfl rfl rfl rfl rfl rfl rfl rfl
  | packet =>
    exact (h.mtvu hready (Pending.completePacket_spec h.pending)).congr rfl rfl rfl rfl rfl rfl
      rfl rfl rfl
  | epoch executeCount =>
    have hpos : 0 < (⟨s.finished.length, executeCount⟩ : Epoch).executeCount :=
      hpos executeCount rfl
    exact (h.mtvu hready (Pending.queueEpoch_spec h.pending hpos)).congr rfl rfl rfl rfl rfl rfl
      rfl rfl rfl

lemma Sound.publishPrefix (h : s.Sound) (hready : s.Ready) :
    (s.mtvu s.pending.publishPrefix []).Sound := by
  refine h.mtvu hready ?_
  rw [List.append_nil]
  exact Pending.publishPrefix_spec h.pending

lemma Sound.flush (h : s.Sound) (hready : s.Ready) (requireVertexVisibility : Bool) :
    (s.mtvu (s.pending.flush requireVertexVisibility) []).Sound := by
  refine h.mtvu hready ?_
  rw [List.append_nil]
  obtain ⟨found, hfound, hpublishes, -⟩ := Pending.flush_spec h.pending requireVertexVisibility
  exact ⟨found, hfound, hpublishes⟩

lemma Sound.push (h : s.Sound) {completion : Completion} {outbox : List Completion}
    (houtbox : s.outbox = completion :: outbox) :
    Sound { s with
      queue := s.queue ++ [completion]
      outbox := outbox
      published := s.published ++ [completion] } := by
  refine ⟨h.ring, ?_, ?_, ?_, ?_, h.pending, h.executed,
    h.worker.mtvu rfl rfl ⟨[completion], rfl⟩, h.notFailed⟩
  · show s.finished = s.consumed ++ ((s.queue ++ [completion]).flatMap _ ++ (outbox.flatMap _ ++ _))
    rw [h.conserved, houtbox, List.flatMap_append, List.flatMap_singleton, List.flatMap_cons]
    simp only [List.append_assoc]
  · show (s.published ++ [completion]).flatMap _ = s.consumed ++ (s.queue ++ [completion]).flatMap _
    rw [List.flatMap_append, List.flatMap_append, h.published, List.append_assoc]
  · show ∀ c ∈ (s.queue ++ [completion]) ++ outbox, c.Ok
    rw [List.append_assoc, List.singleton_append, ← houtbox]
    exact h.completions
  · show ∀ c ∈ (s.published ++ [completion]) ++ outbox, c.Marked
    rw [List.append_assoc, List.singleton_append, ← houtbox]
    exact h.marked

/-! ### The GS worker -/

/-- The worker goes to another place. -/
lemma Sound.goTo (h : s.Sound) {worker : WorkerPc} (hworker : WorkerOk { s with worker := worker }) :
    Sound { s with worker := worker } :=
  { h with worker := hworker }

lemma Sound.execute (h : s.Sound) (hplace : s.worker = .idle) {command : κ}
    (hlt : s.ring.read < s.ring.write)
    (hcommand : s.ring.command s.ring.read = .other command) :
    Sound { s with ring := s.ring.execute command } := by
  have hworker := h.worker
  refine { h with ring := Ring.execute_ok h.ring hlt hcommand, executed := ?_, worker := ?_ }
  · show reservations (s.ring.executed ++ [.other command]) = _
    rw [reservations_append, h.executed]
    rfl
  · unfold WorkerOk at hworker ⊢
    rw [hplace] at hworker
    simp only [hplace]
    exact hworker

lemma Sound.peek (h : s.Sound) (hplace : s.worker = .idle) {completion : Completion}
    {queue : List Completion} (hlt : s.ring.read < s.ring.write)
    (hcommand : s.ring.command s.ring.read = .path1) (hqueue : s.queue = completion :: queue) :
    Sound { s with worker := s.peek completion } := by
  have hworker := h.worker
  unfold WorkerOk at hworker
  rw [hplace] at hworker
  refine h.goTo ?_
  have hclaim : ∀ fallback, WorkerOk { s with worker := .claim completion fallback } :=
    fun _ => ⟨⟨queue, hqueue⟩, hlt, hcommand, hworker⟩
  unfold State.peek
  split
  next => trivial
  next =>
    split
    next => exact hclaim false
    next =>
      split
      next => trivial
      next =>
        split
        next => exact hclaim false
        next => exact hclaim true
        next => trivial
        all_goals exact hworker

lemma Sound.claim (h : s.Sound) {completion : Completion} {fallback : Bool}
    (hplace : s.worker = .claim completion fallback) :
    Sound { s with ring := s.ring.claim, worker := .consume completion fallback } := by
  have hworker := h.worker
  unfold WorkerOk at hworker
  rw [hplace] at hworker
  obtain ⟨hqueue, hlt, hcommand, howned⟩ := hworker
  obtain ⟨hring, hclaimed, hpos⟩ := Ring.claim_ok h.ring hlt hcommand howned
  refine { h with ring := hring, executed := ?_, worker := ⟨hqueue, hclaimed, hpos⟩ }
  show reservations s.ring.claim.executed = _
  rw [← h.executed]
  rcases Ring.claim_spec h.ring hlt hcommand howned with ⟨-, -, hsame⟩ | ⟨-, -, hsame⟩ <;> rw [hsame]

/-- What the worker consumes, or the assertion that fails. -/
lemma Sound.consume_cases (h : s.Sound) {completion : Completion} {fallback : Bool}
    (hplace : s.worker = .consume completion fallback) :
    (∃ epoch, completion.universalEpoch = some epoch ∧
        s.reservationPrefix completion ≠ epoch.executeCount ∧
        s.consume completion fallback = { s with worker := .failed }) ∨
      ∃ queue result, s.queue = completion :: queue ∧ completion.Ok ∧ s.ring.owned = true ∧
        0 < s.reservationPrefix completion ∧
        s.reservationPrefix completion ≤ completion.reservationCount ∧
        s.reservationPrefix completion ≤ s.ring.remaining ∧
        Consumes completion queue (s.reservationPrefix completion) result ∧
        s.consume completion fallback =
          { s with
            ring := s.ring.consume (s.reservationPrefix completion)
            queue := result.queue
            consumed := s.consumed ++ completion.contents.take (s.reservationPrefix completion)
            drawsTaken := s.drawsTaken ++ result.draws
            worker := .replay result.packets result.marker result.epoch } := by
  have hworker := h.worker
  unfold WorkerOk at hworker
  rw [hplace] at hworker
  obtain ⟨⟨queue, hqueue⟩, howned, hremaining⟩ := hworker
  have hok : completion.Ok := h.completions completion (by
    rw [hqueue]
    exact List.mem_cons_self)
  by_cases hepoch : ∀ epoch ∈ completion.universalEpoch,
      s.reservationPrefix completion = epoch.executeCount
  · have hpos : 0 < s.reservationPrefix completion := Nat.lt_min.mpr ⟨hok.pos, hremaining⟩
    have hle : s.reservationPrefix completion ≤ completion.reservationCount := Nat.min_le_left _ _
    obtain ⟨result, hresult, hconsumes⟩ : ∃ result, consumption (completion :: queue) completion
        (s.reservationPrefix completion) fallback = some result ∧ Consumes completion queue _ result :=
      consumption_spec hok hpos hle hepoch fallback
    refine Or.inr ⟨queue, result, hqueue, hok, howned, hpos, hle, Nat.min_le_right _ _, hconsumes, ?_⟩
    unfold State.consume
    rw [hqueue, hresult]
  · push Not at hepoch
    obtain ⟨epoch, hfound, hsplit⟩ := hepoch
    refine Or.inl ⟨epoch, hfound, hsplit, ?_⟩
    unfold State.consume
    rw [consumption_split hok hfound hsplit]

lemma Sound.consume (h : s.Sound) {completion : Completion} {fallback : Bool}
    (hplace : s.worker = .consume completion fallback) : (s.consume completion fallback).Sound := by
  rcases h.consume_cases hplace with ⟨-, -, -, hfailed⟩ | ⟨queue, result, hqueue, hok, howned, -, hle,
    hremaining, hconsumes, hresult⟩
  · rw [hfailed]
    exact h.goTo trivial
  rw [hresult]
  have hcontents := hconsumes.flatMap hok
  refine { h with
    ring := Ring.consume_ok h.ring howned hremaining
    conserved := ?_
    published := ?_
    completions := ?_
    executed := ?_
    worker := howned }
  · show s.finished = (s.consumed ++ completion.contents.take _) ++ (result.queue.flatMap _ ++ _)
    rw [List.append_assoc, ← List.append_assoc (List.take _ _), hcontents, ← hqueue]
    exact h.conserved
  · show _ = (s.consumed ++ completion.contents.take _) ++ result.queue.flatMap _
    rw [List.append_assoc, hcontents, ← hqueue]
    exact h.published
  · intro c hc
    rcases List.mem_append.mp hc with hc | hc
    · rcases hconsumes.ok c hc with hc | hc
      · refine h.completions c (List.mem_append_left _ ?_)
        rw [hqueue]
        exact List.mem_cons_of_mem _ hc
      · exact hc
    · exact h.completions c (List.mem_append_right _ hc)
  · show reservations (s.ring.executed ++ List.replicate _ .reservation) =
      (s.consumed ++ completion.contents.take _).length
    rw [reservations_append, reservations_replicate, h.executed, List.length_append,
      List.length_take, hok.count, Nat.min_eq_left hle]

lemma Sound.replay (h : s.Sound) {packets : ℕ} {marker : Bool} {epoch : Option ℕ}
    (hplace : s.worker = .replay (packets + 1) marker epoch) :
    (s.replay packets marker epoch).Sound := by
  have hworker := h.worker
  unfold WorkerOk at hworker
  rw [hplace] at hworker
  unfold State.replay
  split
  next => exact h.goTo trivial
  next => exact { h with worker := hworker }

lemma Sound.mark (h : s.Sound) {marker : Bool} (hplace : s.worker = .replay 0 marker none) :
    (s.mark marker).Sound := by
  have hworker := h.worker
  unfold WorkerOk at hworker
  rw [hplace] at hworker
  exact { h with worker := hworker }

lemma Sound.retire (h : s.Sound) {marker : Bool} {number : ℕ}
    (hplace : s.worker = .replay 0 marker (some number)) : (s.retire number).Sound := by
  have hworker := h.worker
  unfold WorkerOk at hworker
  rw [hplace] at hworker
  unfold State.retire
  split
  next => exact { h with worker := hworker }
  next => exact h.goTo trivial

lemma Sound.advance (h : s.Sound) (hplace : s.worker = .advance) :
    Sound { s with ring := s.ring.advance, worker := .idle } := by
  have howned := h.worker
  unfold WorkerOk at howned
  rw [hplace] at howned
  obtain ⟨hring, hidle⟩ := Ring.advance_ok h.ring howned
  refine { h with ring := hring, executed := ?_, worker := hidle }
  show reservations s.ring.advance.executed = _
  rw [← h.executed]
  unfold Ring.advance
  split <;> rfl

lemma Sound.workerMove (h : s.Sound) (hmove : WorkerMove s s') : s'.Sound := by
  cases hmove with
  | execute hplace hlt hcommand => exact h.execute hplace hlt hcommand
  | peek hplace hlt hcommand hqueue => exact h.peek hplace hlt hcommand hqueue
  | claim hplace => exact h.claim hplace
  | consume hplace => exact h.consume hplace
  | replay hplace => exact h.replay hplace
  | mark hplace => exact h.mark hplace
  | retire hplace => exact h.retire hplace
  | advance hplace => exact h.advance hplace

/-! ### Runs -/

variable {joined : ℕ → Prop} {allowed : State κ → Dispatch → Prop}

lemma Sound.step (h : s.Sound) (hstep : Step joined allowed s s') : s'.Sound := by
  cases hstep with
  | ee hmove => exact h.ee hmove
  | finish hready _ _ hepoch => exact h.finish hready _ fun m hm => (hepoch m hm).1
  | publishPrefix hready => exact h.publishPrefix hready
  | flush hready => exact h.flush hready _
  | push houtbox => exact h.push houtbox
  | packet | gpu | fallback | resume => exact { h with }
  | worker hmove => exact h.workerMove hmove

/-- The account holds in every interleaving. -/
theorem reachable_sound (h : Reachable joined allowed s) : s.Sound := by
  induction h with
  | refl => exact empty_sound
  | tail _ hstep ih => exact ih.step hstep

end State

end VitaSX2.Path1
