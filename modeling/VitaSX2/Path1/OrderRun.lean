/-
The order of PATH1 over runs: every step keeps the invariant of `Order`.

A packet is only missing where the worker has taken more dispatches with a packet
than have entered the GIF path; the one packet that is due belongs to a draw that
is still pending.
-/
import VitaSX2.Path1.Order

namespace VitaSX2.Path1.State

variable {κ : Type} {s s' : State κ}

/-- No completion of the queue carries an epoch. -/
lemma Ordered.noEpoch (h : s.Ordered) {c : Completion} (hc : c ∈ s.queue) :
    c.universalEpoch = none := by
  have hok := h.sound.completions c (List.mem_append_left _ hc)
  cases hepoch : c.universalEpoch with
  | none => rfl
  | some epoch =>
    have hcontents : c.contents = List.replicate c.reservationCount (.epoch epoch.number) := by
      rw [Completion.contents, hepoch]
    refine absurd ?_ (h.ordinary epoch.number)
    rw [h.sound.conserved]
    refine List.mem_append_right _ (List.mem_append_left _ (List.mem_flatMap.mpr ⟨c, hc, ?_⟩))
    rw [hcontents]
    exact List.mem_replicate.mpr ⟨Nat.ne_of_gt hok.pos, rfl⟩

/-! ### MTVU -/

/-- What a function of MTVU on its pending run leaves as it is. -/
structure MtvuFrame (s s' : State κ) : Prop where
  queue : s'.queue = s.queue
  worker : s'.worker = s.worker
  published : s'.published = s.published
  consumed : s'.consumed = s.consumed
  drawsTaken : s'.drawsTaken = s.drawsTaken
  packetsTaken : s'.packetsTaken = s.packetsTaken
  markersTaken : s'.markersTaken = s.markersTaken

/-- A function of MTVU, with the packets that it adds. -/
lemma Ordered.mtvu (h : s.Ordered) (hframe : MtvuFrame s s') (hsound : s'.Sound)
    {outcomes : List Outcome} (hfinished : s'.finished = s.finished ++ outcomes)
    (hordinary : ∀ number, Outcome.epoch number ∉ outcomes) (hwaiting : s'.waiting = none)
    (hpackets : s'.packets ++ s'.packetDue.toList =
      (s.packets ++ s.packetDue.toList) ++ packetNumbers s.finished.length outcomes)
    (hdue : s'.packetDue.isSome = true →
      ∃ before info, s'.pending.contents = before ++ [.draw info] ∧ info.isPrivate = true) :
    s'.Ordered := by
  refine ⟨hsound, fun number hmem => ?_, hwaiting, ?_, hdue, ?_, ?_, ?_, ?_⟩
  · rw [hfinished] at hmem
    rcases List.mem_append.mp hmem with hmem | hmem
    · exact h.ordinary number hmem
    · exact hordinary number hmem
  · rw [hfinished, packetNumbers_append, h.packets, hframe.packetsTaken, hpackets, Nat.zero_add]
    simp only [List.append_assoc]
  · rw [hframe.drawsTaken, hframe.consumed]
    exact h.draws
  · unfold markersDue
    rw [hframe.published, hframe.markersTaken, hframe.worker, hframe.consumed, hframe.queue]
    exact h.markers
  · rw [hframe.markersTaken, hframe.consumed]
    exact h.taken
  · have hreplay := h.replay
    unfold ReplayOk at hreplay ⊢
    rw [hframe.worker, hframe.consumed, hframe.packetsTaken]
    exact hreplay

lemma Ordered.finish (h : s.Ordered) (hready : s.Ready) {dispatch : Dispatch}
    (hordinary : dispatch.Ordinary) (hkeeps : s.KeepsPrivate dispatch) :
    (s.finish dispatch).Ordered := by
  have hsound := h.sound.finish hready dispatch fun m hm => absurd hm (hordinary m)
  have hdue : s.packetDue.isSome ≠ true := by
    rw [hready.packetDue]
    exact Bool.false_ne_true
  cases dispatch with
  | noOutput =>
    obtain ⟨found, hfound, -⟩ := Pending.appendNoOutput_spec h.sound.pending
    have hnext : s.finish .noOutput = { s with
        pending := found.1
        outbox := found.2
        finished := s.finished ++ [.noOutput] } := by
      unfold State.finish State.mtvu
      rw [hfound]
    rw [hnext] at hsound ⊢
    exact h.mtvu ⟨rfl, rfl, rfl, rfl, rfl, rfl, rfl⟩ hsound rfl (by simp) h.waiting
      (List.append_nil _).symm fun hsome => absurd hsome hdue
  | draw isPrivate generated =>
    obtain ⟨found, hfound, -, hlast⟩ := Pending.appendDirectDraw_spec h.sound.pending
      ⟨s.finished.length, isPrivate, generated⟩
    have hnext : s.finish (.draw isPrivate generated) = { s with
        pending := found.1
        outbox := found.2
        packetDue := if isPrivate then some s.finished.length else none
        finished := s.finished ++ [.draw ⟨s.finished.length, isPrivate, generated⟩] } := by
      unfold State.finish State.mtvu
      simp only [hfound]
    rw [hnext] at hsound ⊢
    refine h.mtvu ⟨rfl, rfl, rfl, rfl, rfl, rfl, rfl⟩ hsound rfl (by simp) h.waiting ?_ fun hsome => ?_
    · cases isPrivate <;> simp [packetNumbers, Outcome.hasPacket, hready.packetDue]
    · cases isPrivate with
      | false => cases hsome
      | true =>
        obtain ⟨before, hcontents⟩ := hlast (hkeeps generated rfl)
        exact ⟨before, _, hcontents, rfl⟩
  | packet =>
    obtain ⟨found, hfound, -⟩ := Pending.completePacket_spec h.sound.pending
    have hnext : s.finish .packet = { s with
        pending := found.1
        outbox := found.2
        packets := s.packets ++ [s.finished.length]
        finished := s.finished ++ [.packet] } := by
      unfold State.finish State.mtvu
      simp only [hfound]
    rw [hnext] at hsound ⊢
    refine h.mtvu ⟨rfl, rfl, rfl, rfl, rfl, rfl, rfl⟩ hsound rfl (by simp) h.waiting ?_
      fun hsome => absurd hsome hdue
    simp [packetNumbers, Outcome.hasPacket, hready.packetDue]
  | epoch executeCount => exact absurd rfl (hordinary executeCount)

/-- A function of MTVU between two dispatches. -/
lemma Ordered.publish (h : s.Ordered) (hready : s.Ready)
    {result : Option (Pending × List Completion)} (hsound : (s.mtvu result []).Sound) :
    (s.mtvu result []).Ordered := by
  cases result with
  | none => cases hsound.notFailed
  | some found =>
    refine h.mtvu ⟨rfl, rfl, rfl, rfl, rfl, rfl, rfl⟩ hsound rfl nofun h.waiting
      (List.append_nil _).symm fun hsome => ?_
    rw [show (s.mtvu (some found) []).packetDue = none from hready.packetDue] at hsome
    cases hsome

lemma Ordered.push (h : s.Ordered) {completion : Completion} {outbox : List Completion}
    (houtbox : s.outbox = completion :: outbox) :
    Ordered { s with
      queue := s.queue ++ [completion]
      outbox := outbox
      published := s.published ++ [completion] } := by
  refine { h with sound := h.sound.push houtbox, markers := ?_ }
  show markerPlaces 0 (s.published ++ [completion]) =
    s.markersTaken ++ (s.markersDue ++ markerPlaces s.consumed.length (s.queue ++ [completion]))
  rw [markerPlaces_append, markerPlaces_append, h.markers, h.sound.published, List.length_append,
    Nat.zero_add]
  simp only [List.append_assoc]

lemma Ordered.packet (h : s.Ordered) {number : ℕ} (hdue : s.packetDue = some number) :
    Ordered { s with packets := s.packets ++ [number], packetDue := none } := by
  refine { h with sound := { h.sound with }, packets := ?_, due := nofun }
  show _ = s.packetsTaken ++ ((s.packets ++ [number]) ++ [])
  rw [List.append_nil, h.packets, hdue]
  rfl

/-! ### The GS worker -/

lemma Ordered.peek (h : s.Ordered) (hplace : s.worker = .idle) {completion : Completion}
    {queue : List Completion} (hlt : s.ring.read < s.ring.write)
    (hcommand : s.ring.command s.ring.read = .path1) (hqueue : s.queue = completion :: queue) :
    Ordered { s with worker := s.peek completion } := by
  have hmem : completion ∈ s.queue := by
    rw [hqueue]
    exact List.mem_cons_self
  have hpeek : s.peek completion = .claim completion false := by
    unfold State.peek
    rw [h.noEpoch hmem,
      if_neg (Nat.ne_of_gt (h.sound.completions completion (List.mem_append_left _ hmem)).pos)]
  have hsound := h.sound.peek hplace hlt hcommand hqueue
  rw [hpeek] at hsound ⊢
  have hmarkers := h.markers
  have hreplay := h.replay
  unfold markersDue at hmarkers
  unfold ReplayOk at hreplay
  rw [hplace] at hmarkers hreplay
  exact { h with sound := hsound, markers := hmarkers, replay := hreplay }

lemma Ordered.claim (h : s.Ordered) {completion : Completion} {fallback : Bool}
    (hplace : s.worker = .claim completion fallback) :
    Ordered { s with ring := s.ring.claim, worker := .consume completion fallback } := by
  have hmarkers := h.markers
  have hreplay := h.replay
  unfold markersDue at hmarkers
  unfold ReplayOk at hreplay
  rw [hplace] at hmarkers hreplay
  exact { h with sound := h.sound.claim hplace, markers := hmarkers, replay := hreplay }

/-- The markers of a completion and of those behind it, when a prefix has been consumed. -/
lemma markerPlaces_consume {c : Completion} {rest : List Completion} {n start : ℕ}
    {result : Consumption} (h : Consumes c rest n result) (hc : c.Ok) (hle : n ≤ c.reservationCount) :
    markerPlaces start (c :: rest) =
      (if result.marker then [start + n] else []) ++ markerPlaces (start + n) result.queue := by
  rw [markerPlaces, h.marker]
  rcases h.queue with ⟨rfl, hqueue⟩ | ⟨hlt, left, hqueue, -, hleft, hsubmit⟩
  · rw [hqueue, hc.count, beq_self_eq_true, Bool.and_true]
  · have hend : start + c.contents.length = start + n + left.contents.length := by
      rw [hleft, List.length_drop, hc.count]
      omega
    have hmarker : (c.submitGeneratedAfterDraws && n == c.reservationCount) = false := by
      rw [beq_false_of_ne (Nat.ne_of_lt hlt), Bool.and_false]
    rw [hqueue, hmarker, markerPlaces, hsubmit, hend]
    rfl

lemma Ordered.consume (h : s.Ordered) {completion : Completion} {fallback : Bool}
    (hplace : s.worker = .consume completion fallback) :
    (s.consume completion fallback).Ordered := by
  have hsound := h.sound.consume hplace
  have hmarkers := h.markers
  have hreplay := h.replay
  unfold markersDue at hmarkers
  unfold ReplayOk at hreplay
  rw [hplace] at hmarkers hreplay
  rcases h.sound.consume_cases hplace with ⟨epoch, hepoch, -⟩ | ⟨queue, result, hqueue, hok, -, -, hle,
    -, hconsumes, hresult⟩
  · have hworker := h.sound.worker
    unfold WorkerOk at hworker
    rw [hplace] at hworker
    obtain ⟨⟨queue, hqueue⟩, -⟩ := hworker
    rw [h.noEpoch (c := completion) (by rw [hqueue]; exact List.mem_cons_self)] at hepoch
    cases hepoch
  have hnone : completion.universalEpoch = none := h.noEpoch (by
    rw [hqueue]
    exact List.mem_cons_self)
  obtain ⟨hpackets, hepoch⟩ := hconsumes.packets hnone
  have hlength : (completion.contents.take (s.reservationPrefix completion)).length =
      s.reservationPrefix completion := by
    rw [List.length_take, hok.count, Nat.min_eq_left hle]
  rw [hresult] at hsound ⊢
  refine { h with
    sound := hsound, draws := ?_, markers := ?_, taken := ?_, replay := ⟨hepoch, ?_⟩ }
  · show s.drawsTaken ++ result.draws = (s.consumed ++ completion.contents.take _).filterMap _
    rw [h.draws, hconsumes.draws, List.filterMap_append]
  · rw [hqueue, markerPlaces_consume hconsumes hok hle] at hmarkers
    refine hmarkers.trans ?_
    unfold markersDue
    show _ = s.markersTaken ++ (_ ++ markerPlaces (s.consumed ++ completion.contents.take _).length
      result.queue)
    rw [List.length_append, hlength]
    cases result.marker <;> rfl
  · intro place hplace
    refine Nat.le_trans (h.taken place hplace) ?_
    rw [List.length_append]
    exact Nat.le_add_right _ _
  · show (packetNumbers 0 (s.consumed ++ completion.contents.take _)).length = _
    rw [packetNumbers_append, List.length_append, length_packetNumbers _ (List.take _ _), hpackets]
    exact congrArg (· + _) hreplay

/-- The packet is there. -/
lemma Ordered.replay_ne_nil (h : s.Ordered) {packets : ℕ} {marker : Bool} {epoch : Option ℕ}
    (hplace : s.worker = .replay (packets + 1) marker epoch) : s.packets ≠ [] := by
  have hreplay := h.replay
  unfold ReplayOk at hreplay
  rw [hplace] at hreplay
  intro hnil
  have hnumbers := congrArg List.length h.packets
  rw [h.sound.conserved, packetNumbers_append, List.length_append, List.length_append, hnil,
    List.nil_append, hreplay.2] at hnumbers
  cases hdue : s.packetDue with
  | none =>
    rw [hdue, Option.toList_none, List.length_nil] at hnumbers
    omega
  | some number =>
    -- the packet that is due belongs to the last pending draw
    obtain ⟨before, info, hcontents, hprivate⟩ := h.due (by rw [hdue]; rfl)
    rw [hcontents, length_packetNumbers, List.filter_append, List.filter_append,
      List.filter_append, List.filter_cons_of_pos (by exact hprivate), hdue] at hnumbers
    simp only [List.length_append, Option.toList_some, List.length_singleton,
      List.filter_nil] at hnumbers
    omega

lemma Ordered.replay' (h : s.Ordered) {packets : ℕ} {marker : Bool} {epoch : Option ℕ}
    (hplace : s.worker = .replay (packets + 1) marker epoch) :
    (s.replay packets marker epoch).Ordered := by
  have hsound := h.sound.replay hplace
  have hne := h.replay_ne_nil hplace
  have hmarkers := h.markers
  have hreplay := h.replay
  have hpackets := h.packets
  unfold markersDue at hmarkers
  unfold ReplayOk at hreplay
  rw [hplace] at hmarkers hreplay
  obtain ⟨packet, rest, hcons⟩ := List.exists_cons_of_ne_nil hne
  have hnext : s.replay packets marker epoch = { s with
      packets := rest
      packetsTaken := s.packetsTaken ++ [packet]
      worker := .replay packets marker epoch } := by
    unfold State.replay
    rw [hcons]
  rw [hnext] at hsound ⊢
  refine { h with sound := hsound, packets := ?_, markers := ?_, replay := ⟨hreplay.1, ?_⟩ }
  · show _ = (s.packetsTaken ++ [packet]) ++ (rest ++ _)
    rw [hpackets, hcons, List.append_assoc]
    rfl
  · refine hmarkers.trans ?_
    unfold markersDue
    cases marker <;> rfl
  · show _ = (s.packetsTaken ++ [packet]).length + packets
    rw [hreplay.2, List.length_append, List.length_singleton, Nat.add_assoc, Nat.add_comm 1]

lemma Ordered.mark (h : s.Ordered) {marker : Bool} (hplace : s.worker = .replay 0 marker none) :
    (s.mark marker).Ordered := by
  have hmarkers := h.markers
  have hreplay := h.replay
  unfold markersDue at hmarkers
  unfold ReplayOk at hreplay
  rw [hplace] at hmarkers hreplay
  refine { h with sound := h.sound.mark hplace, markers := ?_, taken := ?_, replay := hreplay.2 }
  · refine hmarkers.trans ?_
    unfold markersDue State.mark
    cases marker with
    | true => exact (List.append_assoc _ _ _).symm
    | false => rfl
  · cases marker with
    | true =>
      intro place hmem
      rcases List.mem_append.mp hmem with hmem | hmem
      · exact h.taken place hmem
      · exact Nat.le_of_eq (List.mem_singleton.mp hmem)
    | false => exact h.taken

lemma Ordered.advance (h : s.Ordered) (hplace : s.worker = .advance) :
    Ordered { s with ring := s.ring.advance, worker := .idle } := by
  have hmarkers := h.markers
  have hreplay := h.replay
  unfold markersDue at hmarkers
  unfold ReplayOk at hreplay
  rw [hplace] at hmarkers hreplay
  exact { h with sound := h.sound.advance hplace, markers := hmarkers, replay := hreplay }

lemma Ordered.workerMove (h : s.Ordered) (hmove : WorkerMove s s') : s'.Ordered := by
  cases hmove with
  | execute hplace hlt hcommand => exact { h with sound := h.sound.execute hplace hlt hcommand }
  | peek hplace hlt hcommand hqueue => exact h.peek hplace hlt hcommand hqueue
  | claim hplace => exact h.claim hplace
  | consume hplace => exact h.consume hplace
  | replay hplace => exact h.replay' hplace
  | mark hplace => exact h.mark hplace
  | retire hplace =>
    have hreplay := h.replay
    unfold ReplayOk at hreplay
    rw [hplace] at hreplay
    cases hreplay.1
  | advance hplace => exact h.advance hplace

/-! ### Runs -/

variable {joined : ℕ → Prop}

lemma Ordered.step (h : s.Ordered)
    (hstep : Step joined (fun s dispatch => dispatch.Ordinary ∧ s.KeepsPrivate dispatch) s s') :
    s'.Ordered := by
  cases hstep with
  | ee hmove => exact { h with sound := h.sound.ee hmove }
  | finish hready hallowed => exact h.finish hready hallowed.1 hallowed.2
  | publishPrefix hready => exact h.publish hready (h.sound.publishPrefix hready)
  | flush hready b => exact h.publish hready (h.sound.flush hready b)
  | push houtbox => exact h.push houtbox
  | packet _ hdue => exact h.packet hdue
  | gpu => exact { h with sound := { h.sound with } }
  | fallback _ hwaiting =>
    rw [h.waiting] at hwaiting
    cases hwaiting
  | resume _ hwaiting =>
    rw [h.waiting] at hwaiting
    cases hwaiting
  | worker hmove => exact h.workerMove hmove

/-- What the invariant says to an observer. -/
lemma Ordered.inOrder (h : s.Ordered) : s.InOrder := by
  have hreplay := h.replay
  have hmarkers := h.markers
  unfold ReplayOk at hreplay
  -- both are prefixes of the packets of everything that has been finished
  have hle : s.packetsTaken.length ≤ (packetNumbers 0 s.consumed).length := by
    cases hplace : s.worker with
    | replay packets marker epoch =>
      rw [hplace] at hreplay
      rw [hreplay.2]
      exact Nat.le_add_right _ _
    | failed =>
      rw [hplace] at hreplay
      exact hreplay.elim
    | _ =>
      rw [hplace] at hreplay
      exact Nat.le_of_eq hreplay.symm
  have htaken : s.packetsTaken <+: packetNumbers 0 s.consumed := by
    refine List.prefix_of_prefix_length_le ⟨_, h.packets.symm⟩ ?_ hle
    rw [h.sound.conserved, packetNumbers_append]
    exact List.prefix_append _ _
  refine ⟨⟨fun hplace => ?_, h.sound.notFailed⟩, ⟨_, h.sound.ring.items.symm⟩, h.sound.executed,
    h.sound.conserved, h.draws, ⟨htaken, fun hplace => ?_⟩, ⟨⟨_, hmarkers.symm⟩, fun hplace => ?_⟩,
    fun c hc => h.sound.marked c (List.mem_append_left _ hc)⟩
  · rw [hplace] at hreplay
    exact hreplay
  · rw [hplace] at hreplay
    exact htaken.eq_of_length hreplay.symm
  · have hpos : ∀ c ∈ s.queue, 0 < c.contents.length := by
      intro c hc
      have hok := h.sound.completions c (List.mem_append_left _ hc)
      rw [hok.count]
      exact hok.pos
    have hlater : ∀ place ∈ markerPlaces s.consumed.length s.queue,
        ¬decide (place ≤ s.consumed.length) = true := fun place hmem => by
      simpa using lt_of_mem_markerPlaces hpos hmem
    unfold markersDue at hmarkers
    rw [hplace] at hmarkers
    rw [hmarkers, List.filter_append, List.nil_append,
      List.filter_eq_self.mpr fun place hmem => decide_eq_true (h.taken place hmem),
      List.filter_eq_nil_iff.mpr hlater, List.append_nil]

/-- PATH1 keeps its order in every interleaving in which no private draw fills its run. -/
theorem path1_inOrder
    (h : Reachable joined (fun s dispatch => dispatch.Ordinary ∧ s.KeepsPrivate dispatch) s) :
    s.InOrder := by
  have hordered : s.Ordered := by
    induction h with
    | refl => exact empty_ordered
    | tail _ hstep ih => exact ih.step hstep
  exact hordered.inOrder

/-- A private draw with its packet and its marker. -/
theorem path1_inOrder_private : ∃ s : State Unit, s.InOrder ∧ s.packetsTaken = [0] ∧
    s.markersTaken = [1] ∧ s.drawsTaken = [⟨0, true, true⟩] := by
  have hroom : (1 : ℕ) < ringBufferSize - (0 - 0) := by decide
  have hallowed : ∀ s : State Unit, s.pending = .empty →
      (Dispatch.draw true true).Ordinary ∧ s.KeepsPrivate (.draw true true) := by
    intro s hs
    refine ⟨nofun, fun generated _ => ?_⟩
    rw [hs]
    rfl
  have h : Reachable (κ := Unit) (fun _ => False)
      (fun s dispatch => dispatch.Ordinary ∧ s.KeepsPrivate dispatch) _ := .refl
  -- the EE thread reserves
  have h := h.tail (.ee (.dispatch rfl) (fun _ hne => absurd rfl hne))
  have h := h.tail (.ee (.noRun rfl rfl) nofun)
  have h := h.tail (.ee (.store rfl hroom) nofun)
  have h := h.tail (.ee (.finish rfl) nofun)
  -- MTVU queues the private draw, then its packet
  have h := h.tail (.finish ⟨rfl, rfl, rfl, rfl⟩ (hallowed _ rfl) (Nat.le_refl _) nofun)
  have h := h.tail (.packet rfl rfl)
  have h := h.tail (.flush ⟨rfl, rfl, rfl, rfl⟩ true)
  have h := h.tail (.push rfl (by decide))
  -- the worker consumes both and submits the transaction
  have h := h.tail (.worker (.peek rfl Nat.one_pos rfl rfl))
  have h := h.tail (.worker (.claim rfl))
  have h := h.tail (.worker (.consume rfl))
  have h := h.tail (.worker (.replay rfl))
  have h := h.tail (.worker (.mark rfl))
  have h := h.tail (.worker (.advance rfl))
  exact ⟨_, path1_inOrder h, rfl, rfl, rfl⟩

/-! ### A private draw that fills its run -/

/-- The ring with one run of so many reservations. -/
def runOf (n : ℕ) : Ring Unit :=
  { (Ring.empty : Ring Unit) with
    command := Function.update (fun _ => .path1) 0 .path1
    run := Function.update (fun _ => ⟨false, 0⟩) 0 ⟨true, n⟩
    write := 1
    openRun := some 0
    dispatched := n
    issued := List.replicate n .reservation }

/-- So many empty dispatches: reserved in one run, and all pending. -/
def credits (n : ℕ) : State Unit :=
  { (empty : State Unit) with
    ring := runOf n
    pending := { Pending.empty with noOutputCount := n }
    finished := List.replicate n .noOutput }

lemma runOf_one : Relation.ReflTransGen EeMove (.empty : Ring Unit) (runOf 1) := by
  have hroom : (1 : ℕ) < ringBufferSize - (0 - 0) := by decide
  have h : Relation.ReflTransGen EeMove (.empty : Ring Unit) _ := .refl
  have h := h.tail (.dispatch rfl)
  have h := h.tail (.noRun rfl rfl)
  have h := h.tail (.store rfl hroom)
  exact h.tail (.finish rfl)

lemma runOf_succ {n : ℕ} (hn : n < maximumReservationRun) :
    Relation.ReflTransGen EeMove (runOf n) (runOf (n + 1)) := by
  have hword : (runOf n).run 0 = ⟨true, n⟩ := by simp [runOf]
  have hrun : Function.update (runOf n).run 0 ⟨true, n + 1⟩ = (runOf (n + 1)).run :=
    Function.update_idem _ _ _
  have hissued : (runOf n).issued ++ [.reservation] = (runOf (n + 1)).issued :=
    List.replicate_succ'.symm
  have htest : Ring.test { runOf n with ee := .reserve, dispatched := n + 1 } 0 ((runOf n).run 0) =
      { runOf n with ee := .extend 0 ⟨true, n⟩, dispatched := n + 1 } := by
    rw [hword]
    exact if_pos ⟨rfl, hn⟩
  have hload := EeMove.load (r := { runOf n with ee := .reserve, dispatched := n + 1 }) rfl
    (rfl : (runOf n).openRun = some 0)
  rw [show Ring.test _ _ _ = _ from htest] at hload
  have hexchange := EeMove.exchange
    (r := { runOf n with ee := .extend 0 ⟨true, n⟩, dispatched := n + 1 }) rfl hword
  rw [show Function.update _ _ _ = _ from hrun, show _ ++ _ = _ from hissued] at hexchange
  exact ((Relation.ReflTransGen.single (EeMove.dispatch rfl)).tail hload).tail hexchange

variable {allowed : State Unit → Dispatch → Prop}

/-- The moves of the EE thread, where no dispatches are joined. -/
lemma steps_ee {s : State Unit} {ring : Ring Unit} (h : Relation.ReflTransGen EeMove s.ring ring) :
    Relation.ReflTransGen (Step (fun _ => False) allowed) s { s with ring := ring } := by
  induction h with
  | refl => exact .refl
  | tail _ hmove ih => exact ih.tail (.ee hmove fun _ _ hmiddle => hmiddle.2)

/-- One more empty dispatch. -/
lemma credits_succ {n : ℕ} (hn : n + 1 < maximumPendingDirectRun)
    {ring : Ring Unit} (h : Relation.ReflTransGen EeMove ring (runOf (n + 1))) :
    Relation.ReflTransGen (Step (fun _ => False) fun _ dispatch => dispatch.Ordinary)
      { credits n with ring := ring } (credits (n + 1)) := by
  have hfinish : State.finish { credits n with ring := runOf (n + 1) } .noOutput =
      credits (n + 1) := by
    have hshort : ¬maximumPendingDirectRun ≤ 0 + (n + 1) := by omega
    have hfinished : (credits n).finished ++ [.noOutput] = (credits (n + 1)).finished :=
      List.replicate_succ'.symm
    unfold State.finish State.mtvu Pending.appendNoOutput Pending.flushLong
    rw [if_neg (by exact hshort)]
    exact congrArg (fun finished => { credits (n + 1) with finished := finished }) hfinished
  have hstep : Step (fun _ => False) (fun _ dispatch => dispatch.Ordinary)
      { credits n with ring := runOf (n + 1) } (State.finish _ .noOutput) :=
    .finish ⟨rfl, rfl, rfl, rfl⟩ nofun
      (Nat.le_of_eq (congrArg (· + 1) List.length_replicate)) nofun
  rw [hfinish] at hstep
  exact (steps_ee (s := { credits n with ring := ring }) h).tail hstep

/-- Fewer than 256 empty dispatches stay pending. -/
lemma reachable_credits {n : ℕ} (hn : n + 1 < maximumPendingDirectRun) :
    Reachable (fun _ => False) (fun _ dispatch => dispatch.Ordinary) (credits (n + 1)) := by
  induction n with
  | zero => exact credits_succ (n := 0) hn runOf_one
  | succ n ih =>
    have hrun : n + 1 < maximumReservationRun := Nat.lt_of_succ_lt hn
    exact (ih (Nat.lt_of_succ_lt hn)).trans (credits_succ hn (runOf_succ hrun))

/-- A private draw behind 255 empty dispatches, published before its packet. -/
def filled (n : ℕ) : State Unit :=
  { credits n with
    ring := runOf (n + 1)
    pending := .empty
    outbox := [⟨[⟨⟨n, true, false⟩, n⟩], n + 1, none, true, false, false⟩]
    packetDue := some n
    finished := (credits n).finished ++ [.draw ⟨n, true, false⟩] }

lemma reachable_filled {n : ℕ} (hn : n + 1 = maximumPendingDirectRun) :
    Relation.ReflTransGen (Step (fun _ => False) fun _ dispatch => dispatch.Ordinary) (credits n)
      (filled n) := by
  have hlength : (credits n).finished.length = n := List.length_replicate
  have hfinish : State.finish { credits n with ring := runOf (n + 1) } (.draw true false) =
      filled n := by
    have happend : Pending.appendDirectDraw { Pending.empty with noOutputCount := n }
        ⟨n, true, false⟩ =
        some (.empty, [⟨[⟨⟨n, true, false⟩, n⟩], n + 1, none, true, false, false⟩]) := by
      simp [Pending.appendDirectDraw, Pending.flushMixed, Pending.mixes, Pending.link,
        Pending.flushLong, Pending.flush, Pending.publishNoOutput, Pending.empty, hn]
    unfold State.finish
    rw [show State.finished _ = (credits n).finished from rfl, hlength,
      show State.pending _ = { Pending.empty with noOutputCount := n } from rfl]
    simp only [happend]
    rfl
  have hstep : Step (fun _ => False) (fun _ dispatch => dispatch.Ordinary)
      { credits n with ring := runOf (n + 1) } (State.finish _ (.draw true false)) :=
    .finish ⟨rfl, rfl, rfl, rfl⟩ (fun _ h => by cases h)
      (Nat.le_of_eq (congrArg (· + 1) hlength)) (fun _ h => by cases h)
  rw [hfinish] at hstep
  exact (steps_ee (runOf_succ (Nat.lt_of_lt_of_eq (Nat.lt_succ_self n) hn))).tail hstep

/-- A private draw behind 255 empty dispatches fills its run.  The completion is published before the
packet, and the worker finds no packet. -/
theorem path1_private_unordered : ∃ s : State Unit,
    Reachable (fun _ => False) (fun _ dispatch => dispatch.Ordinary) s ∧ ¬s.InOrder := by
  have h := (reachable_credits (n := 254) (by decide)).trans (reachable_filled (n := 255) rfl)
  have h := h.tail (.push rfl (by decide))
  have h := h.tail (.worker (.peek rfl Nat.one_pos rfl rfl))
  have h := h.tail (.worker (.claim rfl))
  have h := h.tail (.worker (.consume rfl))
  have h := h.tail (.worker (.replay rfl))
  exact ⟨_, h, fun hordered => hordered.noFailure.1 rfl⟩

end VitaSX2.Path1.State
