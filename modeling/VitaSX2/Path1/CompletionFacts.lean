/-
What the pending run of MTVU publishes, and what the worker takes of it.

Every function of MTVU passes its assertions and publishes the dispatches that
were pending, in their order and none twice.  A prefix of a completion is a
prefix of its dispatches, wherever the boundary falls.
-/
import VitaSX2.Path1.Completion
import Mathlib.Data.List.Basic

namespace VitaSX2.Path1

/-- A draw that the device receives. -/
def Outcome.drawInfo? : Outcome → Option DrawInfo
  | draw info => some info
  | _ => none

/-- A dispatch with a packet in the GIF path: a CPU packet, or the oracle of a private draw. -/
def Outcome.hasPacket : Outcome → Bool
  | packet => true
  | draw info => info.isPrivate
  | _ => false

/-! ### Well-formed completions and pending runs -/

structure Completion.Ok (c : Completion) : Prop where
  count : c.contents.length = c.reservationCount
  pos : 0 < c.reservationCount
  draws : c.draws ≠ [] → c.universalEpoch = none ∧ c.noOutputOnly = false ∧
    ∀ draw ∈ c.draws, draw.info.isPrivate = c.cpuPath1AfterDraws
  noDraws : c.draws = [] → c.cpuPath1AfterDraws = false ∧ c.submitGeneratedAfterDraws = false
  noOutput : c.noOutputOnly = true → c.universalEpoch = none
  epoch : ∀ epoch ∈ c.universalEpoch, c.reservationCount = epoch.executeCount

/-- A marker follows a generated draw. -/
def Completion.Marked (c : Completion) : Prop :=
  c.submitGeneratedAfterDraws = true → ∃ draw ∈ c.draws, draw.info.generated = true

structure Pending.Ok (p : Pending) : Prop where
  count : p.directCount = p.draws.length
  reservations : p.directReservations = (p.draws.flatMap Draw.contents).length
  uniform : ∀ draw ∈ p.draws, ∀ other ∈ p.draws, draw.info.isPrivate = other.info.isPrivate
  generated : p.generatedTransaction = true → ∃ draw ∈ p.draws, draw.info.generated = true

/-- What a function of MTVU has published and kept pending are these dispatches. -/
structure Publishes (dispatches : List Outcome) (result : Pending × List Completion) : Prop where
  ok : result.1.Ok
  contents : result.2.flatMap Completion.contents ++ result.1.contents = dispatches
  completions : ∀ c ∈ result.2, c.Ok ∧ c.Marked

lemma Draw.length_contents (draw : Draw) : draw.contents.length = draw.leading + 1 := by
  simp [contents]

lemma contents_draws {c : Completion} (hepoch : c.universalEpoch = none) (hdraws : c.draws ≠ []) :
    c.contents = c.draws.flatMap Draw.contents := by
  rw [Completion.contents, hepoch]
  exact if_pos hdraws

/-- A run of draws as a completion. -/
lemma run_ok {draws : List Draw} (hdraws : draws ≠ []) {isPrivate submit : Bool}
    (huniform : ∀ draw ∈ draws, draw.info.isPrivate = isPrivate) {count : ℕ}
    (hcount : count = (draws.flatMap Draw.contents).length) :
    Completion.Ok ⟨draws, count, none, isPrivate, submit, false⟩ := by
  have hcontents : Completion.contents ⟨draws, count, none, isPrivate, submit, false⟩ =
      draws.flatMap Draw.contents := contents_draws rfl hdraws
  refine ⟨?_, ?_, fun _ => ⟨rfl, rfl, huniform⟩, fun h => absurd h hdraws, nofun, nofun⟩
  · rw [hcontents, hcount]
  · show 0 < count
    cases draws with
    | nil => exact absurd rfl hdraws
    | cons draw draws =>
      rw [hcount, List.flatMap_cons, List.length_append, draw.length_contents]
      omega

lemma empty_ok : Pending.empty.Ok := ⟨rfl, rfl, nofun, nofun⟩

namespace Pending

variable {p : Pending}

lemma publishNoOutput_spec (hdraws : p.draws = []) :
    ∃ result, p.publishNoOutput = some result ∧ result.1 = { p with noOutputCount := 0 } ∧
      result.2.flatMap Completion.contents = List.replicate p.noOutputCount .noOutput ∧
      ∀ c ∈ result.2, c.Ok ∧ c.Marked := by
  unfold publishNoOutput
  rw [if_neg (not_not_intro hdraws)]
  split
  next hzero =>
    refine ⟨_, rfl, ?_, ?_, nofun⟩
    · rw [← hzero]
    · rw [hzero]
      rfl
  next hpos =>
    refine ⟨_, rfl, rfl, ?_, fun c hc => ?_⟩
    · simp [Completion.contents]
    · rw [List.mem_singleton.mp hc]
      refine ⟨⟨?_, Nat.pos_of_ne_zero hpos, fun h => absurd rfl h, fun _ => ⟨rfl, rfl⟩, fun _ => rfl,
        nofun⟩, nofun⟩
      simp [Completion.contents]

/-- `FlushPendingMtvuDirectRun` publishes everything. -/
lemma flush_spec (h : p.Ok) (requireVertexVisibility : Bool) :
    ∃ result, p.flush requireVertexVisibility = some result ∧ Publishes p.contents result ∧
      result.1.draws = [] ∧ result.1.noOutputCount = 0 ∧ result.1.directReservations = 0 := by
  unfold flush
  split
  next hdraws =>
    obtain ⟨result, hresult, hrest, hcontents, hok⟩ := publishNoOutput_spec hdraws
    refine ⟨result, hresult, ⟨?_, ?_, hok⟩, ?_, ?_, ?_⟩
    · rw [hrest]
      exact ⟨h.count, h.reservations, h.uniform, h.generated⟩
    · rw [hcontents, hrest, contents, contents, hdraws]
      simp
    · rw [hrest]
      exact hdraws
    · rw [hrest]
    · rw [hrest]
      show p.directReservations = 0
      rw [h.reservations, hdraws]
      rfl
  next head draws hdraws =>
    have hcount : p.directCount ≠ 0 := by
      rw [h.count, hdraws]
      exact Nat.succ_ne_zero _
    obtain ⟨result, hresult, hrest, hcontents, hok⟩ := publishNoOutput_spec (p := { p with
      draws := []
      directCount := 0
      directReservations := 0
      generatedTransaction := false }) rfl
    rw [if_neg hcount, hresult]
    have hne : p.draws ≠ [] := by
      rw [hdraws]
      exact List.cons_ne_nil _ _
    have hhead : head ∈ p.draws := by
      rw [hdraws]
      exact List.mem_cons_self
    refine ⟨_, rfl, ⟨?_, ?_, fun c hc => ?_⟩, ?_, ?_, ?_⟩
    · rw [hrest]
      exact ⟨rfl, rfl, nofun, nofun⟩
    · show Completion.contents _ ++ result.2.flatMap Completion.contents ++ result.1.contents = _
      rw [contents_draws rfl hne, hcontents, hrest]
      simp [contents]
    · rcases List.mem_cons.mp hc with rfl | hc
      · refine ⟨run_ok hne (fun draw hdraw => h.uniform draw hdraw head hhead) h.reservations,
          fun hsubmit => h.generated ?_⟩
        rw [Bool.and_eq_true] at hsubmit
        exact hsubmit.2
      · exact hok c hc
    · rw [hrest]
    · rw [hrest]
    · rw [hrest]

/-- The loop finds a generated draw and counts the reservations before it. -/
lemma scan_spec {draws : List Draw} {index scanned i n : ℕ} {found : Option (ℕ × ℕ)}
    (h : scan draws index scanned found = some (i, n)) :
    found = some (i, n) ∨ ∃ before draw after, draws = before ++ draw :: after ∧
      draw.info.generated = true ∧ i = index + before.length ∧
      n = scanned + (before.flatMap Draw.contents).length := by
  induction draws generalizing index scanned found with
  | nil => exact Or.inl h
  | cons draw draws ih =>
    rcases ih h with hfound | ⟨before, last, after, rfl, hlast, rfl, rfl⟩
    · split at hfound
      next hgenerated =>
        obtain ⟨rfl, rfl⟩ := Prod.mk.inj (Option.some.inj hfound)
        exact Or.inr ⟨[], draw, draws, rfl, hgenerated, rfl, rfl⟩
      next => exact Or.inl hfound
    · refine Or.inr ⟨draw :: before, last, after, rfl, hlast, ?_, ?_⟩
      · rw [List.length_cons]
        omega
      · rw [List.flatMap_cons, List.length_append, draw.length_contents]
        omega

/-- `PublishPendingMtvuDirectPrefix` keeps the last generated draw and what follows it. -/
lemma publishPrefix_spec (h : p.Ok) :
    ∃ result, p.publishPrefix = some result ∧ Publishes p.contents result := by
  have hsame : Publishes p.contents (p, []) := ⟨h, rfl, nofun⟩
  unfold publishPrefix
  split
  next hdraws =>
    obtain ⟨result, hresult, hrest, hcontents, hok⟩ := publishNoOutput_spec hdraws
    refine ⟨result, hresult, ?_, ?_, hok⟩
    · rw [hrest]
      exact ⟨h.count, h.reservations, h.uniform, h.generated⟩
    · rw [hcontents, hrest, contents, contents, hdraws]
      simp
  next head draws hdraws =>
    split
    next => exact ⟨_, rfl, hsame⟩
    next =>
      split
      next => exact ⟨_, rfl, hsame⟩
      next index reservations hscan =>
        split
        next => exact ⟨_, rfl, hsame⟩
        next hindex =>
          rcases scan_spec hscan with hnone | ⟨before, draw, after, hsplit, hgenerated, hi, hn⟩
          · cases hnone
          rw [Nat.zero_add] at hi hn
          subst hi hn
          have hbefore : before ≠ [] := by
            rintro rfl
            exact hindex rfl
          have hhead : head ∈ p.draws := by
            rw [hdraws]
            exact List.mem_cons_self
          rw [hsplit, List.take_left' rfl, List.drop_left' rfl]
          refine ⟨_, rfl, ⟨?_, ?_, ?_, fun _ => ⟨draw, List.mem_cons_self, hgenerated⟩⟩, ?_,
            fun c hc => ?_⟩
          · show p.directCount - before.length = _
            rw [h.count, hsplit, List.length_append, Nat.add_sub_cancel_left]
          · show p.directReservations - _ = _
            rw [h.reservations, hsplit, List.flatMap_append, List.length_append,
              Nat.add_sub_cancel_left]
          · intro one hone other hother
            refine h.uniform one ?_ other ?_
            · rw [hsplit]
              exact List.mem_append_right _ hone
            · rw [hsplit]
              exact List.mem_append_right _ hother
          · show Completion.contents _ ++ [] ++ _ = _
            rw [contents_draws rfl hbefore, contents, contents, hsplit]
            simp
          · rw [List.mem_singleton.mp hc]
            refine ⟨run_ok hbefore (fun one hone => h.uniform one ?_ head hhead) rfl, nofun⟩
            rw [hsplit]
            exact List.mem_append_left _ hone

/-- A long run is flushed, with everything in it. -/
lemma flushLong_spec (h : p.Ok) (reservations : ℕ) :
    ∃ result, p.flushLong reservations = some result ∧ Publishes p.contents result ∧
      (reservations < maximumPendingDirectRun → result.1 = p) := by
  unfold flushLong
  split
  next hlong =>
    obtain ⟨result, hresult, hpublishes, -⟩ := flush_spec h true
    exact ⟨result, hresult, hpublishes, fun hshort => absurd hshort (Nat.not_lt.mpr hlong)⟩
  next => exact ⟨_, rfl, ⟨h, rfl, nofun⟩, fun _ => rfl⟩

/-- An empty dispatch. -/
lemma appendNoOutput_spec (h : p.Ok) :
    ∃ result, p.appendNoOutput = some result ∧ Publishes (p.contents ++ [.noOutput]) result := by
  have hok : Ok { p with noOutputCount := p.noOutputCount + 1 } :=
    ⟨h.count, h.reservations, h.uniform, h.generated⟩
  obtain ⟨result, hresult, hpublishes, -⟩ :=
    flushLong_spec hok (p.directReservations + (p.noOutputCount + 1))
  refine ⟨result, hresult, ?_⟩
  have hcontents : p.contents ++ [.noOutput] =
      contents { p with noOutputCount := p.noOutputCount + 1 } := by
    rw [contents, contents, List.append_assoc, List.replicate_succ']
  rw [hcontents]
  exact hpublishes

/-- A run that does not mix takes the draw. -/
lemma link_ok (h : p.Ok) {info : DrawInfo} (hmixes : p.mixes info = false) : (p.link info).Ok := by
  have hsame : ∀ draw ∈ p.draws, draw.info.isPrivate = info.isPrivate := by
    intro draw hdraw
    unfold mixes at hmixes
    split at hmixes
    next tail htail =>
      rw [h.uniform draw hdraw tail (List.mem_of_getLast? htail)]
      simpa using hmixes
    next hnone =>
      rw [List.getLast?_eq_none_iff.mp hnone] at hdraw
      cases hdraw
  refine ⟨?_, ?_, fun one hone other hother => ?_, fun hgenerated => ?_⟩
  · simp [link, h.count]
  · simp [link, h.reservations, Draw.contents]
  · have hprivate : ∀ draw ∈ (p.link info).draws, draw.info.isPrivate = info.isPrivate := by
      intro draw hdraw
      rcases List.mem_append.mp hdraw with hdraw | hdraw
      · exact hsame draw hdraw
      · rw [List.mem_singleton.mp hdraw]
    rw [hprivate one hone, hprivate other hother]
  · rcases Bool.or_eq_true_iff.mp hgenerated with hbefore | hown
    · obtain ⟨draw, hdraw, hgenerated⟩ := h.generated hbefore
      exact ⟨draw, List.mem_append_left _ hdraw, hgenerated⟩
    · exact ⟨_, List.mem_append_right _ List.mem_cons_self, hown⟩

lemma contents_link (p : Pending) (info : DrawInfo) :
    (p.link info).contents = p.contents ++ [.draw info] := by
  simp [contents, link, Draw.contents]

/-- The draw fills the run, which is flushed with it. -/
def fills (p : Pending) (info : DrawInfo) : Bool :=
  !p.mixes info && decide (maximumPendingDirectRun ≤ p.directReservations + (p.noOutputCount + 1))

/-- A draw; unless it fills the run it stays pending. -/
lemma appendDirectDraw_spec (h : p.Ok) (info : DrawInfo) :
    ∃ result, p.appendDirectDraw info = some result ∧
      Publishes (p.contents ++ [.draw info]) result ∧
      (p.fills info = false → ∃ before, result.1.contents = before ++ [.draw info]) := by
  -- the run that takes the draw, and what has been published before it
  have hrun : ∃ rest before, p.flushMixed info = some (rest, before) ∧
      Publishes p.contents (rest, before) ∧ rest.mixes info = false ∧
      (p.fills info = false →
        rest.directReservations + (rest.noOutputCount + 1) < maximumPendingDirectRun) := by
    unfold flushMixed
    cases hmixes : p.mixes info with
    | true =>
      obtain ⟨⟨rest, before⟩, hresult, hpublishes, hdraws, hnoOutput, hreservations⟩ :=
        flush_spec h true
      refine ⟨rest, before, hresult, hpublishes, ?_, fun _ => ?_⟩
      · rw [mixes, hdraws]
        rfl
      · rw [hreservations, hnoOutput]
        decide
    | false =>
      refine ⟨p, [], rfl, ⟨h, rfl, nofun⟩, hmixes, fun hfills => ?_⟩
      unfold fills at hfills
      rw [hmixes] at hfills
      simpa using hfills
  obtain ⟨rest, before, hfirst, hpublishes, hmixes, hshort⟩ := hrun
  obtain ⟨⟨last, after⟩, hsecond, hpublishes', hkeep⟩ :=
    flushLong_spec (link_ok hpublishes.ok hmixes) (rest.link info).directReservations
  refine ⟨(last, before ++ after), ?_, ⟨hpublishes'.ok, ?_, fun c hc => ?_⟩, fun hfills => ?_⟩
  · unfold appendDirectDraw
    rw [hfirst]
    show ((rest.link info).flushLong _ >>= _) = _
    rw [hsecond]
    rfl
  · show (before ++ after).flatMap Completion.contents ++ last.contents = _
    have hbefore : before.flatMap Completion.contents ++ rest.contents = p.contents :=
      hpublishes.contents
    have hafter : after.flatMap Completion.contents ++ last.contents =
      (rest.link info).contents := hpublishes'.contents
    rw [List.flatMap_append, List.append_assoc, hafter, contents_link, ← List.append_assoc, hbefore]
  · rcases List.mem_append.mp hc with hc | hc
    · exact hpublishes.completions c hc
    · exact hpublishes'.completions c hc
  · have hlast : last = rest.link info := hkeep (hshort hfills)
    refine ⟨rest.contents, ?_⟩
    show last.contents = _
    rw [hlast, contents_link]

/-- A flush and one completion more. -/
lemma flush_append (h : p.Ok) {c : Completion} (hc : c.Ok) (hdraws : c.draws = []) :
    ∃ result, (do
        let (rest, before) ← p.flush true
        return (rest, before ++ [c])) = some result ∧
      Publishes (p.contents ++ c.contents) result := by
  obtain ⟨⟨rest, before⟩, hresult, hpublishes, hempty, hnoOutput, -⟩ := flush_spec h true
  have hrest : rest.contents = [] := by
    have hnone : rest.noOutputCount = 0 := hnoOutput
    rw [contents, show rest.draws = [] from hempty, hnone]
    rfl
  refine ⟨(rest, before ++ [c]), by rw [hresult]; rfl, hpublishes.ok, ?_, fun other hother => ?_⟩
  · have hcontents : before.flatMap Completion.contents ++ rest.contents = p.contents :=
      hpublishes.contents
    show (before ++ [c]).flatMap Completion.contents ++ rest.contents = _
    rw [hrest, List.append_nil] at hcontents ⊢
    rw [List.flatMap_append, hcontents, List.flatMap_singleton]
  · rcases List.mem_append.mp hother with hother | hother
    · exact hpublishes.completions other hother
    · rw [List.mem_singleton.mp hother]
      refine ⟨hc, fun hsubmit => ?_⟩
      rw [(hc.noDraws hdraws).2] at hsubmit
      cases hsubmit

/-- A CPU packet. -/
lemma completePacket_spec (h : p.Ok) :
    ∃ result, p.completePacket = some result ∧ Publishes (p.contents ++ [.packet]) result :=
  flush_append (c := ⟨[], 1, none, false, false, false⟩) h
    ⟨rfl, Nat.one_pos, fun h => absurd rfl h, fun _ => ⟨rfl, rfl⟩, nofun, nofun⟩ rfl

/-- A universal epoch. -/
lemma queueEpoch_spec (h : p.Ok) {epoch : Epoch} (hpos : 0 < epoch.executeCount) :
    ∃ result, p.queueEpoch epoch = some result ∧
      Publishes (p.contents ++ List.replicate epoch.executeCount (.epoch epoch.number)) result := by
  refine flush_append (c := ⟨[], epoch.executeCount, some epoch, false, false, false⟩) h
    ⟨List.length_replicate, hpos, fun h => absurd rfl h, fun _ => ⟨rfl, rfl⟩, nofun, ?_⟩ rfl
  rintro _ ⟨⟩
  rfl

end Pending

end VitaSX2.Path1
