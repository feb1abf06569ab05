/-
What the worker takes of a completion.

A prefix of a completion is a prefix of its dispatches, wherever the boundary
falls.  The only prefix that an assertion refuses is a part of a universal epoch.
-/
import VitaSX2.Path1.CompletionFacts
import Mathlib.Tactic.ByContra

namespace VitaSX2.Path1

/-! ### Draws -/

lemma Draw.filterMap_contents (draw : Draw) :
    draw.contents.filterMap Outcome.drawInfo? = [draw.info] := by
  rw [contents, List.filterMap_append, List.filterMap_replicate_of_none rfl]
  rfl

/-- `TakeMtvuDirectPrefix` splits the dispatches of the draws. -/
lemma takeDirectPrefix_spec {draws : List Draw} {n : ℕ}
    (hle : n ≤ (draws.flatMap Draw.contents).length) :
    ∃ taken remaining, takeDirectPrefix draws n = (taken, remaining, 0) ∧
      taken.map Draw.info =
        ((draws.flatMap Draw.contents).take n).filterMap Outcome.drawInfo? ∧
      remaining.flatMap Draw.contents = (draws.flatMap Draw.contents).drop n ∧
      ∀ draw ∈ taken ++ remaining, ∃ other ∈ draws, draw.info = other.info := by
  induction draws generalizing n with
  | nil =>
    obtain rfl : n = 0 := Nat.le_zero.mp hle
    exact ⟨[], [], rfl, rfl, rfl, nofun⟩
  | cons draw draws ih =>
    rw [List.flatMap_cons, List.length_append, draw.length_contents] at hle
    unfold takeDirectPrefix
    by_cases hzero : n = 0
    · subst hzero
      exact ⟨[], draw :: draws, rfl, rfl, rfl, fun other hother => ⟨other, hother, rfl⟩⟩
    rw [if_neg hzero]
    rcases Nat.lt_or_ge draw.leading n with hlong | hshort
    · -- the empty dispatches, the draw and a prefix of the other draws
      obtain ⟨m, rfl⟩ : ∃ m, n = draw.contents.length + m :=
        ⟨n - (draw.leading + 1), by rw [draw.length_contents]; omega⟩
      obtain ⟨taken, remaining, hresult, htaken, hremaining, hinfo⟩ := ih (n := m) (by
        rw [draw.length_contents] at hle
        omega)
      have hleft : draw.contents.length + m - min (draw.contents.length + m) draw.leading =
          m + 1 := by
        rw [draw.length_contents]
        omega
      simp only [hleft, if_neg (Nat.succ_ne_zero m), Nat.add_sub_cancel, hresult]
      refine ⟨_, _, rfl, ?_, ?_, fun other hother => ?_⟩
      · rw [List.map_cons, htaken, List.flatMap_cons, List.take_length_add_append,
          List.filterMap_append, draw.filterMap_contents]
        rfl
      · rw [hremaining, List.flatMap_cons, List.drop_length_add_append]
      · rcases List.mem_cons.mp hother with rfl | hother
        · exact ⟨draw, List.mem_cons_self, rfl⟩
        · obtain ⟨found, hfound, hsame⟩ := hinfo other hother
          exact ⟨found, List.mem_cons_of_mem _ hfound, hsame⟩
    · -- a part of the empty dispatches
      simp only [Nat.min_eq_left hshort, Nat.sub_self, ↓reduceIte]
      have hempty : draw.contents = List.replicate n .noOutput ++
          Draw.contents { draw with leading := draw.leading - n } := by
        rw [Draw.contents, Draw.contents, ← List.append_assoc, List.replicate_append_replicate,
          Nat.add_sub_cancel' hshort]
      refine ⟨_, _, rfl, ?_, ?_, fun other hother => ?_⟩
      · rw [List.flatMap_cons, hempty, List.append_assoc,
          List.take_left' List.length_replicate, List.filterMap_replicate_of_none rfl]
        rfl
      · rw [List.flatMap_cons, List.flatMap_cons, hempty, List.append_assoc,
          List.drop_left' List.length_replicate]
      · rcases List.mem_cons.mp hother with rfl | hother
        · exact ⟨draw, List.mem_cons_self, rfl⟩
        · exact ⟨other, List.mem_cons_of_mem _ hother, rfl⟩

/-! ### Completions -/

/-- What is left of a completion. -/
def Completion.left (c : Completion) (n : ℕ) (remaining : List Draw) : Completion :=
  { c with draws := remaining, reservationCount := c.reservationCount - n }

/-- The queue after a prefix of its head. -/
def queueAfter (c : Completion) (rest : List Completion) (n : ℕ) (remaining : List Draw) :
    List Completion :=
  if n = c.reservationCount then rest else c.left n remaining :: rest

variable {c : Completion} {rest : List Completion} {n : ℕ} {remaining : List Draw}

lemma consumePrefix_spec (hpos : 0 < n) (hle : n ≤ c.reservationCount)
    (hepoch : c.universalEpoch.isSome = true → n = c.reservationCount)
    (hend : n = c.reservationCount → remaining = []) :
    consumePrefix (c :: rest) n remaining = some (queueAfter c rest n remaining) := by
  unfold consumePrefix queueAfter Completion.left
  have hsome : ¬(c.universalEpoch.isSome = true ∧
      ¬(n = c.reservationCount ∧ remaining = [])) := by
    rintro ⟨hsome, hnot⟩
    exact hnot ⟨hepoch hsome, hend (hepoch hsome)⟩
  simp only [not_not_intro (And.intro (Nat.ne_of_gt hpos) hle), if_false, if_neg hsome]
  by_cases hall : n = c.reservationCount
  · rw [if_pos hall, hall, Nat.sub_self, hend hall]
    rfl
  · rw [if_neg hall, if_pos (by omega)]

/-- What the worker has taken is a prefix of the completion at the head. -/
structure Consumes (c : Completion) (rest : List Completion) (n : ℕ) (result : Consumption) :
    Prop where
  queue : (n = c.reservationCount ∧ result.queue = rest) ∨
    (n < c.reservationCount ∧ ∃ left : Completion, result.queue = left :: rest ∧ left.Ok ∧
      left.contents = c.contents.drop n ∧
      left.submitGeneratedAfterDraws = c.submitGeneratedAfterDraws)
  draws : result.draws = (c.contents.take n).filterMap Outcome.drawInfo?
  packets : c.universalEpoch = none →
    result.packets = ((c.contents.take n).filter Outcome.hasPacket).length ∧ result.epoch = none
  marker : result.marker = (c.submitGeneratedAfterDraws && n == c.reservationCount)

/-- A prefix of the head and what is left of it are the head. -/
lemma Consumes.flatMap {result : Consumption} (h : Consumes c rest n result) (hc : c.Ok) :
    c.contents.take n ++ result.queue.flatMap Completion.contents =
      (c :: rest).flatMap Completion.contents := by
  rw [List.flatMap_cons]
  rcases h.queue with ⟨hall, hqueue⟩ | ⟨-, left, hqueue, -, hleft, -⟩
  · rw [hqueue, List.take_of_length_le (Nat.le_of_eq (hc.count.trans hall.symm))]
  · rw [hqueue, List.flatMap_cons, hleft, ← List.append_assoc, List.take_append_drop]

lemma Consumes.ok {result : Consumption} (h : Consumes c rest n result) : ∀ d ∈ result.queue, d ∈ rest ∨ d.Ok := by
  intro d hd
  rcases h.queue with ⟨-, hqueue⟩ | ⟨-, left, hqueue, hok, -⟩
  · rw [hqueue] at hd
    exact Or.inl hd
  · rw [hqueue] at hd
    rcases List.mem_cons.mp hd with rfl | hd
    · exact Or.inr hok
    · exact Or.inl hd

lemma queueAfter_spec (hle : n ≤ c.reservationCount)
    (hleft : n < c.reservationCount → (c.left n remaining).Ok ∧
      (c.left n remaining).contents = c.contents.drop n) :
    (n = c.reservationCount ∧ queueAfter c rest n remaining = rest) ∨
      (n < c.reservationCount ∧ ∃ left : Completion,
        queueAfter c rest n remaining = left :: rest ∧ left.Ok ∧
        left.contents = c.contents.drop n ∧
        left.submitGeneratedAfterDraws = c.submitGeneratedAfterDraws) := by
  unfold queueAfter
  rcases Nat.lt_or_eq_of_le hle with hlt | rfl
  · rw [if_neg (Nat.ne_of_lt hlt)]
    obtain ⟨hok, hcontents⟩ := hleft hlt
    exact Or.inr ⟨hlt, _, rfl, hok, hcontents, rfl⟩
  · exact Or.inl ⟨rfl, if_pos rfl⟩

/-- The private draws are the ones with a packet. -/
lemma length_filter_hasPacket {outcomes : List Outcome} (isPrivate : Bool)
    (h : ∀ outcome ∈ outcomes, outcome = .noOutput ∨
      ∃ info : DrawInfo, outcome = .draw info ∧ info.isPrivate = isPrivate) :
    (outcomes.filter Outcome.hasPacket).length =
      if isPrivate then (outcomes.filterMap Outcome.drawInfo?).length else 0 := by
  induction outcomes with
  | nil => cases isPrivate <;> rfl
  | cons outcome outcomes ih =>
    have hrest := ih fun other hother => h other (List.mem_cons_of_mem _ hother)
    rcases h outcome List.mem_cons_self with rfl | ⟨info, rfl, hinfo⟩
    · exact hrest
    · cases isPrivate with
      | true =>
        rw [List.filter_cons_of_pos (by exact hinfo), List.filterMap_cons_some (f := Outcome.drawInfo?) rfl,
          List.length_cons, hrest]
        rfl
      | false =>
        rw [List.filter_cons_of_neg (by rw [Outcome.hasPacket, hinfo]; exact Bool.false_ne_true),
          hrest]
        rfl

lemma mem_contents_draws {draws : List Draw} {outcome : Outcome}
    (h : outcome ∈ draws.flatMap Draw.contents) :
    outcome = .noOutput ∨ ∃ draw ∈ draws, outcome = .draw draw.info := by
  obtain ⟨draw, hdraw, houtcome⟩ := List.mem_flatMap.mp h
  rcases List.mem_append.mp houtcome with hempty | hown
  · exact Or.inl (List.mem_replicate.mp hempty).2
  · exact Or.inr ⟨draw, hdraw, List.mem_singleton.mp hown⟩

/-- A prefix is consumed unless it is a part of a universal epoch. -/
lemma consumption_spec (hc : c.Ok) (hpos : 0 < n) (hle : n ≤ c.reservationCount)
    (hepoch : ∀ epoch ∈ c.universalEpoch, n = epoch.executeCount) (fallback : Bool) :
    ∃ result, consumption (c :: rest) c n fallback = some result ∧ Consumes c rest n result := by
  have hwhole : c.universalEpoch.isSome = true → n = c.reservationCount := by
    intro hsome
    obtain ⟨epoch, hfound⟩ := Option.isSome_iff_exists.mp hsome
    rw [hc.epoch epoch hfound, hepoch epoch hfound]
  unfold consumption
  rw [if_neg (Nat.ne_of_gt hpos)]
  by_cases hdraws : c.draws ≠ []
  · -- a run of draws
    rw [if_pos hdraws]
    obtain ⟨hnone, -, hprivate⟩ := hc.draws hdraws
    have hcontents : c.contents = c.draws.flatMap Draw.contents := contents_draws hnone hdraws
    have hlength : (c.draws.flatMap Draw.contents).length = c.reservationCount := by
      rw [← hcontents]
      exact hc.count
    obtain ⟨taken, remaining, htake, htaken, hremaining, hinfo⟩ :=
      takeDirectPrefix_spec (Nat.le_trans hle (Nat.le_of_eq hlength.symm))
    have hsame : ∀ draw ∈ taken ++ remaining,
        draw.info.isPrivate = c.cpuPath1AfterDraws := by
      intro draw hdraw
      obtain ⟨other, hother, heq⟩ := hinfo draw hdraw
      rw [heq]
      exact hprivate other hother
    have hend : n = c.reservationCount → remaining = [] := by
      intro hall
      rw [List.drop_of_length_le (Nat.le_of_eq (hlength.trans hall.symm))] at hremaining
      cases remaining with
      | nil => rfl
      | cons draw draws =>
        have hlong := congrArg List.length hremaining
        rw [List.flatMap_cons, List.length_append, draw.length_contents, List.length_nil] at hlong
        omega
    have hmarked : ¬(taken = [] ∧ (c.submitGeneratedAfterDraws &&
        n == c.reservationCount) = true) := by
      rintro ⟨rfl, hsubmit⟩
      obtain ⟨-, hall⟩ := Bool.and_eq_true_iff.mp hsubmit
      rw [List.take_of_length_le (by rw [hlength]; exact Nat.le_of_eq (beq_iff_eq.mp hall).symm)]
        at htaken
      obtain ⟨draw, draws, hhead⟩ := List.exists_cons_of_ne_nil hdraws
      rw [hhead, List.flatMap_cons, List.filterMap_append, draw.filterMap_contents] at htaken
      cases htaken
    have hpackets : (if c.cpuPath1AfterDraws then taken.length else 0) =
        ((c.contents.take n).filter Outcome.hasPacket).length := by
      rw [length_filter_hasPacket c.cpuPath1AfterDraws, hcontents, ← htaken,
        List.length_map]
      intro outcome houtcome
      rw [hcontents] at houtcome
      rcases mem_contents_draws (List.mem_of_mem_take houtcome) with rfl | ⟨draw, hdraw, rfl⟩
      · exact Or.inl rfl
      · exact Or.inr ⟨_, rfl, hprivate draw hdraw⟩
    simp only [htake, ne_eq, not_true_eq_false, if_false]
    rw [if_neg (not_not_intro fun draw hdraw => hsame draw (List.mem_append_left _ hdraw)),
      consumePrefix_spec hpos hle hwhole hend]
    refine ⟨_, if_neg hmarked, ?_, ?_, fun _ => ⟨hpackets, rfl⟩, rfl⟩
    · refine queueAfter_spec hle fun hlt => ?_
      have hdrop : (remaining.flatMap Draw.contents).length = c.reservationCount - n := by
        rw [hremaining, List.length_drop, hlength]
      have hne : remaining ≠ [] := by
        rintro rfl
        rw [List.flatMap_nil, List.length_nil] at hdrop
        omega
      have hrest : (c.left n remaining).contents = c.contents.drop n := by
        rw [hcontents, ← hremaining]
        exact contents_draws hnone hne
      refine ⟨⟨?_, Nat.sub_pos_of_lt hlt, fun _ => ⟨hnone, (hc.draws hdraws).2.1, ?_⟩,
        fun h => absurd h hne, hc.noOutput, ?_⟩, hrest⟩
      · rw [hrest, List.length_drop, hc.count]
        rfl
      · exact fun draw hdraw => hsame draw (List.mem_append_right _ hdraw)
      · intro epoch hfound
        rw [show c.universalEpoch = some epoch from hfound] at hnone
        cases hnone
    · show taken.map Draw.info = _
      rw [htaken, hcontents]
  rw [if_neg hdraws]
  have hnil : c.draws = [] := not_not.mp hdraws
  obtain ⟨hprivate, hsubmit⟩ := hc.noDraws hnil
  by_cases houtput : c.noOutputOnly = true
  · -- empty dispatches
    have hnone := hc.noOutput houtput
    have hcontents : c.contents = List.replicate c.reservationCount .noOutput := by
      rw [Completion.contents, hnone]
      simp only [if_neg hdraws, if_pos houtput]
    have hvalid : ¬(c.universalEpoch.isSome ∨ c.cpuPath1AfterDraws ∨
        c.submitGeneratedAfterDraws) := by
      simp [hnone, hprivate, hsubmit]
    have htake : c.contents.take n = List.replicate n .noOutput := by
      rw [hcontents, List.take_replicate, Nat.min_eq_left hle]
    rw [if_pos houtput, if_neg hvalid, consumePrefix_spec hpos hle hwhole fun _ => rfl]
    refine ⟨_, rfl, queueAfter_spec hle fun hlt => ?_, ?_, fun _ => ?_, ?_⟩
    · have hrest : (c.left n []).contents = c.contents.drop n := by
        rw [hcontents, List.drop_replicate, Completion.contents]
        simp only [show (c.left n []).universalEpoch = none from hnone,
          show (c.left n []).noOutputOnly = true from houtput, if_true]
        rfl
      refine ⟨⟨?_, Nat.sub_pos_of_lt hlt, fun h => absurd rfl h, fun _ => ⟨hprivate, hsubmit⟩,
        fun _ => hnone, fun epoch hfound => ?_⟩, hrest⟩
      · rw [hrest, List.length_drop, hc.count]
        rfl
      · rw [show c.universalEpoch = some epoch from hfound] at hnone
        cases hnone
    · rw [htake, List.filterMap_replicate_of_none rfl]
    · rw [htake, List.filter_replicate_of_neg Bool.false_ne_true]
      exact ⟨rfl, rfl⟩
    · rw [hsubmit]
      rfl
  rw [if_neg houtput]
  cases hfound : c.universalEpoch with
  | some epoch =>
    -- a whole epoch
    have hcontents : c.contents = List.replicate c.reservationCount (.epoch epoch.number) := by
      rw [Completion.contents, hfound]
    have hall : n = c.reservationCount := hwhole (by rw [hfound]; rfl)
    simp only [hepoch epoch hfound, ne_eq, not_true_eq_false, if_false]
    rw [← hepoch epoch hfound, consumePrefix_spec hpos hle hwhole fun _ => rfl]
    refine ⟨_, rfl, queueAfter_spec hle fun hlt => ?_, ?_, fun hnone => ?_, ?_⟩
    · omega
    · rw [hcontents, List.take_replicate, List.filterMap_replicate_of_none rfl]
    · rw [hfound] at hnone
      cases hnone
    · rw [hsubmit]
      rfl
  | none =>
    -- a CPU packet
    have hcontents : c.contents = [.packet] := by
      rw [Completion.contents, hfound]
      simp only [if_neg hdraws, if_neg houtput]
    have hone : c.reservationCount = 1 := by
      rw [← hc.count, hcontents]
      rfl
    obtain rfl : n = 1 := by omega
    rw [if_neg (not_not_intro ⟨hone, rfl⟩), consumePrefix_spec hpos hle hwhole fun _ => rfl]
    refine ⟨_, rfl, queueAfter_spec hle fun hlt => ?_, ?_, fun _ => ?_, ?_⟩
    · omega
    · rw [hcontents]
      rfl
    · rw [hcontents]
      exact ⟨rfl, rfl⟩
    · rw [hsubmit]
      rfl

/-- The assertion against splitting an epoch. -/
lemma consumption_split (hc : c.Ok) {epoch : Epoch} (hepoch : c.universalEpoch = some epoch)
    (hsplit : n ≠ epoch.executeCount) (queue : List Completion) (fallback : Bool) :
    consumption queue c n fallback = none := by
  have hdraws : c.draws = [] := by
    by_contra hdraws
    rw [(hc.draws hdraws).1] at hepoch
    cases hepoch
  unfold consumption
  split
  next => rfl
  next => simp [hdraws, hepoch, hsplit]

end VitaSX2.Path1
