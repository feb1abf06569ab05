/-
A universal epoch lies within one reservation run, where no run ends inside it.

A run ends where the EE thread stores the next command, and where the worker claims
it.  Neither may happen between the first and the last reservation of an epoch: the
word of a claimed run is not open any more, and the other reservations of the epoch
go to a new run.
-/
import VitaSX2.Path1.Sound
import Mathlib.Tactic.ByContra

namespace VitaSX2.Path1

variable {κ : Type} {joined : ℕ → Prop} {r r' : Ring κ}

/-! ### The ends of runs -/

namespace Ring

/-- The reservations before a position that the worker has not passed. -/
def upTo (r : Ring κ) (p : ℕ) : ℕ :=
  reservations r.executed + r.remaining + reservations (r.itemsFrom r.read (p - r.read))

lemma reservations_issued (h : r.Ok) : reservations r.issued = r.upTo r.write := by
  rw [h.items, reservations_append, pending, reservations_append, reservations_replicate, upTo,
    Nat.add_assoc]

lemma upTo_congr {p : ℕ} (hread : r'.read = r.read) (hremaining : r'.remaining = r.remaining)
    (hexecuted : r'.executed = r.executed)
    (hitems : ∀ q, r.read ≤ q → q < p → r'.itemsAt q = r.itemsAt q) : r'.upTo p = r.upTo p := by
  rw [upTo, upTo, hread, hremaining, hexecuted]
  exact congrArg (fun items => _ + reservations items)
    (itemsFrom_congr fun q hq hq' => hitems q hq (by omega))

/-- What the head stands for is counted before every later position. -/
lemma upTo_read {p : ℕ} (hp : r.read < p) :
    r.upTo p = reservations r.executed + r.remaining + (reservations (r.itemsAt r.read) +
      reservations (r.itemsFrom (r.read + 1) (p - (r.read + 1)))) := by
  rw [upTo, show p - r.read = (p - (r.read + 1)) + 1 by omega, itemsFrom_succ, reservations_append]

/-- What the place of the EE thread says about the dispatches that it has reserved. -/
def EePlace (joined : ℕ → Prop) (r : Ring κ) : Prop :=
  match r.ee with
  | .idle => reservations r.issued = r.dispatched
  | .reserve | .extend _ _ | .stall => reservations r.issued + 1 = r.dispatched
  | .finish =>
    reservations r.issued + 1 = r.dispatched ∧ ¬Middle joined (reservations r.issued)
  | .close _ _ _ | .send _ | .sent _ =>
    reservations r.issued = r.dispatched ∧ ¬Middle joined (reservations r.issued)

/-- No command but the last ends inside an epoch, and neither does a run that is claimed. -/
structure Aligned (joined : ℕ → Prop) (r : Ring κ) : Prop where
  ends : ∀ p, r.read < p → p < r.write → ¬Middle joined (r.upTo p)
  owned : r.owned = true → ¬Middle joined (reservations r.executed + r.remaining)
  place : r.EePlace joined

lemma empty_aligned : (empty : Ring κ).Aligned joined where
  ends := fun p _ hp => absurd hp (Nat.not_lt_zero p)
  owned := nofun
  place := rfl

/-! ### The EE thread -/

/-- A move of the EE thread that publishes no command. -/
lemma Aligned.keep (h : r.Aligned joined) (hframe : EeFrame r r') (hwrite : r'.write = r.write)
    (hitems : ∀ q, q + 1 < r.write → r'.itemsAt q = r.itemsAt q) (hplace : r'.EePlace joined) :
    r'.Aligned joined := by
  refine ⟨fun p hp hp' => ?_, fun howned => ?_, hplace⟩
  · rw [hframe.read] at hp
    rw [hwrite] at hp'
    rw [upTo_congr hframe.read hframe.remaining hframe.executed fun q _ hq => hitems q (by omega)]
    exact h.ends p hp hp'
  · rw [hframe.owned] at howned
    rw [hframe.executed, hframe.remaining]
    exact h.owned howned

/-- A move of the EE thread that publishes a command. -/
lemma Aligned.publish (h : r.Aligned joined) (hok : r.Ok) (hframe : EeFrame r r')
    (hwrite : r'.write = r.write + 1) (hitems : ∀ q, r'.itemsAt q = r.itemsAt q)
    (hend : ¬Middle joined (reservations r.issued)) (hplace : r'.EePlace joined) :
    r'.Aligned joined := by
  have hupTo : ∀ p, r'.upTo p = r.upTo p := fun p =>
    upTo_congr hframe.read hframe.remaining hframe.executed fun q _ _ => hitems q
  refine ⟨fun p hp hp' => ?_, fun howned => ?_, hplace⟩
  · rw [hframe.read] at hp
    rw [hwrite] at hp'
    rw [hupTo]
    rcases Nat.lt_or_eq_of_le (Nat.le_of_lt_succ hp') with hlt | rfl
    · exact h.ends p hp hlt
    · rw [← reservations_issued hok]
      exact hend
  · rw [hframe.owned] at howned
    rw [hframe.executed, hframe.remaining]
    exact h.owned howned

lemma Aligned.test (h : r.Aligned joined) (slot : ℕ) (state : Run)
    (hplace : reservations r.issued + 1 = r.dispatched) : (r.test slot state).Aligned joined := by
  refine h.keep (r.test_frame slot state) ?_ ?_ ?_
  all_goals
    unfold Ring.test
    split
  · rfl
  · rfl
  · exact fun _ _ => rfl
  · exact fun _ _ => rfl
  · exact hplace
  · exact hplace

lemma Aligned.testClose (h : r.Aligned joined) (slot : ℕ) (state : Run) (command : κ)
    (hplace : reservations r.issued = r.dispatched ∧ ¬Middle joined (reservations r.issued)) :
    (r.testClose slot state command).Aligned joined := by
  refine h.keep (r.testClose_frame slot state command) ?_ ?_ ?_
  all_goals
    unfold Ring.testClose
    split
  · rfl
  · rfl
  · exact fun _ _ => rfl
  · exact fun _ _ => rfl
  · exact hplace
  · exact hplace

end Ring

/-- A move of the EE thread that begins no other command and no new run inside an epoch. -/
lemma EeMove.aligned (h : r.Aligned joined) (hok : r.Ok) (hmove : EeMove r r')
    (hother : r.ee = .idle → r'.ee ≠ .reserve → ¬Middle joined r.dispatched)
    (hstore : r.ee = .stall → r'.ee ≠ .stall → ¬Middle joined (reservations r.issued)) :
    r'.Aligned joined := by
  have hframe := hmove.frame
  have hplace := h.place
  have hpc := hok.pc
  unfold Ring.EePlace at hplace
  unfold Ring.PcOk at hpc
  cases hmove with
  | dispatch hee =>
    rw [hee] at hplace
    exact h.keep hframe rfl (fun _ _ => rfl) (congrArg (· + 1) hplace)
  | load hee hslot =>
    rw [hee] at hplace
    exact h.test _ _ hplace
  | noRun hee hslot =>
    rw [hee] at hplace
    exact h.keep hframe rfl (fun _ _ => rfl) hplace
  | @exchange slot state hee hstate =>
    rw [hee] at hplace hpc
    obtain ⟨hslot, hlt, hopen, -⟩ := hpc
    subst hstate
    obtain ⟨hlast, -⟩ := hok.last slot hslot hlt hopen
    refine h.keep hframe rfl (fun q hq => Ring.itemsAt_congr rfl ?_) ?_
    · exact Function.update_of_ne (by omega) _ _
    · show reservations (r.issued ++ [.reservation]) = r.dispatched
      rw [reservations_append, ← hplace]
      rfl
  | failExchange hee =>
    rw [hee] at hplace
    exact h.test _ _ hplace
  | store hee hroom =>
    rw [hee] at hplace
    refine h.keep hframe rfl (fun q hq => Ring.itemsAt_congr ?_ ?_) ⟨hplace, hstore hee nofun⟩
    · exact Function.update_of_ne (by omega) _ _
    · exact Function.update_of_ne (by omega) _ _
  | finish hee =>
    rw [hee] at hplace
    refine h.publish hok hframe rfl (fun _ => rfl) hplace.2 ?_
    show reservations (r.issued ++ [.reservation]) = r.dispatched
    rw [reservations_append, ← hplace.1]
    rfl
  | loadClose hee hslot command =>
    rw [hee] at hplace
    refine h.testClose _ _ _ ⟨hplace, ?_⟩
    rw [hplace]
    refine hother hee ?_
    unfold Ring.testClose
    split <;> nofun
  | noClose hee hslot command =>
    rw [hee] at hplace
    refine h.keep hframe rfl (fun _ _ => rfl) ⟨hplace, ?_⟩
    show ¬Middle joined (reservations r.issued)
    rw [hplace]
    exact hother hee nofun
  | @exchangeClose slot state command hee hstate =>
    rw [hee] at hplace hpc
    obtain ⟨hslot, hlt, hopen⟩ := hpc
    subst hstate
    obtain ⟨hlast, -⟩ := hok.last slot hslot hlt hopen
    refine h.keep hframe rfl (fun q hq => Ring.itemsAt_congr rfl ?_) hplace
    exact Function.update_of_ne (by omega) _ _
  | failClose hee =>
    rw [hee] at hplace
    exact h.testClose _ _ _ hplace
  | @write command hee hroom =>
    rw [hee] at hplace
    refine h.keep hframe rfl (fun q hq => Ring.itemsAt_congr ?_ rfl) hplace
    exact Function.update_of_ne (by omega) _ _
  | @publish command hee =>
    rw [hee] at hplace
    refine h.publish hok hframe rfl (fun _ => rfl) hplace.2 ?_
    show reservations (r.issued ++ [.other command]) = r.dispatched
    rw [reservations_append, ← hplace.1]
    rfl

namespace Ring

/-! ### The GS worker -/

/-- A claim, where the last run does not end inside an epoch. -/
lemma Aligned.claim (h : r.Aligned joined) (hok : r.Ok) (hlt : r.read < r.write)
    (hpath : r.command r.read = .path1) (howned : r.owned = true → 0 < r.remaining)
    (hlast : r.remaining = 0 → r.read + 1 = r.write → ¬Middle joined (reservations r.issued)) :
    r.claim.Aligned joined := by
  rcases claim_spec hok hlt hpath howned with ⟨-, -, hsame⟩ | ⟨hfree, hcount, hclaim⟩
  · rw [hsame]
    exact h
  have hzero : r.remaining = 0 := hok.free hfree
  have hword : r.claim.run r.read = ⟨false, 0⟩ := by
    rw [hclaim]
    exact Function.update_self _ _ _
  have hrest : ∀ q, r.read < q → r.claim.itemsAt q = r.itemsAt q := by
    intro q hq
    rw [hclaim]
    exact itemsAt_congr rfl (Function.update_of_ne (Nat.ne_of_gt hq) _ _)
  have hhead : r.claim.itemsAt r.read = [] := by
    rw [itemsAt_path1 (by rw [hclaim]; exact hpath), hword]
    rfl
  have hremaining : r.claim.remaining = (r.run r.read).count := by rw [hclaim]
  have hexecuted : r.claim.executed = r.executed := by rw [hclaim]
  have hread : r.claim.read = r.read := by rw [hclaim]
  -- the head moves from the items to what remains
  have hupTo : ∀ p, r.read < p → r.claim.upTo p = r.upTo p := by
    intro p hp
    rw [upTo_read hp, upTo_read (by rw [hread]; exact hp), hread, hhead, hremaining, hexecuted,
      hzero, itemsAt_path1 hpath, reservations_replicate,
      itemsFrom_congr (p := r.read + 1) fun q hq _ => hrest q hq]
    have hnil : reservations ([] : List (Item κ)) = 0 := rfl
    omega
  have hclaimed : reservations r.claim.executed + r.claim.remaining = r.upTo (r.read + 1) := by
    rw [upTo_read (Nat.lt_succ_self _), hexecuted, hremaining, hzero, itemsAt_path1 hpath,
      reservations_replicate, Nat.sub_self]
    rfl
  refine ⟨fun p hp hp' => ?_, fun _ => ?_, ?_⟩
  · rw [hread] at hp
    rw [hupTo p hp]
    exact h.ends p hp (by rw [hclaim] at hp'; exact hp')
  · rw [hclaimed]
    rcases Nat.lt_or_eq_of_le (Nat.succ_le_of_lt hlt) with hnext | hnext
    · exact h.ends _ (Nat.lt_succ_self _) hnext
    · rw [show r.read + 1 = r.write from hnext, ← reservations_issued hok]
      exact hlast hzero hnext
  · rw [hclaim]
    exact h.place

lemma Aligned.consume (h : r.Aligned joined) {count : ℕ} (hle : count ≤ r.remaining) :
    (r.consume count).Aligned joined := by
  have hsum : reservations (r.consume count).executed + (r.consume count).remaining =
      reservations r.executed + r.remaining := by
    show reservations (r.executed ++ List.replicate count .reservation) + (r.remaining - count) = _
    rw [reservations_append, reservations_replicate]
    omega
  refine ⟨fun p hp hp' => ?_, fun howned => ?_, h.place⟩
  · have hupTo : (r.consume count).upTo p = r.upTo p := by
      rw [upTo, hsum]
      rfl
    rw [hupTo]
    exact h.ends p hp hp'
  · rw [hsum]
    exact h.owned howned

/-- The worker passes its head. -/
lemma Aligned.pass (h : r.Aligned joined) (hread : r'.read = r.read + 1)
    (hwrite : r'.write = r.write) (hitems : ∀ q, r'.itemsAt q = r.itemsAt q)
    (hcounted : reservations r'.executed + r'.remaining =
      reservations r.executed + r.remaining + reservations (r.itemsAt r.read))
    (howned : r'.owned = false) (hplace : r'.EePlace joined) : r'.Aligned joined := by
  refine ⟨fun p hp hp' => ?_, fun hown => ?_, hplace⟩
  · rw [hread] at hp
    rw [hwrite] at hp'
    have hupTo : r'.upTo p = r.upTo p := by
      rw [upTo_read (Nat.lt_of_succ_lt hp), upTo, hread, hcounted, Nat.add_assoc _ (reservations _)]
      exact congrArg (fun items => _ + (_ + reservations items))
        (itemsFrom_congr fun q _ _ => hitems q)
    rw [hupTo]
    exact h.ends p (Nat.lt_of_succ_lt hp) hp'
  · rw [howned] at hown
    cases hown

lemma Aligned.advance (h : r.Aligned joined) (hok : r.Ok) (howned : r.owned = true) :
    r.advance.Aligned joined := by
  unfold Ring.advance
  split
  next hzero =>
    obtain ⟨-, hpath, hword⟩ := hok.owned howned
    refine h.pass rfl rfl (fun _ => rfl) ?_ rfl h.place
    rw [itemsAt_path1 hpath, hword]
    rfl
  next => exact h

lemma Aligned.execute (h : r.Aligned joined) (hok : r.Ok) {command : κ}
    (hother : r.command r.read = .other command) : (r.execute command).Aligned joined := by
  have hfree : r.owned = false := by
    cases hhead : r.owned with
    | false => rfl
    | true =>
      have hpath := (hok.owned hhead).2.1
      rw [hother] at hpath
      cases hpath
  refine h.pass rfl rfl (fun _ => rfl) ?_ hfree h.place
  show reservations (r.executed ++ [.other command]) + r.remaining = _
  rw [itemsAt_other hother, reservations_append]
  rfl

end Ring

/-! ### Runs -/

/-- The dispatches of an epoch are joined, and its number is the one of the first. -/
def EpochsJoined (joined : ℕ → Prop) (finished : List Outcome) : Prop :=
  ∀ k number, finished[k]? = some (.epoch number) →
    number ≤ k ∧ (finished[k + 1]? = some (.epoch number) → joined k)

namespace State

variable {s s' : State κ}

/-- A step in which no run ends inside an epoch: the EE thread stores no new run between two of its
reservations, and the worker does not claim the last run there. -/
def Unsplit (joined : ℕ → Prop) (s s' : State κ) : Prop :=
  (s.ring.ee = .stall → s'.ring.ee ≠ .stall →
      ¬Middle joined (reservations s.ring.issued)) ∧
    (∀ completion fallback, s.worker = .claim completion fallback → s'.worker ≠ s.worker →
      s.ring.remaining = 0 → s.ring.read + 1 = s.ring.write →
      ¬Middle joined (reservations s.ring.issued))

/-- The invariant of such runs. -/
structure Whole (joined : ℕ → Prop) (s : State κ) : Prop where
  sound : s.Sound
  aligned : s.ring.Aligned joined
  epochs : EpochsJoined joined s.finished

/-- A dispatch that is not an epoch. -/
lemma epochsJoined_append {finished outcomes : List Outcome} (h : EpochsJoined joined finished)
    (hordinary : ∀ number, Outcome.epoch number ∉ outcomes) :
    EpochsJoined joined (finished ++ outcomes) := by
  have hbefore : ∀ k number : ℕ, (finished ++ outcomes)[k]? = some (Outcome.epoch number) →
      finished[k]? = some (Outcome.epoch number) := by
    intro k number hk
    rw [List.getElem?_append] at hk
    split at hk
    next => exact hk
    next => exact absurd (List.mem_of_getElem? hk) (hordinary number)
  intro k number hk
  obtain ⟨hle, hnext⟩ := h k number (hbefore k number hk)
  exact ⟨hle, fun hk' => hnext (hbefore _ number hk')⟩

lemma epochsJoined_epoch {finished : List Outcome} (h : EpochsJoined joined finished)
    {executeCount : ℕ}
    (hjoined : ∀ k, finished.length ≤ k → k + 1 < finished.length + executeCount → joined k) :
    EpochsJoined joined
      (finished ++ List.replicate executeCount (.epoch finished.length)) := by
  intro k number hk
  rcases Nat.lt_or_ge k finished.length with hlt | hge
  · -- an earlier epoch has another number
    rw [List.getElem?_append_left hlt] at hk
    obtain ⟨hle, hnext⟩ := h k number hk
    refine ⟨hle, fun hk' => ?_⟩
    rcases Nat.lt_or_ge (k + 1) finished.length with hlt' | hge'
    · rw [List.getElem?_append_left hlt'] at hk'
      exact hnext hk'
    · rw [List.getElem?_append_right hge'] at hk'
      have hnumber := (List.mem_replicate.mp (List.mem_of_getElem? hk')).2
      cases hnumber
      omega
  · rw [List.getElem?_append_right hge] at hk
    have hnumber := (List.mem_replicate.mp (List.mem_of_getElem? hk)).2
    cases hnumber
    refine ⟨hge, fun hk' => hjoined k hge ?_⟩
    rw [List.getElem?_append_right (Nat.le_succ_of_le hge)] at hk'
    obtain ⟨hin, -⟩ := List.getElem?_eq_some_iff.mp hk'
    rw [List.length_replicate] at hin
    omega

lemma epochsJoined_mtvu (h : EpochsJoined joined s.finished) {outcomes : List Outcome}
    (hadded : EpochsJoined joined (s.finished ++ outcomes))
    (result : Option (Pending × List Completion)) :
    EpochsJoined joined (s.mtvu result outcomes).finished := by
  cases result with
  | none => exact h
  | some found => exact hadded

lemma Whole.finish (h : s.Whole joined) (hready : s.Ready) {dispatch : Dispatch}
    (hepoch : ∀ executeCount, dispatch = .epoch executeCount → 0 < executeCount ∧
      ∀ k, s.finished.length ≤ k → k + 1 < s.finished.length + executeCount → joined k) :
    (s.finish dispatch).Whole joined := by
  refine ⟨h.sound.finish hready dispatch fun m hm => (hepoch m hm).1, ?_, ?_⟩
  · have hring : ∀ result outcomes, (s.mtvu result outcomes).ring = s.ring := by
      intro result outcomes
      cases result <;> rfl
    have hsame : (s.finish dispatch).ring = s.ring := by
      cases dispatch <;> exact hring _ _
    rw [hsame]
    exact h.aligned
  · cases dispatch with
    | noOutput | draw | packet =>
      refine epochsJoined_mtvu h.epochs (epochsJoined_append h.epochs ?_) _
      nofun
    | epoch executeCount =>
      exact epochsJoined_mtvu h.epochs (epochsJoined_epoch h.epochs (hepoch executeCount rfl).2) _

lemma Whole.workerMove (h : s.Whole joined) (hmove : WorkerMove s s')
    (hunsplit : s.Unsplit joined s') : s'.Whole joined := by
  have hsound := h.sound.workerMove hmove
  have hworker := h.sound.worker
  unfold WorkerOk at hworker
  cases hmove with
  | execute hplace hlt hcommand =>
    exact ⟨hsound, h.aligned.execute h.sound.ring hcommand, h.epochs⟩
  | peek => exact ⟨hsound, h.aligned, h.epochs⟩
  | claim hplace =>
    rw [hplace] at hworker
    obtain ⟨-, hlt, hcommand, howned⟩ := hworker
    refine ⟨hsound, h.aligned.claim h.sound.ring hlt hcommand howned ?_, h.epochs⟩
    refine hunsplit.2 _ _ hplace ?_
    rw [hplace]
    nofun
  | consume hplace =>
    rcases h.sound.consume_cases hplace with ⟨-, -, -, hfailed⟩ | ⟨queue, result, -, -, -, -, -,
      hremaining, -, hresult⟩
    · rw [hfailed] at hsound ⊢
      exact ⟨hsound, h.aligned, h.epochs⟩
    · rw [hresult] at hsound ⊢
      exact ⟨hsound, h.aligned.consume hremaining, h.epochs⟩
  | replay hplace =>
    refine ⟨hsound, ?_, ?_⟩
    all_goals
      unfold State.replay
      split
    · exact h.aligned
    · exact h.aligned
    · exact h.epochs
    · exact h.epochs
  | mark => exact ⟨hsound, h.aligned, h.epochs⟩
  | retire hplace =>
    refine ⟨hsound, ?_, ?_⟩
    all_goals
      unfold State.retire
      split
    · exact h.aligned
    · exact h.aligned
    · exact h.epochs
    · exact h.epochs
  | advance hplace =>
    rw [hplace] at hworker
    exact ⟨hsound, h.aligned.advance h.sound.ring hworker, h.epochs⟩

lemma Whole.step (h : s.Whole joined) {allowed : State κ → Dispatch → Prop}
    (hstep : Step joined allowed s s') (hunsplit : s.Unsplit joined s') : s'.Whole joined := by
  have hsound := h.sound.step hstep
  cases hstep with
  | ee hmove hjoined =>
    exact ⟨hsound, hmove.aligned h.aligned h.sound.ring hjoined hunsplit.1, h.epochs⟩
  | finish hready _ _ hepoch => exact h.finish hready hepoch
  | publishPrefix | flush =>
    refine ⟨hsound, ?_, epochsJoined_mtvu h.epochs (by rw [List.append_nil]; exact h.epochs) _⟩
    unfold State.mtvu
    split <;> exact h.aligned
  | push | packet | gpu | fallback | resume => exact ⟨hsound, h.aligned, h.epochs⟩
  | worker hmove => exact h.workerMove hmove hunsplit

/-- The run that is consumed holds the whole epoch. -/
lemma Whole.remaining (h : s.Whole joined) {completion : Completion} {fallback : Bool}
    (hplace : s.worker = .consume completion fallback) {epoch : Epoch}
    (hepoch : completion.universalEpoch = some epoch) :
    epoch.executeCount ≤ s.ring.remaining := by
  have hworker := h.sound.worker
  unfold WorkerOk at hworker
  rw [hplace] at hworker
  obtain ⟨⟨queue, hqueue⟩, howned, hpos⟩ := hworker
  have hok : completion.Ok := h.sound.completions completion (by
    rw [hqueue]
    exact List.mem_cons_self)
  have hcontents : completion.contents =
      List.replicate epoch.executeCount (.epoch epoch.number) := by
    rw [← hok.epoch epoch hepoch, Completion.contents, hepoch]
  have hfinished : ∀ i < epoch.executeCount,
      s.finished[s.consumed.length + i]? = some (.epoch epoch.number) := by
    intro i hi
    rw [h.sound.conserved, hqueue, List.flatMap_cons, hcontents, List.append_assoc,
      List.getElem?_append_right (Nat.le_add_right _ _), Nat.add_sub_cancel_left,
      List.getElem?_append_left (by rw [List.length_replicate]; exact hi),
      List.getElem?_replicate_of_lt hi]
  by_contra hless
  have hlt : s.ring.remaining < epoch.executeCount := Nat.lt_of_not_le hless
  -- the claimed run would end between two dispatches of the epoch
  refine h.aligned.owned howned ⟨Nat.lt_of_lt_of_le hpos (Nat.le_add_left _ _), ?_⟩
  rw [h.sound.executed, Nat.add_sub_assoc hpos]
  refine (h.epochs _ epoch.number (hfinished _ (by omega))).2 ?_
  rw [Nat.add_assoc, Nat.sub_add_cancel hpos]
  exact hfinished _ hlt

lemma whole_of_run {allowed : State κ → Dispatch → Prop}
    (h : Relation.ReflTransGen
      (fun s s' => Step joined allowed s s' ∧ s.Unsplit joined s') .empty s) : s.Whole joined := by
  induction h with
  | refl => exact ⟨empty_sound, Ring.empty_aligned, nofun⟩
  | tail _ hstep ih => exact ih.step hstep.1 hstep.2

/-- In every run in which no reservation run ends inside an epoch, an epoch that is consumed takes
all its reservations from one run, and no assertion on the way fails. -/
theorem epoch_not_split {allowed : State κ → Dispatch → Prop}
    (h : Relation.ReflTransGen
      (fun s s' => Step joined allowed s s' ∧ s.Unsplit joined s') .empty s)
    {completion : Completion} {fallback : Bool}
    (hplace : s.worker = .consume completion fallback) {epoch : Epoch}
    (hepoch : completion.universalEpoch = some epoch) :
    epoch.executeCount ≤ s.ring.remaining ∧
      s.reservationPrefix completion = epoch.executeCount ∧
      (s.consume completion fallback).worker ≠ .failed := by
  have hwhole := whole_of_run h
  have hremaining := hwhole.remaining hplace hepoch
  have hworker := hwhole.sound.worker
  unfold WorkerOk at hworker
  rw [hplace] at hworker
  obtain ⟨⟨queue, hqueue⟩, -⟩ := hworker
  have hok : completion.Ok := hwhole.sound.completions completion (by
    rw [hqueue]
    exact List.mem_cons_self)
  have hcount : s.reservationPrefix completion = epoch.executeCount := by
    rw [reservationPrefix, hok.epoch epoch hepoch, Nat.min_eq_left hremaining]
  refine ⟨hremaining, hcount, ?_⟩
  rcases hwhole.sound.consume_cases hplace with ⟨other, hother, hsplit, -⟩ | ⟨_, result, -, -, -, -,
    -, -, -, hresult⟩
  · rw [hepoch] at hother
    cases hother
    exact absurd hcount hsplit
  · rw [hresult]
    nofun

/-- A step outside `GenericStall` and outside the claim. -/
lemma unsplit_of_idle {joined : ℕ → Prop} {κ : Type} {s s' : State κ} (hstall : s.ring.ee ≠ .stall)
    (hidle : s.worker = .idle) : s.Unsplit joined s' := by
  refine ⟨fun h => absurd h hstall, fun _ _ h => ?_⟩
  rw [hidle] at h
  cases h

/-- A step between two epochs. -/
lemma unsplit_of_not_middle {joined : ℕ → Prop} {κ : Type} {s s' : State κ}
    (h : ¬Middle joined (reservations s.ring.issued)) : s.Unsplit joined s' :=
  ⟨fun _ _ => h, fun _ _ _ _ _ _ => h⟩

/-- An epoch of two dispatches in one run. -/
theorem epoch_not_split_two : ∃ (s : State Unit) (completion : Completion) (epoch : Epoch),
    s.worker = .consume completion false ∧ completion.universalEpoch = some epoch ∧
      epoch.executeCount = 2 ∧ s.reservationPrefix completion = 2 ∧
      (s.consume completion false).worker ≠ .failed := by
  have hroom : (1 : ℕ) < ringBufferSize - (0 - 0) := by decide
  have hjoined : ∀ m, Dispatch.epoch 2 = .epoch m →
      0 < m ∧ ∀ k, 0 ≤ k → k + 1 < 0 + m → k = 0 := by
    rintro _ ⟨⟩
    exact ⟨Nat.two_pos, fun k _ hk => by omega⟩
  have h : Relation.ReflTransGen (fun s s' : State Unit =>
      Step (fun k => k = 0) (fun _ _ => True) s s' ∧ s.Unsplit (fun k => k = 0) s') .empty _ := .refl
  have h := h.tail ⟨.ee (.dispatch rfl) fun _ hne => absurd rfl hne, unsplit_of_idle nofun rfl⟩
  have h := h.tail ⟨.ee (.noRun rfl rfl) nofun, unsplit_of_idle nofun rfl⟩
  have h := h.tail ⟨.ee (.store rfl hroom) nofun, unsplit_of_not_middle fun h => Nat.lt_irrefl 0 h.1⟩
  have h := h.tail ⟨.ee (.finish rfl) nofun, unsplit_of_idle nofun rfl⟩
  have h := h.tail ⟨.ee (.dispatch rfl) fun _ hne => absurd rfl hne, unsplit_of_idle nofun rfl⟩
  have h := h.tail ⟨.ee (.load rfl rfl) nofun, unsplit_of_idle nofun rfl⟩
  have h := h.tail ⟨.ee (.exchange rfl rfl) nofun, unsplit_of_idle nofun rfl⟩
  have h := h.tail ⟨@Step.finish _ _ _ _ (.epoch 2) ⟨rfl, rfl, rfl, rfl⟩ trivial (Nat.le_refl 2) hjoined,
    unsplit_of_idle nofun rfl⟩
  have h := h.tail ⟨.push rfl (by decide), unsplit_of_idle nofun rfl⟩
  have h := h.tail ⟨.gpu 0 .submit, unsplit_of_idle nofun rfl⟩
  have h := h.tail ⟨.gpu 0 .accept, unsplit_of_idle nofun rfl⟩
  have h := h.tail ⟨.gpu 0 .acquire, unsplit_of_idle nofun rfl⟩
  have h := h.tail ⟨.worker (.peek rfl Nat.one_pos rfl rfl), unsplit_of_idle nofun rfl⟩
  have h := h.tail ⟨.worker (.claim rfl), unsplit_of_not_middle fun h => absurd h.2 Nat.one_ne_zero⟩
  have hwhole := epoch_not_split h rfl rfl
  exact ⟨_, _, _, rfl, rfl, rfl, hwhole.2⟩

/-- The worker claims a run that ends inside an epoch, for the dispatch before the epoch. -/
theorem epoch_split : ∃ (joined : ℕ → Prop) (s : State Unit) (completion : Completion)
    (fallback : Bool) (epoch : Epoch), Reachable joined (fun _ _ => True) s ∧
      s.worker = .consume completion fallback ∧ completion.universalEpoch = some epoch ∧
      s.ring.remaining < epoch.executeCount ∧
      s.reservationPrefix completion ≠ epoch.executeCount ∧
      (s.consume completion fallback).worker = .failed := by
  have hroom : (1 : ℕ) < ringBufferSize - (0 - 0) := by decide
  have hjoined : ∀ m, Dispatch.epoch 2 = .epoch m →
      0 < m ∧ ∀ k, 1 ≤ k → k + 1 < 1 + m → k = 1 := by
    rintro _ ⟨⟩
    exact ⟨Nat.two_pos, fun k _ hk => by omega⟩
  have hroom' : (1 : ℕ) < ringBufferSize - (1 - 0) := by decide
  have h : Reachable (κ := Unit) (fun k => k = 1) (fun _ _ => True) _ := .refl
  -- the dispatches 0 and 1 are reserved in one run
  have h := h.tail (.ee (.dispatch rfl) fun _ hne => absurd rfl hne)
  have h := h.tail (.ee (.noRun rfl rfl) nofun)
  have h := h.tail (.ee (.store rfl hroom) nofun)
  have h := h.tail (.ee (.finish rfl) nofun)
  have h := h.tail (.ee (.dispatch rfl) fun _ hne => absurd rfl hne)
  have h := h.tail (.ee (.load rfl rfl) nofun)
  have h := h.tail (.ee (.exchange rfl rfl) nofun)
  -- the dispatch 0 is finished without output, and the worker claims the run for it
  have h := h.tail (@Step.finish _ _ _ _ .noOutput ⟨rfl, rfl, rfl, rfl⟩ trivial (Nat.le_succ 1) nofun)
  have h := h.tail (.publishPrefix ⟨rfl, rfl, rfl, rfl⟩)
  have h := h.tail (.push rfl (by decide))
  have h := h.tail (.worker (.peek rfl Nat.one_pos rfl rfl))
  have h := h.tail (.worker (.claim rfl))
  have h := h.tail (.worker (.consume rfl))
  have h := h.tail (.worker (.mark rfl))
  have h := h.tail (.worker (.advance rfl))
  -- the dispatch 2 begins a new run
  have h := h.tail (.ee (.dispatch rfl) fun _ hne => absurd rfl hne)
  have h := h.tail (.ee (.load rfl rfl) nofun)
  have h := h.tail (.ee (.store rfl hroom') nofun)
  have h := h.tail (.ee (.finish rfl) nofun)
  -- the dispatches 1 and 2 are an epoch
  have h := h.tail (@Step.finish _ _ _ _ (.epoch 2) ⟨rfl, rfl, rfl, rfl⟩ trivial (Nat.le_refl 3)
    hjoined)
  have h := h.tail (.push rfl (by decide))
  have h := h.tail (.gpu 1 .submit)
  have h := h.tail (.gpu 1 .accept)
  have h := h.tail (.gpu 1 .acquire)
  have h := h.tail (.worker (.peek rfl (by decide) rfl rfl))
  have h := h.tail (.worker (.claim rfl))
  exact ⟨_, _, _, _, _, h, rfl, rfl, by decide, by decide, rfl⟩

end State

end VitaSX2.Path1
