/-
`SingleWaiterProgressEvent` loses no wakeup.

The fields under `m_mutex` are those that the one call inside `m_waiter_mutex`
expects; an arm that the consumer has not claimed has seen the value that an
idle consumer has left behind.
-/
import VitaSX2.Threading.ProgressEvent

namespace VitaSX2.Threading

open Interleaving

variable {α ι : Type} {event event' : ProgressEvent α ι}

/-! ### Assertions -/

namespace ProgressEvent

/-- No arm is left and no claimed resource. -/
@[grind]
structure Unarmed (event : ProgressEvent α ι) : Prop where
  waiting : event.waiting = false
  wakeClaimed : event.wakeClaimed = false
  claimedResources : event.claimedResources = 0

/-- The consumer cannot stop at another value than this one. -/
@[grind =]
def Settles (event : ProgressEvent α ι) (observed : α) : Prop :=
  event.consumer = .idle → event.progress = observed

/-- A live arm: unless it has been claimed, the consumer cannot stop at another value. -/
@[grind]
structure Armed (event : ProgressEvent α ι) (observed : α) (arm : ℕ) : Prop where
  waiting : event.waiting = true
  arm : event.arms = arm
  unclaimed : event.wakeClaimed = false → event.claimedResources = 0 ∧ event.Settles observed

/-- The consumer is between the claim of an arm and its post. -/
@[grind =]
def Posting (event : ProgressEvent α ι) : Prop :=
  ∃ quiesce, event.consumer = .clearHint quiesce ∨ event.consumer = .post quiesce

end ProgressEvent

/-- What a return is justified by. -/
@[grind =]
def Outcome.Justified (event : ProgressEvent α ι) (observed : α) : Outcome α → Prop
  | changed seen => seen ≠ observed
  | woken arm => arm ∈ event.claimedArms

/-- What a producer may rely on. -/
@[grind =]
def ProducerPc.Expects (event : ProgressEvent α ι) : ProducerPc α → Prop
  | .outside | .lockWaiter _ => True
  | .lock _ | .assertIdle _ | .readProgress _ => event.Unarmed
  | .unlockChanged observed seen => event.Unarmed ∧ seen ≠ observed
  | .arm observed => event.Unarmed ∧ event.Settles observed
  | .storeHint observed number | .unlockArmed observed number
  | .unlockUnclaimed observed number =>
    event.Armed observed number ∧ event.wakeClaimed = false
  | .wait observed number =>
    event.Armed observed number ∧
      (event.wakeClaimed = true → 0 < event.claimedResources ∨ event.Posting)
  | .lockWoken observed number | .checkClaim observed number => event.Armed observed number
  | .acknowledge observed number => event.Armed observed number ∧ event.wakeClaimed = true
  | .drain _ number =>
    event.waiting = false ∧ event.wakeClaimed = false ∧ number ∈ event.claimedArms
  | .unlockWoken _ number => event.Unarmed ∧ number ∈ event.claimedArms
  | .unlockWaiter observed outcome => event.Unarmed ∧ outcome.Justified event observed
  | .asserted => False

/-- The assertion about a producer. -/
@[grind]
structure ProducerOk (i : ι) (event : ProgressEvent α ι) (pc : ProducerPc α) : Prop where
  waiterMutex : event.waiterMutex = some i ↔ pc.holdsWaiterMutex = true
  mutex : event.mutex = some (.producer i) ↔ pc.holdsMutex = true
  expects : pc.Expects event

/-- The consumer holds `m_mutex`. -/
@[grind =]
def ConsumerPc.holdsMutex : ConsumerPc → Bool
  | claim _ | clearHint _ | post _ | unlock _ => true
  | _ => false

/-- The assertion about the event and its consumer. -/
@[grind]
structure EventOk (event : ProgressEvent α ι) : Prop where
  mutex : event.mutex = some .consumer ↔ event.consumer.holdsMutex = true
  free : event.waiterMutex = none → event.Unarmed
  claimed : event.wakeClaimed = true → event.arms ∈ event.claimedArms
  posting : event.Posting → event.waiting = true ∧ event.wakeClaimed = true
  unlocking : ∀ quiesce, event.consumer = .unlock quiesce → event.waiting = true →
    event.wakeClaimed = true

/-! ### Moves -/

section Moves

variable {i j : ι} {pc pc' other : ProducerPc α}

/-- Taking a resource changes nothing else. -/
lemma Takes.frame (h : Takes event event') :
    event'.progress = event.progress ∧ event'.waiterMutex = event.waiterMutex ∧
      event'.mutex = event.mutex ∧ event'.waiting = event.waiting ∧
      event'.wakeClaimed = event.wakeClaimed ∧ event'.consumer = event.consumer ∧
      event'.arms = event.arms ∧ event'.claimedArms = event.claimedArms ∧
      event'.claimedResources ≤ event.claimedResources := by
  cases h with
  | claimed h => exact ⟨rfl, rfl, rfl, rfl, rfl, rfl, rfl, rfl, Nat.sub_le _ _⟩
  | other h => exact ⟨rfl, rfl, rfl, rfl, rfl, rfl, rfl, rfl, Nat.le_refl _⟩

/-- A move of a producer takes and frees the mutexes that its place says it holds. -/
lemma ProducerMove.ownMutexes [DecidableEq α] (hok : ProducerOk i event pc)
    (h : ProducerMove i event pc event' pc') :
    (event'.waiterMutex = some i ↔ pc'.holdsWaiterMutex = true) ∧
      (event'.mutex = some (.producer i) ↔ pc'.holdsMutex = true) := by
  obtain ⟨hwaiter, hmutex, hexpects⟩ := hok
  cases h with
  | wait htakes =>
    obtain ⟨-, hsame, hsame', -⟩ := htakes.frame
    exact ⟨hsame ▸ hwaiter, hsame' ▸ hmutex⟩
  | drainOne htakes =>
    obtain ⟨-, hsame, hsame', -⟩ := htakes.frame
    exact ⟨hsame ▸ hwaiter, hsame' ▸ hmutex⟩
  | assertIdle =>
    have hidle : (!event.waiting && !event.wakeClaimed) = true := by
      rw [hexpects.waiting, hexpects.wakeClaimed]
      rfl
    rw [if_pos hidle]
    exact ⟨hwaiter, hmutex⟩
  | readProgress =>
    split
    next => exact ⟨hwaiter, hmutex⟩
    next => exact ⟨hwaiter, hmutex⟩
  | checkClaim =>
    split
    next => exact ⟨hwaiter, hmutex⟩
    next => exact ⟨hwaiter, hmutex⟩
  | _ => constructor <;> simp_all [ProducerPc.holdsWaiterMutex, ProducerPc.holdsMutex]

/-- A move of a producer leads to a place that it may rely on. -/
lemma ProducerMove.expects [DecidableEq α] (hevent : EventOk event) (hok : ProducerOk i event pc)
    (h : ProducerMove i event pc event' pc') : pc'.Expects event' := by
  obtain ⟨hwaiter, hmutex, hexpects⟩ := hok
  cases h with
  | call observed => exact trivial
  | lockWaiter hfree => exact ⟨(hevent.free hfree).1, (hevent.free hfree).2, (hevent.free hfree).3⟩
  | lock hfree => exact ⟨hexpects.1, hexpects.2, hexpects.3⟩
  | assertIdle =>
    have hidle : (!event.waiting && !event.wakeClaimed) = true := by
      rw [hexpects.waiting, hexpects.wakeClaimed]
      rfl
    rw [if_pos hidle]
    exact hexpects
  | readProgress =>
    split
    next hchanged => exact ⟨hexpects, hchanged⟩
    next hsame => exact ⟨hexpects, fun _ => not_not.mp hsame⟩
  | unlockChanged =>
    obtain ⟨hunarmed, hseen⟩ := hexpects
    exact ⟨⟨hunarmed.1, hunarmed.2, hunarmed.3⟩, hseen⟩
  | arm =>
    obtain ⟨hunarmed, hsettles⟩ := hexpects
    exact ⟨⟨rfl, rfl, fun _ => ⟨hunarmed.claimedResources, hsettles⟩⟩, rfl⟩
  | storeHint =>
    obtain ⟨harmed, hunclaimed⟩ := hexpects
    exact ⟨⟨harmed.1, harmed.2, harmed.3⟩, hunclaimed⟩
  | unlockArmed =>
    obtain ⟨harmed, hunclaimed⟩ := hexpects
    refine ⟨⟨harmed.1, harmed.2, harmed.3⟩, fun hclaimed => ?_⟩
    rw [show event.wakeClaimed = true from hclaimed] at hunclaimed
    cases hunclaimed
  | wait htakes =>
    obtain ⟨hprogress, -, -, hwaiting, hclaimed, hconsumer, harms, -, hle⟩ := htakes.frame
    obtain ⟨harmed, -⟩ := hexpects
    refine ⟨hwaiting.trans harmed.1, harms.trans harmed.2, fun hunclaimed => ?_⟩
    obtain ⟨hnone, hsettles⟩ := harmed.unclaimed (hclaimed ▸ hunclaimed)
    refine ⟨Nat.eq_zero_of_le_zero (hnone ▸ hle), fun hidle => ?_⟩
    rw [hprogress]
    exact hsettles (hconsumer ▸ hidle)
  | lockWoken hfree =>
    have harmed : event.Armed _ _ := hexpects
    exact ⟨harmed.1, harmed.2, harmed.3⟩
  | checkClaim =>
    split
    next hunclaimed => exact ⟨hexpects, by simpa using hunclaimed⟩
    next hclaimed => exact ⟨hexpects, by simpa using hclaimed⟩
  | unlockUnclaimed =>
    obtain ⟨harmed, hunclaimed⟩ := hexpects
    refine ⟨⟨harmed.1, harmed.2, harmed.3⟩, fun hclaimed => ?_⟩
    rw [show event.wakeClaimed = true from hclaimed] at hunclaimed
    cases hunclaimed
  | acknowledge =>
    obtain ⟨harmed, hclaimed⟩ := hexpects
    exact ⟨rfl, rfl, harmed.arm ▸ hevent.claimed hclaimed⟩
  | drainOne htakes =>
    obtain ⟨-, -, -, hwaiting, hclaimed, -, -, hlist, -⟩ := htakes.frame
    obtain ⟨hnot, hunclaimed, hmem⟩ := hexpects
    exact ⟨hwaiting.trans hnot, hclaimed.trans hunclaimed, hlist ▸ hmem⟩
  | drained hcount =>
    obtain ⟨hnot, hunclaimed, hmem⟩ := hexpects
    exact ⟨⟨hnot, hunclaimed, (Nat.add_eq_zero_iff.mp hcount).1⟩, hmem⟩
  | unlockWoken =>
    obtain ⟨hunarmed, hmem⟩ := hexpects
    exact ⟨⟨hunarmed.1, hunarmed.2, hunarmed.3⟩, hmem⟩
  | unlockWaiter => exact trivial

/-- The consumer claims and posts inside of its section. -/
lemma ProgressEvent.not_posting (event : ProgressEvent α ι)
    (h : event.consumer.holdsMutex = false) :
    ¬event.Posting ∧ ∀ quiesce, event.consumer ≠ .unlock quiesce := by
  refine ⟨?_, fun quiesce hpc => ?_⟩
  · rintro ⟨quiesce, hpc | hpc⟩ <;> rw [hpc] at h <;> cases h
  · rw [hpc] at h
    cases h

/-- The assertion about the event does not depend on the progress, the hint and the resources. -/
lemma EventOk.of_frame (hevent : EventOk event)
    (hmutex : event'.mutex = some .consumer ↔ event.mutex = some .consumer)
    (hconsumer : event'.consumer = event.consumer) (hwaiting : event'.waiting = event.waiting)
    (hclaimed : event'.wakeClaimed = event.wakeClaimed) (harms : event'.arms = event.arms)
    (hlist : event'.claimedArms = event.claimedArms)
    (hfree : event'.waiterMutex = none → event'.Unarmed) : EventOk event' := by
  refine ⟨?_, hfree, fun h => ?_, fun h => ?_, fun quiesce h => ?_⟩
  · rw [hmutex, hconsumer]
    exact hevent.mutex
  · rw [harms, hlist]
    exact hevent.claimed (hclaimed ▸ h)
  · rw [hwaiting, hclaimed]
    obtain ⟨quiesce, h⟩ := h
    exact hevent.posting ⟨quiesce, hconsumer ▸ h⟩
  · rw [hwaiting, hclaimed]
    exact hevent.unlocking quiesce (hconsumer ▸ h)

/-- A move of a producer keeps the assertion about the event. -/
lemma ProducerMove.eventOk [DecidableEq α] (hevent : EventOk event) (hok : ProducerOk i event pc)
    (h : ProducerMove i event pc event' pc') : EventOk event' := by
  obtain ⟨hwaiter, hmutex, hexpects⟩ := hok
  -- inside of the section the consumer is outside of it
  have hconsumer : pc.holdsMutex = true →
      event.mutex ≠ some .consumer ∧ event.consumer.holdsMutex = false := by
    intro hheld
    have hnot : event.mutex ≠ some .consumer := by
      rw [hmutex.mpr hheld]
      exact nofun
    exact ⟨hnot, Bool.eq_false_iff.mpr fun hconsumer => hnot (hevent.mutex.mpr hconsumer)⟩
  have hinside : pc.holdsWaiterMutex = true → event.waiterMutex = none → False := by
    intro hheld hnone
    rw [hwaiter.mpr hheld] at hnone
    cases hnone
  cases h with
  | call observed => exact hevent
  | lockWaiter hfree => exact hevent.of_frame Iff.rfl rfl rfl rfl rfl rfl nofun
  | lock hfree =>
    refine hevent.of_frame ?_ rfl rfl rfl rfl rfl fun h => (hinside rfl h).elim
    rw [hfree]
    exact iff_of_false nofun nofun
  | assertIdle => exact hevent
  | readProgress => exact hevent
  | arm =>
    obtain ⟨hnot, houtside⟩ := hconsumer rfl
    obtain ⟨hposting, hunlock⟩ := event.not_posting houtside
    exact ⟨hevent.mutex, fun h => (hinside rfl h).elim, nofun, fun h => (hposting h).elim,
      fun quiesce h => (hunlock quiesce h).elim⟩
  | storeHint =>
    exact hevent.of_frame Iff.rfl rfl rfl rfl rfl rfl fun h => (hinside rfl h).elim
  | wait htakes =>
    obtain ⟨-, hwaiter', hmutex', hwaiting, hclaimed, hpc, harms, hlist, -⟩ := htakes.frame
    exact hevent.of_frame (by rw [hmutex']) hpc hwaiting hclaimed harms hlist
      fun h => (hinside rfl (hwaiter' ▸ h)).elim
  | lockWoken hfree =>
    refine hevent.of_frame ?_ rfl rfl rfl rfl rfl fun h => (hinside rfl h).elim
    rw [hfree]
    exact iff_of_false nofun nofun
  | checkClaim => exact hevent
  | acknowledge =>
    obtain ⟨hnot, houtside⟩ := hconsumer rfl
    obtain ⟨hposting, hunlock⟩ := event.not_posting houtside
    exact ⟨hevent.mutex, fun h => (hinside rfl h).elim, nofun, fun h => (hposting h).elim, nofun⟩
  | drainOne htakes =>
    obtain ⟨-, hwaiter', hmutex', hwaiting, hclaimed, hpc, harms, hlist, -⟩ := htakes.frame
    exact hevent.of_frame (by rw [hmutex']) hpc hwaiting hclaimed harms hlist
      fun h => (hinside rfl (hwaiter' ▸ h)).elim
  | drained hcount => exact hevent
  | unlockWaiter =>
    obtain ⟨hunarmed, -⟩ := hexpects
    exact hevent.of_frame Iff.rfl rfl rfl rfl rfl rfl
      fun _ => ⟨hunarmed.1, hunarmed.2, hunarmed.3⟩
  | _ =>
    exact hevent.of_frame (iff_of_false nofun (hconsumer rfl).1) rfl rfl rfl rfl rfl
      fun h => (hinside rfl h).elim

/-- A move of a producer keeps its own assertion and the one about the event. -/
lemma ProducerMove.own [DecidableEq α] (hevent : EventOk event) (hok : ProducerOk i event pc)
    (h : ProducerMove i event pc event' pc') : EventOk event' ∧ ProducerOk i event' pc' :=
  ⟨h.eventOk hevent hok, (h.ownMutexes hok).1, (h.ownMutexes hok).2, h.expects hevent hok⟩

lemma ProducerPc.holdsMutex_le (h : other.holdsWaiterMutex = false) : other.holdsMutex = false := by
  cases other <;> first | rfl | cases h

/-- Outside of `m_waiter_mutex` a producer relies on nothing. -/
lemma ProducerPc.expects_of_outside (h : other.holdsWaiterMutex = false)
    (hexpects : other.Expects event) : other.Expects event' := by
  cases other with
  | outside => exact trivial
  | lockWaiter observed => exact trivial
  | asserted => exact hexpects
  | _ => cases h

/-- A move takes or frees a mutex for the producer that makes it. -/
lemma ProducerMove.mutexes [DecidableEq α] (h : ProducerMove i event pc event' pc') :
    (event'.waiterMutex = event.waiterMutex ∨ event'.waiterMutex = some i ∨
      event'.waiterMutex = none) ∧
    (event'.mutex = event.mutex ∨ event'.mutex = some (.producer i) ∨ event'.mutex = none) := by
  cases h with
  | wait htakes => exact ⟨Or.inl htakes.frame.2.1, Or.inl htakes.frame.2.2.1⟩
  | drainOne htakes => exact ⟨Or.inl htakes.frame.2.1, Or.inl htakes.frame.2.2.1⟩
  | _ => constructor <;> simp

/-- Every move but a call is made inside `m_waiter_mutex` or takes it. -/
lemma ProducerMove.inside [DecidableEq α] (h : ProducerMove i event pc event' pc') :
    event' = event ∨ pc.holdsWaiterMutex = true ∨ event.waiterMutex = none := by
  cases h with
  | call observed => exact Or.inl rfl
  | lockWaiter hfree => exact Or.inr (Or.inr hfree)
  | _ => exact Or.inr (Or.inl rfl)

/-- A move of a producer does not disturb the others. -/
lemma ProducerMove.others [DecidableEq α] (hij : i ≠ j) (hok : ProducerOk i event pc)
    (hother : ProducerOk j event other) (h : ProducerMove i event pc event' pc') :
    ProducerOk j event' other := by
  rcases h.inside with rfl | hinside
  · exact hother
  -- at most one producer is inside `m_waiter_mutex`
  have hout : other.holdsWaiterMutex = false := by
    by_contra hheld
    have hj := hother.waiterMutex.mpr (by simpa using hheld)
    rcases hinside with hpc | hfree
    · rw [hok.waiterMutex.mpr hpc] at hj
      exact hij (Option.some.inj hj)
    · rw [hfree] at hj
      cases hj
  have hfree := ProducerPc.holdsMutex_le hout
  obtain ⟨hwaiter, hmutex⟩ := h.mutexes
  constructor
  · have := hother.waiterMutex
    grind
  · have := hother.mutex
    grind
  · exact ProducerPc.expects_of_outside hout hother.expects

/-- The consumer goes from one place outside of its section to another. -/
lemma EventOk.goTo (hevent : EventOk event) (h : event.consumer.holdsMutex = false) {pc : ConsumerPc}
    (hpc : pc.holdsMutex = false) : EventOk { event with consumer := pc } := by
  obtain ⟨hmutex, hfree, hclaimed, -, -⟩ := hevent
  have houtside := ProgressEvent.not_posting { event with consumer := pc } hpc
  refine ⟨?_, fun h => ⟨(hfree h).1, (hfree h).2, (hfree h).3⟩, hclaimed,
    fun h => (houtside.1 h).elim, fun quiesce h => (houtside.2 quiesce h).elim⟩
  rw [h] at hmutex
  rw [hpc]
  exact hmutex

/-- A move of the consumer keeps the assertion about the event. -/
lemma ConsumerMove.eventOk (hevent : EventOk event) (h : ConsumerMove event event') :
    EventOk event' := by
  have ⟨hmutex, hfree, hclaimed, hposting, hunlocking⟩ := hevent
  cases h with
  | publish h value =>
    exact hevent.of_frame Iff.rfl rfl rfl rfl rfl rfl
      fun h => ⟨(hfree h).1, (hfree h).2, (hfree h).3⟩
  | notifyOfProgress h => exact hevent.goTo (by rw [h]; rfl) rfl
  | publishQuiescence h => exact hevent.goTo (by rw [h]; rfl) rfl
  | loadHint h => exact hevent.goTo (by rw [h]; rfl) (by split <;> rfl)
  | lock h hnone =>
    exact ⟨iff_of_true rfl rfl, fun h => ⟨(hfree h).1, (hfree h).2, (hfree h).3⟩, hclaimed,
      fun ⟨_, h⟩ => by (rcases h with h | h <;> cases h), nofun⟩
  | claim h hwaiting =>
    rw [Bool.and_eq_true, Bool.not_eq_true'] at hwaiting
    refine ⟨?_, fun hnone => ?_, fun _ => List.mem_cons_self, fun _ => ⟨hwaiting.1, rfl⟩, nofun⟩
    · rw [h] at hmutex
      exact hmutex
    · rw [(hfree hnone).waiting] at hwaiting
      cases hwaiting.1
  | nobody h hnobody =>
    refine ⟨?_, fun h => ⟨(hfree h).1, (hfree h).2, (hfree h).3⟩, hclaimed,
      fun ⟨_, h⟩ => by (rcases h with h | h <;> cases h), fun _ _ hwaiting => ?_⟩
    · rw [h] at hmutex
      exact hmutex
    · rw [show event.waiting = true from hwaiting] at hnobody
      simpa using hnobody
  | @clearHint quiesce h =>
    refine ⟨?_, fun h => ⟨(hfree h).1, (hfree h).2, (hfree h).3⟩, hclaimed,
      fun _ => hposting ⟨quiesce, Or.inl h⟩, nofun⟩
    rw [h] at hmutex
    exact hmutex
  | @post quiesce h =>
    obtain ⟨hwaiting, hwoken⟩ := hposting ⟨quiesce, Or.inr h⟩
    refine ⟨?_, fun hnone => ?_, hclaimed, fun _ => ⟨hwaiting, hwoken⟩, fun _ _ _ => hwoken⟩
    · rw [h] at hmutex
      exact hmutex
    · rw [(hfree hnone).waiting] at hwaiting
      cases hwaiting
  | @unlock quiesce h =>
    have houtside : ∀ quiesce : Bool,
        (if quiesce then ConsumerPc.idle else .active).holdsMutex = false := by decide
    obtain ⟨hnot, hunlock⟩ := ProgressEvent.not_posting { event with
      mutex := none, consumer := if quiesce then ConsumerPc.idle else .active } (houtside quiesce)
    refine ⟨iff_of_false nofun ?_, fun h => ⟨(hfree h).1, (hfree h).2, (hfree h).3⟩, hclaimed,
      fun h => (hnot h).elim, fun quiesce h => (hunlock quiesce h).elim⟩
    rw [houtside]
    exact nofun
  | resume h => exact hevent.goTo (by rw [h]; rfl) rfl
  | postUnclaimed =>
    exact hevent.of_frame Iff.rfl rfl rfl rfl rfl rfl
      fun h => ⟨(hfree h).1, (hfree h).2, (hfree h).3⟩

lemma Outcome.Justified.congr {outcome : Outcome α} {observed : α}
    (h : outcome.Justified event observed) (hlist : event'.claimedArms = event.claimedArms) :
    outcome.Justified event' observed := by
  cases outcome with
  | changed seen => exact h
  | woken arm =>
    show arm ∈ event'.claimedArms
    rw [hlist]
    exact h

/-- What a producer relies on does not change with the consumer's place, as long
as it still settles and still posts what it has claimed. -/
lemma ProducerPc.Expects.mono (h : other.Expects event)
    (hwaiting : event'.waiting = event.waiting) (hclaimed : event'.wakeClaimed = event.wakeClaimed)
    (hresources : event'.claimedResources = event.claimedResources)
    (harms : event'.arms = event.arms) (hlist : event'.claimedArms = event.claimedArms)
    (hposting : event.Posting → event'.Posting)
    (hsettles : ∀ observed, event.wakeClaimed = false →
      (event.waiting = true ∨ other.holdsMutex = true) → event.Settles observed →
        event'.Settles observed) : other.Expects event' := by
  have hunarmed : event.Unarmed → event'.Unarmed := fun h =>
    ⟨hwaiting.trans h.waiting, hclaimed.trans h.wakeClaimed, hresources.trans h.claimedResources⟩
  have harmed : ∀ observed number, event.Armed observed number → event'.Armed observed number := by
    intro observed number h
    refine ⟨hwaiting.trans h.waiting, harms.trans h.arm, fun hunclaimed => ?_⟩
    rw [hclaimed] at hunclaimed
    obtain ⟨hnone, hsettled⟩ := h.unclaimed hunclaimed
    exact ⟨hresources.trans hnone, hsettles observed hunclaimed (Or.inl h.waiting) hsettled⟩
  cases other with
  | outside => exact trivial
  | lockWaiter observed => exact trivial
  | lock observed => exact hunarmed h
  | assertIdle observed => exact hunarmed h
  | readProgress observed => exact hunarmed h
  | unlockChanged observed seen => exact ⟨hunarmed h.1, h.2⟩
  | arm observed =>
    exact ⟨hunarmed h.1, hsettles observed h.1.wakeClaimed (Or.inr rfl) h.2⟩
  | storeHint observed number => exact ⟨harmed _ _ h.1, hclaimed.trans h.2⟩
  | unlockArmed observed number => exact ⟨harmed _ _ h.1, hclaimed.trans h.2⟩
  | wait observed number =>
    refine ⟨harmed _ _ h.1, fun hwoken => ?_⟩
    rw [hclaimed] at hwoken
    rw [hresources]
    exact (h.2 hwoken).imp_right hposting
  | lockWoken observed number => exact harmed _ _ h
  | checkClaim observed number => exact harmed _ _ h
  | unlockUnclaimed observed number => exact ⟨harmed _ _ h.1, hclaimed.trans h.2⟩
  | acknowledge observed number => exact ⟨harmed _ _ h.1, hclaimed.trans h.2⟩
  | drain observed number => exact ⟨hwaiting.trans h.1, hclaimed.trans h.2.1, hlist ▸ h.2.2⟩
  | unlockWoken observed number => exact ⟨hunarmed h.1, hlist ▸ h.2⟩
  | unlockWaiter observed outcome => exact ⟨hunarmed h.1, h.2.congr hlist⟩
  | asserted => exact h

/-- A producer that is not in the section and meets a claimed arm is the one that waits for it. -/
lemma ProducerPc.Expects.waiting_cases (h : other.Expects event) (hwaiting : event.waiting = true)
    (hmutex : other.holdsMutex = false) :
    other.holdsWaiterMutex = false ∨ (∃ observed number, other = .wait observed number) ∨
      ∃ observed number, other = .lockWoken observed number := by
  cases other with
  | outside => exact Or.inl rfl
  | lockWaiter observed => exact Or.inl rfl
  | lock observed =>
    rw [h.waiting] at hwaiting
    cases hwaiting
  | wait observed number => exact Or.inr (Or.inl ⟨observed, number, rfl⟩)
  | lockWoken observed number => exact Or.inr (Or.inr ⟨observed, number, rfl⟩)
  | unlockWaiter observed outcome =>
    rw [h.1.waiting] at hwaiting
    cases hwaiting
  | asserted => exact Or.inl rfl
  | _ => cases hmutex

/-- A move of the consumer does not disturb a producer. -/
lemma ConsumerMove.producerOk (hevent : EventOk event) (hother : ProducerOk j event other)
    (h : ConsumerMove event event') : ProducerOk j event' other := by
  have hmutex : event'.mutex = some (.producer j) ↔ event.mutex = some (.producer j) := by
    cases h with
    | lock h hfree =>
      rw [hfree]
      exact iff_of_false nofun nofun
    | unlock h =>
      rw [hevent.mutex.mpr (by rw [h]; rfl)]
      exact iff_of_false nofun nofun
    | _ => exact Iff.rfl
  have hwaiter : event'.waiterMutex = event.waiterMutex := by cases h <;> rfl
  -- while the consumer is in the section no producer is
  have hsection : event.consumer.holdsMutex = true → other.holdsMutex = false := by
    intro hheld
    by_contra hproducer
    have hmine := hother.mutex.mpr (by simpa using hproducer)
    rw [hevent.mutex.mpr hheld] at hmine
    cases hmine
  refine ⟨hwaiter ▸ hother.waiterMutex, hmutex.trans hother.mutex, ?_⟩
  cases h with
  | @claim quiesce hpc hwaiting =>
    rw [Bool.and_eq_true, Bool.not_eq_true'] at hwaiting
    rcases hother.expects.waiting_cases hwaiting.1 (hsection (by rw [hpc]; rfl)) with hout |
      ⟨observed, number, rfl⟩ | ⟨observed, number, rfl⟩
    · exact ProducerPc.expects_of_outside hout hother.expects
    · obtain ⟨harmed, -⟩ := hother.expects
      exact ⟨⟨harmed.waiting, harmed.arm, fun h => by cases h⟩,
        fun _ => Or.inr ⟨quiesce, Or.inl rfl⟩⟩
    · have harmed : event.Armed observed number := hother.expects
      exact ⟨harmed.waiting, harmed.arm, fun h => by cases h⟩
  | @post quiesce hpc =>
    obtain ⟨hwaiting, hclaimed⟩ := hevent.posting ⟨quiesce, Or.inr hpc⟩
    rcases hother.expects.waiting_cases hwaiting (hsection (by rw [hpc]; rfl)) with hout |
      ⟨observed, number, rfl⟩ | ⟨observed, number, rfl⟩
    · exact ProducerPc.expects_of_outside hout hother.expects
    · obtain ⟨harmed, -⟩ := hother.expects
      exact ⟨⟨harmed.waiting, harmed.arm, fun h => by rw [hclaimed] at h; cases h⟩,
        fun _ => Or.inl (Nat.succ_pos _)⟩
    · have harmed : event.Armed observed number := hother.expects
      exact ⟨harmed.waiting, harmed.arm, fun h => by rw [hclaimed] at h; cases h⟩
  | @unlock quiesce hpc =>
    refine hother.expects.mono rfl rfl rfl rfl rfl ?_ ?_
    · rintro ⟨_, h | h⟩ <;> rw [hpc] at h <;> cases h
    · -- the section found nobody to wake, or has claimed
      rintro observed hunclaimed (hwaiting | hheld) -
      · rw [hevent.unlocking quiesce hpc hwaiting] at hunclaimed
        cases hunclaimed
      · rw [hsection (by rw [hpc]; rfl)] at hheld
        cases hheld
  | @clearHint quiesce hpc =>
    exact hother.expects.mono rfl rfl rfl rfl rfl (fun _ => ⟨quiesce, Or.inr rfl⟩)
      fun _ _ _ _ => nofun
  | publish hpc value =>
    refine hother.expects.mono rfl rfl rfl rfl rfl (fun ⟨quiesce, h⟩ => ⟨quiesce, h⟩) ?_
    rintro observed - - - hidle
    rw [show event.consumer = .idle from hidle] at hpc
    cases hpc
  | loadHint hpc =>
    refine hother.expects.mono rfl rfl rfl rfl rfl ?_ ?_
    · rintro ⟨_, h | h⟩ <;> rw [hpc] at h <;> cases h
    · rintro observed - - - hidle
      cases hhint : event.waitingHint <;> rw [hhint] at hidle <;> cases hidle
  | postUnclaimed =>
    exact hother.expects.mono rfl rfl rfl rfl rfl (fun ⟨quiesce, h⟩ => ⟨quiesce, h⟩)
      fun _ _ _ h => h
  | _ hpc =>
    refine hother.expects.mono rfl rfl rfl rfl rfl ?_ fun _ _ _ _ => nofun
    rintro ⟨_, h | h⟩ <;> rw [hpc] at h <;> cases h

end Moves

/-! ### Runs -/

/-- No wakeup is lost, none is stale, and none answers another arm. -/
structure NoLostWakeup (state : State ι (ProgressEvent α ι) (ProducerPc α)) : Prop where
  /-- With the consumer idle nobody sleeps on a value that has changed. -/
  quiescent : state.shared.consumer = .idle → ∀ i observed arm,
    state.threads i = .wait observed arm → state.shared.count = 0 →
      state.shared.progress = observed
  /-- A call returns for a changed value or for a claim of its own arm. -/
  justified : ∀ i observed outcome, state.threads i = .unlockWaiter observed outcome →
    outcome.Justified state.shared observed
  oneArmed : ∀ i j, (state.threads i).armed = true → (state.threads j).armed = true → i = j
  unarmed : (∀ i, (state.threads i).armed = false) →
    state.shared.waiting = false ∧ state.shared.wakeClaimed = false
  noAssertion : ∀ i, state.threads i ≠ .asserted
  /-- No claimed resource is left behind the acknowledgement. -/
  noStaleResource : (∀ i, (state.threads i).armed = false ∧ (state.threads i).draining = false) →
    state.shared.claimedResources = 0

section Runs

/-- Inside `m_waiter_mutex` but not armed. -/
lemma ProducerPc.Expects.unarmed {pc : ProducerPc α} (h : pc.Expects event)
    (hwaiter : pc.holdsWaiterMutex = true) (harmed : pc.armed = false) :
    event.waiting = false ∧ event.wakeClaimed = false ∧
      (pc.draining = false → event.claimedResources = 0) := by
  have hunarmed : event.Unarmed → event.waiting = false ∧ event.wakeClaimed = false ∧
      (pc.draining = false → event.claimedResources = 0) :=
    fun h => ⟨h.waiting, h.wakeClaimed, fun _ => h.claimedResources⟩
  cases pc with
  | lock observed => exact hunarmed h
  | assertIdle observed => exact hunarmed h
  | readProgress observed => exact hunarmed h
  | unlockChanged observed seen => exact hunarmed h.1
  | arm observed => exact hunarmed h.1
  | drain observed number => exact ⟨h.1, h.2.1, fun h => by cases h⟩
  | unlockWoken observed number => exact hunarmed h.1
  | unlockWaiter observed outcome => exact hunarmed h.1
  | outside => cases hwaiter
  | lockWaiter observed => cases hwaiter
  | asserted => cases hwaiter
  | _ => cases harmed

lemma ProducerPc.holdsWaiterMutex_of_armed {pc : ProducerPc α} (h : pc.armed = true) :
    pc.holdsWaiterMutex = true := by
  cases pc <;> first | rfl | cases h

variable [DecidableEq α]

lemma progressSystem_stable :
    (progressSystem α ι).Stable EventOk (ProducerOk : ι → ProgressEvent α ι → ProducerPc α → Prop)
    where
  move := fun hevent hok hmove => ProducerMove.own hevent hok hmove
  other := fun hij _ hok hother hmove => ProducerMove.others hij hok hother hmove
  ambient := fun hevent hmove => ConsumerMove.eventOk hevent hmove
  ambientThread := fun hevent hother hmove => ConsumerMove.producerOk hevent hother hmove

variable [DecidableEq ι]

lemma progressEvent_ok {progress : α} {state : State ι (ProgressEvent α ι) (ProducerPc α)}
    (h : (progressSystem α ι).Reachable (freshState progress) state) :
    EventOk state.shared ∧ ∀ i, ProducerOk i state.shared (state.threads i) := by
  refine progressSystem_stable.reachable ?_ (fun i => ?_) h
  · constructor <;> simp [freshState, freshEvent, ConsumerPc.holdsMutex, ProgressEvent.Posting]
    exact ⟨rfl, rfl, rfl⟩
  · constructor <;> simp [freshState, freshEvent, ProducerPc.holdsWaiterMutex,
      ProducerPc.holdsMutex, ProducerPc.Expects]

/-- Every state of every run of `SingleWaiterProgressEvent`. -/
theorem noLostWakeup {progress : α} {state : State ι (ProgressEvent α ι) (ProducerPc α)}
    (h : (progressSystem α ι).Reachable (freshState progress) state) : NoLostWakeup state := by
  obtain ⟨hevent, hproducers⟩ := progressEvent_ok h
  -- what is left when nobody is armed
  have hquiet : (∀ i, (state.threads i).armed = false) →
      state.shared.waiting = false ∧ state.shared.wakeClaimed = false ∧
        ((∀ i, (state.threads i).draining = false) → state.shared.claimedResources = 0) := by
    intro harmed
    cases hwaiter : state.shared.waiterMutex with
    | none =>
      have hfree := hevent.free hwaiter
      exact ⟨hfree.waiting, hfree.wakeClaimed, fun _ => hfree.claimedResources⟩
    | some i =>
      obtain ⟨hwaiting, hclaimed, hresources⟩ :=
        (hproducers i).expects.unarmed ((hproducers i).waiterMutex.mp hwaiter) (harmed i)
      exact ⟨hwaiting, hclaimed, fun hdraining => hresources (hdraining i)⟩
  constructor
  · intro hidle i observed arm hpc hcount
    have hexpects := (hproducers i).expects
    rw [hpc] at hexpects
    obtain ⟨harmed, hclaimed⟩ := hexpects
    cases hwoken : state.shared.wakeClaimed with
    | false => exact (harmed.unclaimed hwoken).2 hidle
    | true =>
      -- the claim has been posted, so there is a resource to take
      exfalso
      rcases hclaimed hwoken with hresources | ⟨quiesce, hposting⟩
      · unfold ProgressEvent.count at hcount
        omega
      · rw [hidle] at hposting
        rcases hposting with hposting | hposting <;> cases hposting
  · intro i observed outcome hpc
    have hexpects := (hproducers i).expects
    rw [hpc] at hexpects
    exact hexpects.2
  · intro i j hi hj
    have hmine := (hproducers i).waiterMutex.mpr (ProducerPc.holdsWaiterMutex_of_armed hi)
    have hother := (hproducers j).waiterMutex.mpr (ProducerPc.holdsWaiterMutex_of_armed hj)
    rw [hmine] at hother
    exact Option.some.inj hother
  · intro harmed
    exact ⟨(hquiet harmed).1, (hquiet harmed).2.1⟩
  · intro i hpc
    have hexpects := (hproducers i).expects
    rw [hpc] at hexpects
    exact hexpects
  · intro hout
    exact (hquiet fun i => (hout i).1).2.2 fun i => (hout i).2

end Runs

/-- The consumer publishes and goes idle while a producer is armed on the old value. -/
theorem noLostWakeup_sleeper :
    ∃ state : State Unit (ProgressEvent ℕ Unit) (ProducerPc ℕ),
      (state.shared.consumer = .idle ∧ state.threads () = .wait 0 1 ∧
        state.shared.progress = 1) ∧ NoLostWakeup state := by
  have hrun : (progressSystem ℕ Unit).Reachable (freshState 0) (freshState 0) := .refl
  have hrun := hrun.tail (.thread () (.call 0))
  have hrun := hrun.tail (.thread () (.lockWaiter rfl))
  have hrun := hrun.tail (.thread () (.lock rfl))
  have hrun := hrun.tail (.thread () .assertIdle)
  have hrun := hrun.tail (.thread () .readProgress)
  have hrun := hrun.tail (.thread () .arm)
  have hrun := hrun.tail (.thread () .storeHint)
  have hrun := hrun.tail (.thread () .unlockArmed)
  have hrun := hrun.tail (.ambient (.publish rfl 1))
  have hrun := hrun.tail (.ambient (.publishQuiescence rfl))
  have hrun := hrun.tail (.ambient (.lock rfl rfl))
  have hrun := hrun.tail (.ambient (.claim rfl rfl))
  have hrun := hrun.tail (.ambient (.clearHint rfl))
  have hrun := hrun.tail (.ambient (.post rfl))
  have hrun := hrun.tail (.ambient (.unlock rfl))
  exact ⟨_, ⟨rfl, rfl, rfl⟩, noLostWakeup hrun⟩

end VitaSX2.Threading
