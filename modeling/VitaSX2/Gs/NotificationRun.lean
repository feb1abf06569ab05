/-
The notification mailbox hands over whole targets, the newest first, and keeps
every target that the thread has not been prevented from noticing.

The slot belongs to the producer while it is publishing and to the thread while
it is claiming.  A ready target has a semaphore resource, a post on its way or a
thread on its way to the take.  The take spends the resource, so it must not
meet a replacement in progress: nothing is posted for it afterwards.
-/
import VitaSX2.Gs.Notification

namespace VitaSX2.Notification

variable {s s' : Mailbox}

/-! ### Ownership of the slot -/

def ProducerPc.storing : ProducerPc → Bool
  | store _ _ _ => true
  | _ => false

def ThreadPc.taking : ThreadPc → Bool
  | take _ _ _ => true
  | _ => false

/-- What the producer has stored of its target. -/
def ProducerPc.Holds (s : Mailbox) : ProducerPc → Prop
  | .load target _ => target.Usable
  | .exchange target _ state => target.Usable ∧ (state = .empty ∨ state = .ready)
  | .store target remaining _ =>
    target.Usable ∧ ∀ field, field ∉ remaining → s.pending field = target field
  | _ => True

/-- What the thread has loaded, and how its request stands to the completed one. -/
def ThreadPc.Holds (s : Mailbox) : ThreadPc → Prop
  | .loadCompleted request => request = s.request ∧ s.request = s.completed
  | .take remaining resolved number =>
    s.request = s.completed ∧ number = s.published.length ∧
      ∀ field, field ∉ remaining → resolved field = s.pending field
  | .publish resolved => s.request = s.completed ∧ resolved.Usable
  | .inspect request | .service request | .watchShutdown request | .watchPending request
  | .watchdogs request | .settle request =>
    (request = 0 ∧ s.request = s.completed) ∨ (request ≠ 0 ∧ request = s.request)
  | .poll request | .afterPoll request => request = s.request
  | .stopped => True
  | _ => s.request = s.completed

/-- The newest published target is in the slot, and no take has seen it. -/
structure Fresh (s : Mailbox) : Prop where
  newest : s.published.getLast? = some s.pending
  untaken : ∀ take ∈ s.takes, take.2 < s.published.length

structure MailboxOk (s : Mailbox) : Prop where
  publishing : s.pendingState = .publishing ↔ s.producer.storing = true
  claiming : s.pendingState = .claiming ↔ s.thread.taking = true
  producer : s.producer.Holds s
  thread : s.thread.Holds s
  fresh : s.pendingState = .ready ∨ s.pendingState = .claiming → Fresh s
  usable : ∀ target ∈ s.published, target.Usable
  /-- A take is the newest target that was published before it. -/
  takes : ∀ take ∈ s.takes, 0 < take.2 ∧ take.2 ≤ s.published.length ∧
    s.published[take.2 - 1]? = some take.1
  ordered : s.takes.Pairwise fun later earlier => earlier.2 < later.2

/-! ### What the moves leave alone -/

/-- The thread relies on its requests, and on the slot while it is claiming. -/
lemma ThreadPc.Holds.congr {pc : ThreadPc} (h : pc.Holds s) (hrequest : s'.request = s.request)
    (hcompleted : s'.completed = s.completed)
    (hslot : pc.taking = true → s'.pending = s.pending ∧ s'.published = s.published) :
    pc.Holds s' := by
  cases pc with
  | take remaining resolved number =>
    obtain ⟨hpending, hpublished⟩ := hslot rfl
    simp only [Holds, hrequest, hcompleted, hpending, hpublished]
    exact h
  | stopped => trivial
  | _ =>
    simp only [Holds, hrequest, hcompleted]
    exact h

/-- The producer relies on what it has stored. -/
lemma ProducerPc.Holds.congr {pc : ProducerPc} (h : pc.Holds s)
    (hpending : s'.pending = s.pending) : pc.Holds s' := by
  cases pc with
  | store target remaining replacement =>
    simp only [Holds, hpending]
    exact h
  | _ => exact h

/-- A move of the producer leaves the thread and its variables alone. -/
lemma ProducerMove.frame (h : ProducerMove s s') :
    s'.thread = s.thread ∧ s'.request = s.request ∧ s'.completed = s.completed ∧
      s'.takes = s.takes := by
  cases h <;> exact ⟨rfl, rfl, rfl, rfl⟩

/-- A move of the thread leaves the producer and its variables alone. -/
lemma ThreadMove.frame (h : ThreadMove s s') :
    s'.producer = s.producer ∧ s'.pending = s.pending ∧ s'.published = s.published := by
  cases h <;> exact ⟨rfl, rfl, rfl⟩

/-! ### The invariant -/

lemma nextRequest_ne_zero (request : BitVec 32) : nextRequest request ≠ 0 := by
  unfold nextRequest
  split
  · decide
  · assumption

/-- The producer owns the slot while it is storing, and nobody else's mark is removed. -/
lemma ProducerMove.slot (hok : MailboxOk s) (h : ProducerMove s s') :
    (s'.pendingState = .publishing ↔ s'.producer.storing = true) ∧
      (s'.pendingState = .claiming ↔ s'.thread.taking = true) := by
  obtain ⟨hpublishing, hclaiming, hproducer, -, -, -, -, -⟩ := hok
  have hthread : s.pendingState ≠ .claiming → s.thread.taking = false := fun hnot =>
    Bool.eq_false_iff.mpr fun htaking => hnot (hclaiming.mpr htaking)
  cases h with
  | load hpc =>
    rw [hpc] at hpublishing
    refine ⟨?_, hclaiming⟩
    show _ ↔ (if _ then ProducerPc.exchange _ _ _ else ProducerPc.load _ _).storing = true
    split
    next => exact hpublishing
    next => exact hpublishing
  | exchange hpc hstate =>
    rw [hpc] at hproducer
    refine ⟨iff_of_true rfl rfl, iff_of_false nofun ?_⟩
    rw [hthread]
    · exact nofun
    · rcases hproducer.2 with hempty | hready
      · rw [hstate, hempty]
        exact nofun
      · rw [hstate, hready]
        exact nofun
  | store hpc =>
    rw [hpc] at hpublishing
    exact ⟨hpublishing, hclaiming⟩
  | publish hpc =>
    rw [hpc] at hpublishing
    have hnot : s.pendingState ≠ .claiming := by
      rw [hpublishing.mpr rfl]
      exact nofun
    refine ⟨iff_of_false nofun ?_, iff_of_false nofun ?_⟩
    · show ¬(if _ then ProducerPc.outside else ProducerPc.post).storing = true
      split
      next => exact nofun
      next => exact nofun
    · rw [hthread hnot]
      exact nofun
  | call target hpc husable =>
    rw [hpc] at hpublishing
    exact ⟨hpublishing, hclaiming⟩
  | _ hpc =>
    rw [hpc] at hpublishing
    exact ⟨hpublishing, hclaiming⟩

/-- A move of the producer leads to a place that it may rely on. -/
lemma ProducerMove.holds (hok : MailboxOk s) (h : ProducerMove s s') : s'.producer.Holds s' := by
  have hproducer := hok.producer
  cases h with
  | call target hpc husable => exact husable
  | giveUp hpc => exact trivial
  | load hpc =>
    rw [hpc] at hproducer
    show (if _ then ProducerPc.exchange _ _ _ else ProducerPc.load _ _).Holds _
    split
    next hstate => exact ⟨hproducer, hstate⟩
    next => exact hproducer
  | failExchange hpc =>
    rw [hpc] at hproducer
    exact hproducer.1
  | exchange hpc hstate =>
    rw [hpc] at hproducer
    exact ⟨hproducer.1, fun field hfield => (hfield field.mem_all).elim⟩
  | @store target field remaining replacement hpc =>
    rw [hpc] at hproducer
    refine ⟨hproducer.1, fun other hother => ?_⟩
    show Function.update s.pending field (target field) other = target other
    by_cases hsame : other = field
    · rw [hsame, Function.update_self]
    · rw [Function.update_of_ne hsame]
      exact hproducer.2 other (List.not_mem_cons_of_ne_of_not_mem hsame hother)
  | publish hpc =>
    show (if _ then ProducerPc.outside else ProducerPc.post).Holds _
    split
    next => exact trivial
    next => exact trivial
  | post hpc => exact trivial

/-- A move of the producer queues at most one target, the one that it has stored. -/
lemma ProducerMove.published (hok : MailboxOk s) (h : ProducerMove s s') :
    (s'.published = s.published ∧ s'.pendingState = s.pendingState ∧
        (s.pendingState ≠ .publishing → s'.pending = s.pending)) ∨
      s'.pendingState = .publishing ∧ s.pendingState ≠ .claiming ∧ s'.published = s.published ∨
      s.pendingState = .publishing ∧ s'.pendingState = .ready ∧
        ∃ target : Target, target.Usable ∧ s'.pending = target ∧
          s'.published = s.published ++ [target] := by
  have hproducer := hok.producer
  have hpublishing := hok.publishing
  cases h with
  | exchange hpc hstate =>
    rw [hpc] at hproducer
    refine Or.inr (Or.inl ⟨rfl, ?_, rfl⟩)
    rcases hproducer.2 with hempty | hready
    · rw [hstate, hempty]
      exact nofun
    · rw [hstate, hready]
      exact nofun
  | store hpc =>
    rw [hpc] at hpublishing
    exact Or.inl ⟨rfl, rfl, fun hnot => (hnot (hpublishing.mpr rfl)).elim⟩
  | @publish target replacement hpc =>
    rw [hpc] at hpublishing hproducer
    -- the slot holds the target once all its words are stored
    exact Or.inr (Or.inr ⟨hpublishing.mpr rfl, rfl, target, hproducer.1,
      funext fun field => hproducer.2 field List.not_mem_nil, rfl⟩)
  | _ => exact Or.inl ⟨rfl, rfl, fun _ => rfl⟩

/-- Moves of the producer keep the invariant. -/
lemma ProducerMove.mailboxOk (hok : MailboxOk s) (h : ProducerMove s s') : MailboxOk s' := by
  obtain ⟨hslot, hslot'⟩ := h.slot hok
  have hholds := h.holds hok
  have hmoved := h.published hok
  obtain ⟨-, hclaiming, -, hthread, hfresh, husable, htakes, hordered⟩ := hok
  obtain ⟨hsame, hrequest, hcompleted, htaken⟩ := h.frame
  rcases hmoved with ⟨hlist, hstate, hpending⟩ | ⟨hstate, hnot, hlist⟩ |
    ⟨hstate, hready, target, htarget, hstored, hlist⟩
  · have hkeep : s.pendingState = .ready ∨ s.pendingState = .claiming →
        s'.pending = s.pending := fun h => hpending (by rcases h with h | h <;> rw [h] <;> exact nofun)
    refine ⟨hslot, hslot', hholds, hsame ▸ hthread.congr hrequest hcompleted ?_, ?_, hlist ▸ husable,
      ?_, htaken ▸ hordered⟩
    · exact fun htaking => ⟨hkeep (Or.inr (hclaiming.mpr htaking)), hlist⟩
    · rw [hstate]
      intro h
      obtain ⟨hnewest, huntaken⟩ := hfresh h
      refine ⟨?_, ?_⟩
      · rw [hlist, hkeep h]
        exact hnewest
      · rw [htaken, hlist]
        exact huntaken
    · rw [htaken, hlist]
      exact htakes
  · refine ⟨hslot, hslot', hholds, hsame ▸ hthread.congr hrequest hcompleted ?_, ?_, hlist ▸ husable,
      ?_, htaken ▸ hordered⟩
    · exact fun htaking => (hnot (hclaiming.mpr htaking)).elim
    · rw [hstate]
      rintro (h | h) <;> cases h
    · rw [htaken, hlist]
      exact htakes
  · refine ⟨hslot, hslot', hholds, hsame ▸ hthread.congr hrequest hcompleted ?_, fun _ => ⟨?_, ?_⟩,
      ?_, ?_, htaken ▸ hordered⟩
    · intro htaking
      rw [hclaiming.mpr htaking] at hstate
      cases hstate
    · rw [hlist, hstored, List.getLast?_concat]
    · rw [htaken, hlist]
      intro take htake
      have hle := (htakes take htake).2.1
      rw [List.length_append, List.length_singleton]
      omega
    · rw [hlist]
      intro other hother
      rcases List.mem_append.mp hother with hother | hother
      · exact husable other hother
      · rw [List.mem_singleton.mp hother]
        exact htarget
    · rw [htaken, hlist]
      intro take htake
      obtain ⟨hpos, hle, hget⟩ := htakes take htake
      refine ⟨hpos, by rw [List.length_append]; omega, ?_⟩
      rw [List.getElem?_append_left (by omega), hget]

lemma ThreadPc.taking_ite {p : Prop} [Decidable p] {left right : ThreadPc}
    (hleft : left.taking = false) (hright : right.taking = false) :
    (if p then left else right).taking = false := by
  split
  next => exact hleft
  next => exact hright

/-- A move of the thread leaves the slot alone, claims a ready target or ends its claim. -/
lemma ThreadMove.claims (h : ThreadMove s s') :
    (s'.pendingState = s.pendingState ∧ s'.thread.taking = s.thread.taking ∧
        s'.takes = s.takes) ∨
      (s.pendingState = .ready ∧ s'.pendingState = .claiming ∧ s'.thread.taking = true ∧
        s'.takes = s.takes) ∨
      (s.thread.taking = true ∧ s'.pendingState = .empty ∧ s'.thread.taking = false ∧
        (s'.takes = s.takes ∨ ∃ resolved number, s.thread = .take [] resolved number ∧
          s'.takes = (resolved, number) :: s.takes)) := by
  cases h with
  | claim hpc hready => exact Or.inr (Or.inl ⟨hready, rfl, rfl, rfl⟩)
  | taken hpc husable =>
    exact Or.inr (Or.inr ⟨by rw [hpc]; rfl, rfl, rfl, Or.inr ⟨_, _, hpc, rfl⟩⟩)
  | discarded hpc husable =>
    exact Or.inr (Or.inr ⟨by rw [hpc]; rfl, rfl, rfl, Or.inl rfl⟩)
  | fatal hpc =>
    refine Or.inl ⟨rfl, ?_, rfl⟩
    rcases hpc with hpc | hpc | hpc
    · rw [hpc]
      rfl
    · rw [hpc]
      rfl
    · rw [hpc]
      rfl
  | wait hpc hcount => exact Or.inl ⟨rfl, by rw [hpc]; rfl, rfl⟩
  | nothing hpc hready => exact Or.inl ⟨rfl, by rw [hpc]; rfl, rfl⟩
  | watchdogs hpc active =>
    exact Or.inl ⟨rfl, by rw [hpc]; exact ThreadPc.taking_ite rfl rfl, rfl⟩
  | head hpc => exact Or.inl ⟨rfl, by rw [hpc]; exact ThreadPc.taking_ite rfl rfl, rfl⟩
  | loadShutdown hpc => exact Or.inl ⟨rfl, by rw [hpc]; exact ThreadPc.taking_ite rfl rfl, rfl⟩
  | loadCompleted hpc => exact Or.inl ⟨rfl, by rw [hpc]; exact ThreadPc.taking_ite rfl rfl, rfl⟩
  | inspect hpc => exact Or.inl ⟨rfl, by rw [hpc]; exact ThreadPc.taking_ite rfl rfl, rfl⟩
  | watchShutdown hpc => exact Or.inl ⟨rfl, by rw [hpc]; exact ThreadPc.taking_ite rfl rfl, rfl⟩
  | watchPending hpc => exact Or.inl ⟨rfl, by rw [hpc]; exact ThreadPc.taking_ite rfl rfl, rfl⟩
  | afterPoll hpc => exact Or.inl ⟨rfl, by rw [hpc]; exact ThreadPc.taking_ite rfl rfl, rfl⟩
  | pollAgain hpc => exact Or.inl ⟨rfl, by rw [hpc], rfl⟩
  | _ hpc => exact Or.inl ⟨rfl, by rw [hpc]; rfl, rfl⟩

/-- A move of the thread leads to a place that it may rely on. -/
lemma ThreadMove.holds (hok : MailboxOk s) (h : ThreadMove s s') : s'.thread.Holds s' := by
  have hthread := hok.thread
  cases h with
  | head hpc =>
    rw [hpc] at hthread
    show (if _ then ThreadPc.tryWait else .wait).Holds _
    split
    next => exact hthread
    next => exact hthread
  | tryWait hpc =>
    rw [hpc] at hthread
    exact hthread
  | wait hpc hcount =>
    rw [hpc] at hthread
    exact hthread
  | loadShutdown hpc =>
    rw [hpc] at hthread
    show (if _ then ThreadPc.stopped else .loadRequest).Holds _
    split
    next => exact trivial
    next => exact hthread
  | loadRequest hpc =>
    rw [hpc] at hthread
    exact ⟨rfl, hthread⟩
  | loadCompleted hpc =>
    rw [hpc] at hthread
    rw [if_pos (hthread.1.trans hthread.2)]
    exact hthread.2
  | claim hpc hready =>
    rw [hpc] at hthread
    exact ⟨hthread, rfl, fun field hfield => (hfield field.mem_all).elim⟩
  | nothing hpc hready =>
    rw [hpc] at hthread
    exact Or.inl ⟨rfl, hthread⟩
  | @take field remaining resolved number hpc =>
    rw [hpc] at hthread
    refine ⟨hthread.1, hthread.2.1, fun other hother => ?_⟩
    show Function.update resolved field (s.pending field) other = s.pending other
    by_cases hsame : other = field
    · rw [hsame, Function.update_self]
    · rw [Function.update_of_ne hsame]
      exact hthread.2.2 other (List.not_mem_cons_of_ne_of_not_mem hsame hother)
  | taken hpc husable =>
    rw [hpc] at hthread
    exact ⟨hthread.1, husable⟩
  | discarded hpc husable =>
    rw [hpc] at hthread
    exact Or.inl ⟨rfl, hthread.1⟩
  | publish hpc => exact Or.inr ⟨nextRequest_ne_zero _, rfl⟩
  | inspect hpc =>
    rw [hpc] at hthread
    show (if _ then ThreadPc.service _ else .poll _).Holds _
    split
    next => exact hthread
    next hnone =>
      rcases hthread with ⟨hzero, -⟩ | ⟨-, hrequest⟩
      · exact (hnone (Or.inl hzero)).elim
      · exact hrequest
  | service hpc =>
    rw [hpc] at hthread
    exact hthread
  | watchShutdown hpc =>
    rw [hpc] at hthread
    show (if _ then ThreadPc.settle _ else .watchPending _).Holds _
    split
    next => exact hthread
    next => exact hthread
  | watchPending hpc =>
    rw [hpc] at hthread
    show (if _ then ThreadPc.settle _ else .watchdogs _).Holds _
    split
    next => exact hthread
    next => exact hthread
  | watchdogs hpc active =>
    rw [hpc] at hthread
    show (if _ then ThreadPc.watchShutdown _ else .settle _).Holds _
    split
    next => exact hthread
    next => exact hthread
  | @settle request hpc =>
    rw [hpc] at hthread
    show s.request = if request ≠ 0 then request else s.completed
    rcases hthread with ⟨hzero, hsettled⟩ | ⟨hrequest, hsame⟩
    · rw [if_neg (not_not_intro hzero)]
      exact hsettled
    · rw [if_pos hrequest]
      exact hsame.symm
  | pollAgain hpc =>
    rw [hpc] at hthread
    exact hthread
  | leavePoll hpc =>
    rw [hpc] at hthread
    exact hthread
  | @afterPoll request hpc =>
    rw [hpc] at hthread
    cases hshutdown : s.shutdown with
    | true => exact trivial
    | false => exact Eq.symm hthread
  | fatal hpc => exact trivial

/-- Moves of the thread keep the invariant. -/
lemma ThreadMove.mailboxOk (hok : MailboxOk s) (h : ThreadMove s s') : MailboxOk s' := by
  have hholds := h.holds hok
  obtain ⟨hpublishing, hclaiming, hproducer, hthread, hfresh, husable, htakes, hordered⟩ := hok
  obtain ⟨hsame, hpending, hpublished⟩ := h.frame
  have hproducer' : s'.producer.Holds s' := hsame ▸ hproducer.congr hpending
  have hfresh' : s'.takes = s.takes → Fresh s → Fresh s' := fun htaken ⟨hnewest, huntaken⟩ =>
    ⟨by rw [hpublished, hpending, hnewest], by rw [htaken, hpublished]; exact huntaken⟩
  rcases h.claims with ⟨hstate, htaking, htaken⟩ | ⟨hready, hstate, htaking, htaken⟩ |
    ⟨htaking, hstate, hended, htaken⟩
  · refine ⟨?_, ?_, hproducer', hholds, ?_, hpublished ▸ husable, ?_, htaken ▸ hordered⟩
    · rw [hstate, hsame]
      exact hpublishing
    · rw [hstate, htaking]
      exact hclaiming
    · rw [hstate]
      exact fun h => hfresh' htaken (hfresh h)
    · rw [htaken, hpublished]
      exact htakes
  · refine ⟨?_, iff_of_true hstate htaking, hproducer', hholds,
      fun _ => hfresh' htaken (hfresh (Or.inl hready)), hpublished ▸ husable, ?_,
      htaken ▸ hordered⟩
    · rw [hready] at hpublishing
      rw [hstate, hsame]
      exact iff_of_false nofun fun hstoring => nomatch hpublishing.mpr hstoring
    · rw [htaken, hpublished]
      exact htakes
  · have hclaimed := hclaiming.mpr htaking
    have hnot : s'.producer.storing ≠ true := by
      rw [hsame]
      intro hstoring
      rw [hpublishing.mpr hstoring] at hclaimed
      cases hclaimed
    refine ⟨?_, ?_, hproducer', hholds, ?_, hpublished ▸ husable, ?_, ?_⟩
    · rw [hstate]
      exact iff_of_false nofun hnot
    · rw [hstate, hended]
      exact iff_of_false nofun nofun
    · rw [hstate]
      rintro (h | h) <;> cases h
    · rw [hpublished]
      rcases htaken with htaken | ⟨resolved, number, hpc, htaken⟩ <;> rw [htaken]
      · exact htakes
      -- every word was loaded from the slot, which holds the newest target
      rw [hpc] at hthread
      obtain ⟨-, hnumber, hloaded⟩ := hthread
      have hresolved : resolved = s.pending :=
        funext fun field => hloaded field List.not_mem_nil
      have hnewest := (hfresh (Or.inr hclaimed)).newest
      intro take htake
      rcases List.mem_cons.mp htake with rfl | htake
      · have hpos : 0 < s.published.length := by
          rw [List.length_pos_iff]
          rintro hnil
          rw [hnil] at hnewest
          cases hnewest
        refine ⟨hnumber ▸ hpos, Nat.le_of_eq hnumber, ?_⟩
        rw [hresolved, ← hnewest, hnumber, List.getLast?_eq_getElem?]
      · exact htakes take htake
    · rcases htaken with htaken | ⟨resolved, number, hpc, htaken⟩ <;> rw [htaken]
      · exact hordered
      rw [hpc] at hthread
      have huntaken := (hfresh (Or.inr hclaimed)).untaken
      exact List.pairwise_cons.mpr
        ⟨fun take htake => hthread.2.1 ▸ huntaken take htake, hordered⟩

/-- Moves of the others keep the invariant. -/
lemma OtherMove.mailboxOk (hok : MailboxOk s) (h : OtherMove s s') : MailboxOk s' := by
  obtain ⟨hpublishing, hclaiming, hproducer, hthread, hfresh, husable, htakes, hordered⟩ := hok
  cases h <;>
    exact ⟨hpublishing, hclaiming, hproducer.congr rfl,
      hthread.congr rfl rfl fun _ => ⟨rfl, rfl⟩, fun h => ⟨(hfresh h).newest, (hfresh h).untaken⟩,
      husable, htakes, hordered⟩

/-! ### Noticed targets -/

/-- A newer target is being written over one that has not been taken. -/
def Replacing (s : Mailbox) : Prop :=
  ∃ target remaining, s.producer = .store target remaining true

/-- The thread has taken its resource and has not looked for a target yet. -/
def ThreadPc.looking : ThreadPc → Bool
  | loadShutdown | loadRequest | loadCompleted _ | claim _ | stopped => true
  | _ => false

/-- Somebody will look at the target: a resource, a post, or the thread on its way. -/
def Noticed (s : Mailbox) : Prop :=
  s.pendingState = .ready ∨ Replacing s →
    0 < s.requestSema ∨ s.producer = .post ∨ s.thread.looking = true

/-- The take does not meet a replacement unless a resource is left for it. -/
def Attentive (s : Mailbox) : Prop :=
  (∃ request, s.thread = .claim request) → Replacing s → 0 < s.requestSema

/-- A step in which the thread is attentive. -/
inductive AttentiveStep (s s' : Mailbox) : Prop
  | producer (h : ProducerMove s s')
  | thread (hattentive : Attentive s) (h : ThreadMove s s')
  | other (h : OtherMove s s')

lemma ProducerMove.noticed (hnoticed : Noticed s) (h : ProducerMove s s') : Noticed s' := by
  rintro hpending
  cases h <;> grind [Noticed, Replacing, ThreadPc.looking]

lemma ThreadMove.noticed (hok : MailboxOk s) (hnoticed : Noticed s) (hattentive : Attentive s)
    (h : ThreadMove s s') : Noticed s' := by
  rintro hpending
  have hpublishing := hok.publishing
  have hthread := hok.thread
  cases h with
  | @nothing request hpc hready =>
    -- the slot can only be ready later, and then a resource is left for it
    rcases hpending with hpending | hreplacing
    · exact absurd hpending hready
    · exact Or.inl (hattentive ⟨request, hpc⟩ hreplacing)
  | _ =>
    grind [Noticed, Replacing, Attentive, ThreadPc.looking, ThreadPc.Holds, ProducerPc.storing]

lemma OtherMove.noticed (hnoticed : Noticed s) (h : OtherMove s s') : Noticed s' := by
  rintro hpending
  cases h <;> grind [Noticed, Replacing, ThreadPc.looking]

/-! ### Runs -/

lemma initial_mailboxOk : MailboxOk initial where
  publishing := by simp [initial, ProducerPc.storing]
  claiming := by simp [initial, ThreadPc.taking]
  producer := trivial
  thread := rfl
  fresh := by simp [initial]
  usable := by simp [initial]
  takes := by simp [initial]
  ordered := List.Pairwise.nil

lemma initial_noticed : Noticed initial := by simp [Noticed, Replacing, initial]

lemma Step.mailboxOk (hok : MailboxOk s) (h : Step s s') : MailboxOk s' := by
  cases h with
  | producer h => exact h.mailboxOk hok
  | thread h => exact h.mailboxOk hok
  | other h => exact h.mailboxOk hok

/-- The mailbox is in order in every run, attentive or not. -/
theorem Reachable.mailboxOk (hrun : Reachable s) : MailboxOk s := by
  induction hrun with
  | refl => exact initial_mailboxOk
  | tail _ hstep ih => exact hstep.mailboxOk ih

lemma AttentiveStep.step (h : AttentiveStep s s') : Step s s' := by
  cases h with
  | producer h => exact .producer h
  | thread _ h => exact .thread h
  | other h => exact .other h

/-- One attentive step: the target stays noticed. -/
lemma AttentiveStep.noticed (hok : MailboxOk s) (hnoticed : Noticed s) (h : AttentiveStep s s') :
    Noticed s' := by
  cases h with
  | producer h => exact h.noticed hnoticed
  | thread hattentive h => exact h.noticed hok hnoticed hattentive
  | other h => exact h.noticed hnoticed

/-- An attentive run. -/
lemma attentive_run (hrun : Relation.ReflTransGen AttentiveStep initial s) :
    MailboxOk s ∧ Noticed s := by
  induction hrun with
  | refl => exact ⟨initial_mailboxOk, initial_noticed⟩
  | tail _ hstep ih => exact ⟨hstep.step.mailboxOk ih.1, hstep.noticed ih.1 ih.2⟩

/-- What the mailbox is for. -/
structure KeepsTargets (s : Mailbox) : Prop where
  /-- A take is the newest target queued before it. -/
  newest : ∀ take ∈ s.takes, 0 < take.2 ∧ (s.published.take take.2).getLast? = some take.1
  /-- The takes follow the order of the queue. -/
  ordered : s.takes.Pairwise fun later earlier => earlier.2 < later.2
  /-- The thread does not sleep over a target. -/
  awake : s.thread = .wait → s.requestSema = 0 → s.producer = .outside → s.pendingState ≠ .ready
  settled : s.thread = .wait → s.request = s.completed

end VitaSX2.Notification
