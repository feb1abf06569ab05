/-
The strong wait is not left behind by the worker, and its posts are its own.

The posts of a pass are settled by one balance: a raised flag, a post on its way
or a resource, exactly one of them from the raising of the flag to the end of
the pass.  A waiter that sleeps on a flag nobody has claimed relies on a later
publication.  There is one if the producer is still before its second exchange,
or if the reservation at the head of the ring has no completion yet.  The worker
that has raised its own flag and then finds a completion is the exception.
-/
import Mathlib.Tactic.ByContra
import VitaSX2.Gs.DrainWait

namespace VitaSX2.DrainWait

variable {s s' : Mailbox}

/-! ### The balance of a pass -/

/-- The pass whose flag the producer has claimed. -/
def ProducerPc.claims : ProducerPc → List ℕ
  | .post pass => [pass]
  | _ => []

/-- The flag that is up, the post that is owed and the resources, each as its pass. -/
def tokens (s : Mailbox) : List ℕ :=
  (if s.drainWaiter then [s.pass] else []) ++ (s.producer.claims ++ s.drainSema)

/-- The waiter has raised its flag and has not settled it. -/
def WaiterPc.inPass : WaiterPc → Bool
  | .load | .wait | .disarm | .waitClaimed => true
  | _ => false

structure Balanced (s : Mailbox) : Prop where
  balance : tokens s = if s.waiter.inPass then [s.pass] else []
  claimed : s.waiter = .waitClaimed → s.drainWaiter = false

/-- The waiter raises one token and settles it. -/
lemma WaiterMove.balanced (hbalanced : Balanced s) (h : WaiterMove s s') : Balanced s' := by
  obtain ⟨htokens, hclaimed⟩ := hbalanced
  cases h with
  | disarm hpc =>
    cases hflag : s.drainWaiter <;> refine ⟨?_, ?_⟩ <;>
      simp_all [tokens, WaiterPc.inPass]
  | load hpc =>
    cases hflag : s.completionWaiting <;> refine ⟨?_, ?_⟩ <;>
      simp_all [tokens, WaiterPc.inPass]
  | wait hpc hsema =>
    rcases hpc with hpc | hpc <;> refine ⟨?_, ?_⟩ <;>
      simp_all [tokens, WaiterPc.inPass, List.append_eq_singleton_iff]
  | _ => refine ⟨?_, ?_⟩ <;> simp_all [tokens, WaiterPc.inPass]

/-- The producer only changes what kind of token there is. -/
lemma ProducerMove.tokens_eq (h : ProducerMove s s') : tokens s' = tokens s := by
  cases h with
  | exchangeDrain hpc =>
    cases hflag : s.drainWaiter <;> simp [tokens, hpc, hflag, ProducerPc.claims]
  | exchangeWaiting hpc => cases s.completionWaiting <;> simp [tokens, hpc, ProducerPc.claims]
  | full => rfl
  | call _ hpc => simp [tokens, hpc, ProducerPc.claims]
  | push hpc => simp [tokens, hpc, ProducerPc.claims]
  | notify hpc => simp [tokens, hpc, ProducerPc.claims]
  | post hpc => simp [tokens, hpc, ProducerPc.claims]

lemma ProducerMove.balanced (hbalanced : Balanced s) (h : ProducerMove s s') : Balanced s' := by
  have hframe : s'.waiter = s.waiter ∧ s'.pass = s.pass := by cases h <;> exact ⟨rfl, rfl⟩
  refine ⟨?_, ?_⟩
  · rw [h.tokens_eq, hframe.1, hframe.2]
    exact hbalanced.balance
  · rw [hframe.1]
    cases h <;> grind [Balanced]

/-- The worker has no part in the balance. -/
lemma WorkerMove.balanced (hbalanced : Balanced s) (h : WorkerMove s s') : Balanced s' := by
  cases h <;> exact ⟨hbalanced.balance, hbalanced.claimed⟩

/-! ### The head of the ring -/

/-- The worker has not got past this PATH1 command. -/
def StartsPath1 (ring : List Command) : Prop := ∃ count commands, ring = .path1 count :: commands

lemma StartsPath1.append {ring : List Command} (h : StartsPath1 ring) (commands : List Command) :
    StartsPath1 (ring ++ commands) := by
  obtain ⟨count, tail, rfl⟩ := h
  exact ⟨count, tail ++ commands, rfl⟩

lemma StartsPath1.ne_nil {ring : List Command} (h : StartsPath1 ring) : ring ≠ [] := by
  obtain ⟨count, tail, rfl⟩ := h
  exact List.cons_ne_nil _ _

/-- Extending the last run does not change what the ring starts with. -/
lemma StartsPath1.extend {commands : List Command} {count count' : ℕ}
    (h : StartsPath1 (commands ++ [.path1 count])) :
    StartsPath1 (commands ++ [.path1 count']) := by
  cases commands with
  | nil => exact ⟨count', [], rfl⟩
  | cons command commands =>
    obtain ⟨first, tail, hring⟩ := h
    obtain ⟨rfl, -⟩ := List.cons.inj hring
    exact ⟨first, commands ++ [.path1 count'], rfl⟩

/-- Moves of the EE thread do not touch the head of the ring. -/
lemma WaiterMove.startsPath1 (h : WaiterMove s s') (hhead : StartsPath1 s.ring) :
    StartsPath1 s'.ring := by
  cases h with
  | command => exact hhead.append _
  | reserve => exact hhead.append _
  | extend _ hring => exact (hring ▸ hhead).extend
  | _ => exact hhead

/-! ### The worker's flag -/

/-- The worker is at work on a PATH1 command. -/
def WorkerPc.dispatching : WorkerPc → Bool
  | .peek | .raise | .peekAgain | .lower | .took | .consume => true
  | _ => false

/-- The worker has seen a completion. -/
def WorkerPc.seen : WorkerPc → Bool
  | .lower | .took | .consume => true
  | _ => false

/-- The worker will look for a completion before it does anything else. -/
def WorkerPc.looking : WorkerPc → Bool
  | .asleep | .look | .peek | .raise | .peekAgain => true
  | _ => false

/-- The producer has not come to its second exchange. -/
def ProducerPc.before : ProducerPc → Bool
  | .push _ | .exchangeWaiting | .notify | .exchangeDrain => true
  | _ => false

/-- The head of the ring waits for a completion that has not been published. -/
def Starved (s : Mailbox) : Prop :=
  s.completions = [] ∧ s.worker.looking = true ∧ StartsPath1 s.ring

structure MailboxOk (s : Mailbox) : Prop where
  balanced : Balanced s
  head : s.worker.dispatching = true → StartsPath1 s.ring
  seen : s.worker.seen = true → s.completions ≠ []
  /-- The flag is up for a starved worker, during its second look, or until the producer
  takes it down. -/
  raised : s.completionWaiting = true →
    s.producer = .exchangeWaiting ∨ s.worker = .peekAgain ∨ s.worker = .lower ∨ Starved s

lemma WaiterMove.mailboxOk (hok : MailboxOk s) (h : WaiterMove s s') : MailboxOk s' := by
  have hhead := h.startsPath1
  have hbalanced := h.balanced hok.balanced
  obtain ⟨-, hdispatching, hseen, hraised⟩ := hok
  cases h <;> exact ⟨hbalanced, fun h => hhead (hdispatching h), hseen,
    fun h => (hraised h).imp_right (Or.imp_right (Or.imp_right fun hstarved =>
      ⟨hstarved.1, hstarved.2.1, hhead hstarved.2.2⟩))⟩

lemma ProducerMove.mailboxOk (hok : MailboxOk s) (h : ProducerMove s s') : MailboxOk s' := by
  have hbalanced := h.balanced hok.balanced
  obtain ⟨-, hdispatching, hseen, hraised⟩ := hok
  cases h with
  | push => exact ⟨hbalanced, hdispatching, fun _ => by simp, fun _ => Or.inl rfl⟩
  | _ => refine ⟨hbalanced, hdispatching, hseen, ?_⟩; grind [Starved]

lemma WorkerMove.mailboxOk (hok : MailboxOk s) (h : WorkerMove s s') : MailboxOk s' := by
  have hbalanced := h.balanced hok.balanced
  obtain ⟨-, hdispatching, hseen, hraised⟩ := hok
  cases h <;> refine ⟨hbalanced, ?_, ?_, ?_⟩ <;>
    grind [Starved, StartsPath1, WorkerPc.dispatching, WorkerPc.seen, WorkerPc.looking]

lemma OtherMove.mailboxOk (hok : MailboxOk s) (h : OtherMove s s') : MailboxOk s' := by
  cases h
  exact ⟨⟨hok.balanced.balance, hok.balanced.claimed⟩, hok.head, hok.seen, hok.raised⟩

/-! ### The sleeping waiter -/

/-- A publication will find the flag of the sleeping waiter. -/
def Served (s : Mailbox) : Prop :=
  s.waiter = .wait → s.drainWaiter = true → s.producer.before = true ∨ Starved s

/-- The load of `WaitGS` does not see the worker's flag up while there is a completion whose
publication is over. -/
def Heeded (s : Mailbox) : Prop :=
  s.waiter = .load → s.completionWaiting = true →
    s.completions = [] ∨ s.producer ≠ .outside ∨ s.drainWaiter = false

/-- A step in which the load of `WaitGS` is heeded. -/
inductive HeededStep (s s' : Mailbox) : Prop
  | waiter (hheeded : Heeded s) (h : WaiterMove s s')
  | producer (h : ProducerMove s s')
  | worker (h : WorkerMove s s')
  | other (h : OtherMove s s')

/-- While the flag is up nothing is owed. -/
lemma Balanced.unclaimed (hbalanced : Balanced s) (hflag : s.drainWaiter = true) :
    s.producer.claims = [] ∧ s.drainSema = [] := by
  have htokens := hbalanced.balance
  rw [tokens, if_pos hflag] at htokens
  split at htokens <;> simp_all

lemma WaiterMove.served (hok : MailboxOk s) (hheeded : Heeded s) (h : WaiterMove s s') :
    Served s' := by
  have hhead := h.startsPath1
  rintro hwait hflag
  cases h with
  | load hpc =>
    have hraised : s.completionWaiting = true := by
      by_contra hdown
      simp [hdown] at hwait
    -- the producer owes nothing, so inside it is before its second exchange
    have hbefore : s.producer ≠ .outside → s.producer.before = true := by
      have hclaims := (hok.balanced.unclaimed hflag).1
      cases hproducer : s.producer <;> simp_all [ProducerPc.before, ProducerPc.claims]
    rcases hheeded hpc hraised with hnone | hinside | hdown
    · rcases hok.raised hraised with hproducer | hworker | hworker | hstarved
      · exact Or.inl (by simp [hproducer, ProducerPc.before])
      · exact Or.inr ⟨hnone, by simp [hworker, WorkerPc.looking],
          hok.head (by simp [hworker, WorkerPc.dispatching])⟩
      · exact absurd hnone (hok.seen (by simp [hworker, WorkerPc.seen]))
      · exact Or.inr hstarved
    · exact Or.inl (hbefore hinside)
    · rw [show s.drainWaiter = true from hflag] at hdown
      cases hdown
  | disarm => exact absurd hflag Bool.false_ne_true
  | command hpc | reserve hpc | extend hpc | notify hpc =>
    rw [show s.waiter = .wait from hwait] at hpc
    cases hpc
  | _ => cases hwait

lemma ProducerMove.served (hserved : Served s) (h : ProducerMove s s') : Served s' := by
  rintro hwait hflag
  cases h <;> grind [Served, Starved, ProducerPc.before]

lemma WorkerMove.served (hok : MailboxOk s) (hserved : Served s) (h : WorkerMove s s') :
    Served s' := by
  have hhead := hok.head
  rintro hwait hflag
  cases h <;> grind [Served, Starved, StartsPath1, WorkerPc.dispatching, WorkerPc.looking]

lemma OtherMove.served (hserved : Served s) (h : OtherMove s s') : Served s' := by
  cases h
  exact hserved

/-! ### Runs -/

lemma initial_mailboxOk : MailboxOk initial where
  balanced := ⟨rfl, fun _ => rfl⟩
  head := by simp [initial, WorkerPc.dispatching]
  seen := by simp [initial, WorkerPc.seen]
  raised := by simp [initial]

lemma initial_served : Served initial := by simp [Served, initial]

lemma Step.mailboxOk (hok : MailboxOk s) (h : Step s s') : MailboxOk s' := by
  cases h with
  | waiter h => exact h.mailboxOk hok
  | producer h => exact h.mailboxOk hok
  | worker h => exact h.mailboxOk hok
  | other h => exact h.mailboxOk hok

/-- The mailbox is in order in every run, heeded or not. -/
theorem Reachable.mailboxOk (hrun : Reachable s) : MailboxOk s := by
  induction hrun with
  | refl => exact initial_mailboxOk
  | tail _ hstep ih => exact hstep.mailboxOk ih

lemma HeededStep.step (h : HeededStep s s') : Step s s' := by
  cases h with
  | waiter _ h => exact .waiter h
  | producer h => exact .producer h
  | worker h => exact .worker h
  | other h => exact .other h

/-- One heeded step: a sleeping waiter stays served. -/
lemma HeededStep.served (hok : MailboxOk s) (hserved : Served s) (h : HeededStep s s') :
    Served s' := by
  cases h with
  | waiter hheeded h => exact h.served hok hheeded
  | producer h => exact h.served hserved
  | worker h => exact h.served hok hserved
  | other h => exact h.served hserved

/-- A heeded run. -/
lemma heeded_run (hrun : Relation.ReflTransGen HeededStep initial s) : MailboxOk s ∧ Served s := by
  induction hrun with
  | refl => exact ⟨initial_mailboxOk, initial_served⟩
  | tail _ hstep ih => exact ⟨hstep.step.mailboxOk ih.1, hstep.served ih.1 ih.2⟩

/-- What the strong wait is promised. -/
structure WaitKept (s : Mailbox) : Prop where
  /-- It does not sleep with nothing left to do. -/
  awake : s.waiter = .wait ∨ s.waiter = .waitClaimed → s.drainSema = [] → s.ring = [] →
    s.worker = .asleep → s.producer ≠ .outside
  /-- A resource and an owed post belong to the pass in progress. -/
  own : ∀ pass, pass ∈ s.producer.claims ++ s.drainSema → pass = s.pass ∧ s.waiter.inPass = true
  /-- There is at most one of them. -/
  single : (s.producer.claims ++ s.drainSema).length ≤ 1
  /-- None is left when the wait returns. -/
  returned : s.waiter = .outside → s.producer.claims = [] ∧ s.drainSema = []

/-- Resources are settled within their pass, in every run. -/
lemma Balanced.own (hbalanced : Balanced s) :
    (∀ pass, pass ∈ s.producer.claims ++ s.drainSema →
      pass = s.pass ∧ s.waiter.inPass = true) ∧
    (s.producer.claims ++ s.drainSema).length ≤ 1 := by
  have htokens := hbalanced.balance
  unfold tokens at htokens
  split at htokens <;> split at htokens <;> simp_all

/-- The strong wait keeps its promise as long as its load is heeded. -/
theorem wait_not_stranded (hrun : Relation.ReflTransGen HeededStep initial s) : WaitKept s := by
  obtain ⟨hok, hserved⟩ := heeded_run hrun
  obtain ⟨hown, hsingle⟩ := hok.balanced.own
  have htokens := hok.balanced.balance
  refine ⟨?_, hown, hsingle, ?_⟩
  · rintro hwaiter hsema hring hasleep houtside
    -- nothing is owed, so the flag is up and the waiter sleeps on the worker's word
    have hflag : s.drainWaiter = true := by
      by_contra hdown
      rcases hwaiter with hwaiter | hwaiter <;>
        simp [tokens, hdown, houtside, hsema, hwaiter, ProducerPc.claims,
          WaiterPc.inPass] at htokens
    rcases hwaiter with hwaiter | hwaiter
    · rcases hserved hwaiter hflag with hbefore | hstarved
      · simp [houtside, ProducerPc.before] at hbefore
      · exact hstarved.2.2.ne_nil hring
    · rw [hok.balanced.claimed hwaiter] at hflag
      cases hflag
  · rintro hreturned
    simp_all [tokens, WaiterPc.inPass]

/-- The strong wait sleeps while the head of the ring has no completion. -/
theorem wait_not_stranded_starved :
    ∃ s : Mailbox, (s.waiter = .wait ∧ s.drainSema = [] ∧ s.worker = .asleep) ∧ WaitKept s := by
  have hrun : Relation.ReflTransGen HeededStep initial initial := .refl
  have hrun := hrun.tail (.waiter (fun h => nomatch h) (.reserve rfl))
  have hrun := hrun.tail (.waiter (fun h => nomatch h)
    (.extend rfl (List.nil_append _).symm Nat.one_pos (by decide)))
  have hrun := hrun.tail (.waiter (fun h => nomatch h) (.call rfl))
  have hrun := hrun.tail (.waiter (fun h => nomatch h) (.setEvent rfl))
  have hrun := hrun.tail (.worker (.wake rfl rfl))
  have hrun := hrun.tail (.worker (.dispatch rfl rfl))
  have hrun := hrun.tail (.worker (.peek rfl))
  have hrun := hrun.tail (.worker (.raise rfl))
  have hrun := hrun.tail (.worker (.peekAgain rfl))
  have hrun := hrun.tail (.waiter (fun h => nomatch h) (.waitForEmpty rfl rfl rfl))
  have hrun := hrun.tail (.waiter (fun h => nomatch h) (.unfinished rfl (by rintro ⟨⟩)))
  have hrun := hrun.tail (.waiter (fun h => nomatch h) (.arm rfl))
  have hrun := hrun.tail (.waiter (fun _ _ => Or.inl rfl) (.load rfl))
  exact ⟨_, ⟨rfl, rfl, rfl⟩, wait_not_stranded hrun⟩

/-- The last completion is published before the waiter raises its flag and before the worker
raises its own. -/
theorem wait_stranded : ∃ s : Mailbox, Reachable s ∧ ¬WaitKept s := by
  have hrun : Relation.ReflTransGen Step initial initial := .refl
  have hrun := hrun.tail (.waiter (.reserve rfl))
  have hrun := hrun.tail (.waiter (.extend rfl (List.nil_append _).symm Nat.one_pos (by decide)))
  have hrun := hrun.tail (.waiter (.call rfl))
  have hrun := hrun.tail (.waiter (.setEvent rfl))
  have hrun := hrun.tail (.worker (.wake rfl rfl))
  have hrun := hrun.tail (.worker (.dispatch rfl rfl))
  have hrun := hrun.tail (.worker (.peek rfl))
  have hrun := hrun.tail (.worker (.raise rfl))
  have hrun := hrun.tail (.worker (.peekAgain rfl))
  have hrun := hrun.tail (.waiter (.waitForEmpty rfl rfl rfl))
  have hrun := hrun.tail (.waiter (.unfinished rfl (by rintro ⟨⟩)))
  -- the first completion finds no flag of the waiter
  have hrun := hrun.tail (.producer (.call 1 rfl Nat.one_ne_zero))
  have hrun := hrun.tail (.producer (.push rfl (by decide)))
  have hrun := hrun.tail (.producer (.exchangeWaiting rfl))
  have hrun := hrun.tail (.producer (.notify rfl))
  have hrun := hrun.tail (.producer (.exchangeDrain rfl))
  have hrun := hrun.tail (.worker (.wake rfl rfl))
  have hrun := hrun.tail (.worker (.dispatch rfl rfl))
  have hrun := hrun.tail (.worker (.peek rfl))
  have hrun := hrun.tail (.worker (.claim rfl rfl rfl))
  have hrun := hrun.tail (.worker (.consume rfl rfl))
  -- the worker finds no second completion, which comes before it raises its flag
  have hrun := hrun.tail (.worker (.dispatch rfl rfl))
  have hrun := hrun.tail (.worker (.peek rfl))
  have hrun := hrun.tail (.producer (.call 1 rfl Nat.one_ne_zero))
  have hrun := hrun.tail (.producer (.push rfl (by decide)))
  have hrun := hrun.tail (.producer (.exchangeWaiting rfl))
  have hrun := hrun.tail (.producer (.exchangeDrain rfl))
  have hrun := hrun.tail (.waiter (.arm rfl))
  have hrun := hrun.tail (.worker (.raise rfl))
  -- the waiter sleeps on a flag that the worker is about to lower
  have hrun := hrun.tail (.waiter (.load rfl))
  have hrun := hrun.tail (.worker (.peekAgain rfl))
  have hrun := hrun.tail (.worker (.lower rfl))
  have hrun := hrun.tail (.worker (.claimed rfl Nat.one_ne_zero))
  have hrun := hrun.tail (.worker (.consume rfl rfl))
  have hrun := hrun.tail (.worker (.advance rfl rfl))
  have hrun := hrun.tail (.worker (.drained rfl rfl))
  exact ⟨_, hrun, fun hkept => hkept.awake (Or.inl rfl) rfl rfl rfl rfl⟩

end VitaSX2.DrainWait
