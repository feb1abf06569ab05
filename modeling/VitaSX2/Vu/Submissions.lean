/-
Submissions of a VU command epoch against the one-shot interpreter.

`Remaining` relates a continuation to the part of a completing one-shot run that
is still to come, also inside of a program.  A submission keeps it and executes
as many pairs as its limit says, or it completes; so the submissions end where
the one-shot run ends.  The loop of a submission takes two turns for an Execute
command, though, and at most `maximumCommands + 1` turns: the submissions agree
with the one-shot run exactly for the epochs that need no more.
-/
import VitaSX2.Vu.CommandEpoch
import Mathlib.Data.List.Basic

namespace VitaSX2.Vu

variable {P R : Type*} {step : PairStep P R} {epoch : EpochView P}

/-! ### Program runs that are cut -/

section Programs

variable {program : P} {fbrst : BitVec 32} {vu vu' : VuRegs (BitVec 32) R} {run : RunResult}

lemma executeProgram_of_pos {bound : ℕ} (hbound : 0 < bound) :
    executeProgram step vu program bound fbrst =
      closeRun (BoundedRun.run (boundedStep step program fbrst) bound (enterProvider vu)) := by
  rw [executeProgram, if_neg (by omega)]

/-- A program that finishes has run into the step that finishes it. -/
lemma run_of_finished {bound : ℕ}
    (h : executeProgram step vu program bound fbrst = (vu', run))
    (hfinished : run.result = .programFinished) :
    ∃ running pairs, 0 < bound ∧
      BoundedRun.run (boundedStep step program fbrst) bound (enterProvider vu) =
        (running, pairs, some .programFinished) ∧
      closeRun (running, pairs, some .programFinished) = (vu', run) := by
  by_cases hbound : bound = 0
  · rw [executeProgram, if_pos hbound, Prod.mk.injEq] at h
    obtain ⟨-, rfl⟩ := h
    cases hfinished
  · rw [executeProgram_of_pos (by omega)] at h
    rcases hrun : BoundedRun.run (boundedStep step program fbrst) bound (enterProvider vu) with
      ⟨running, pairs, _ | result⟩
    · rw [hrun, closeRun, Prod.mk.injEq] at h
      obtain ⟨-, rfl⟩ := h
      cases hfinished
    · obtain rfl : result = .programFinished := by
        rw [hrun, closeRun, Prod.mk.injEq] at h
        obtain ⟨-, rfl⟩ := h
        exact hfinished
      exact ⟨running, pairs, by omega, rfl, by rw [← hrun, h]⟩

lemma executedPairs_of_closeRun {running : VuRegs PairAddress R} {pairs : ℕ}
    (h : closeRun (running, pairs, some .programFinished) = (vu', run)) :
    run.executedPairs = pairs + 1 := by
  rw [closeRun, Prod.mk.injEq] at h
  obtain ⟨-, rfl⟩ := h
  simp

/-- A program that finishes executes no more pairs than its bound. -/
lemma executedPairs_le {bound : ℕ}
    (h : executeProgram step vu program bound fbrst = (vu', run))
    (hfinished : run.result = .programFinished) : run.executedPairs ≤ bound := by
  obtain ⟨running, pairs, -, hrun, hclose⟩ := run_of_finished h hfinished
  have := BoundedRun.steps_of_run_some hrun
  have := executedPairs_of_closeRun hclose
  omega

/-- A program that finishes under a bound and is cut at a smaller one either has
finished by then, or executes all pairs of the smaller bound and finishes under
what is left of the larger one. -/
lemma executeProgram_cut {bound cut : ℕ}
    (h : executeProgram step vu program bound fbrst = (vu', run))
    (hfinished : run.result = .programFinished) (hcut : 0 < cut) (hle : cut ≤ bound) :
    (executeProgram step vu program cut fbrst = (vu', run) ∧ run.executedPairs ≤ cut) ∨
      ∃ vuCut runCut runRest, executeProgram step vu program cut fbrst = (vuCut, runCut) ∧
        runCut.result = .pairLimitReached ∧ runCut.executedPairs = cut ∧ cut < bound ∧
        executeProgram step vuCut program (bound - cut) fbrst = (vu', runRest) ∧
        runRest.result = .programFinished ∧
        run.executedPairs = cut + runRest.executedPairs := by
  obtain ⟨running, pairs, hpos, hrun, hclose⟩ := run_of_finished h hfinished
  obtain ⟨left, rfl⟩ := Nat.exists_eq_add_of_le hle
  rcases hpart : BoundedRun.run (boundedStep step program fbrst) cut (enterProvider vu) with
    ⟨runningCut, pairsCut, _ | result⟩
  · right
    have hwhole := BoundedRun.run_add_of_none left hpart
    rw [hrun, Prod.mk.injEq, Prod.mk.injEq] at hwhole
    obtain ⟨hrunning, hsum, hresult⟩ := hwhole
    have hleft : 0 < left := by
      by_contra hzero
      obtain rfl : left = 0 := by omega
      cases hresult
    have hrest : executeProgram step (leaveProvider runningCut) program left fbrst =
        closeRun (running, pairs - cut, some .programFinished) := by
      rw [executeProgram_of_pos hleft, enterProvider_leaveProvider]
      congr 1
      ext1
      · exact hrunning.symm
      · ext1
        · show _ = pairs - cut
          omega
        · exact hresult.symm
    rw [closeRun] at hclose hrest
    rw [Prod.mk.injEq] at hclose
    obtain ⟨rfl, rfl⟩ := hclose
    refine ⟨leaveProvider runningCut, _, _, by rw [executeProgram_of_pos hcut, hpart]; rfl, rfl,
      BoundedRun.steps_of_run_none hpart, by omega,
      by rw [Nat.add_sub_cancel_left]; exact hrest, rfl, ?_⟩
    simp only [if_true]
    omega
  · left
    have hwhole := BoundedRun.run_add_of_some left hpart
    rw [hrun, Prod.mk.injEq, Prod.mk.injEq, Option.some.injEq] at hwhole
    obtain ⟨rfl, rfl, rfl⟩ := hwhole
    have := BoundedRun.steps_of_run_some hpart
    have := executedPairs_of_closeRun hclose
    exact ⟨by rw [executeProgram_of_pos hcut, hpart, hclose], by omega⟩

end Programs

/-! ### The one-shot run from a command on -/

/-- What a command does in a one-shot run that completes. -/
inductive CompletingStep (step : PairStep P R) (epoch : EpochView P) (command : EpochMicroOp)
    (rest : List EpochMicroOp) (index : ℕ) (machine : EpochMachine R) (counters : EpochCounters)
    (final : EpochMachine R) (result : EpochResult) : Prop
  | finish (kind_eq : command.kind = kindEnd) (valid : validEnd command = true)
      (machine_eq : machine = final) (counters_eq : counters = result.counters)
  | unpack (kind_eq : command.kind = kindVifUnpack) (machine' : EpochMachine R) (vectors : ℕ)
      (unpacked : runUnpack epoch command machine = .ok (machine', vectors))
      (continues : executeCommands step epoch rest (index + 1) machine'
        (counters.add 1 vectors 0) = (final, result))
  | execute (kind_eq : command.kind = kindExecuteVu1) (program : P)
      (vu : VuRegs (BitVec 32) R) (run : RunResult)
      (accepted : executeProgramOf epoch command = .ok program)
      (valid : validStart command = true)
      (ran : executeProgram step (beginExecute command machine).vu program
        (command.arguments 2).toNat (command.arguments 4) = (vu, run))
      (finished : run.result = .programFinished)
      (continues : executeCommands step epoch rest (index + 1)
        { beginExecute command machine with vu := vu }
        (counters.add 1 0 run.executedPairs) = (final, result))

lemma runUnpack_error_ne {command : EpochMicroOp} {machine : EpochMachine R} {stop : EpochStop}
    (h : runUnpack epoch command machine = .error stop) : stop ≠ .completed := by
  unfold runUnpack at h
  rintro rfl
  split at h
  · cases h
  · split at h
    · cases h
    · split at h
      · cases h
      · split at h
        · cases h
        · split at h <;> cases h

lemma executeProgramOf_error_ne {command : EpochMicroOp} {stop : EpochStop}
    (h : executeProgramOf epoch command = .error stop) : stop ≠ .completed := by
  unfold executeProgramOf at h
  rintro rfl
  split at h
  · cases h
  · split at h <;> cases h

lemma mapVuStop_ne {result : StepResult} (h : result ≠ .programFinished) :
    mapVuStop result ≠ .completed := by
  cases result <;> simp_all [mapVuStop]

lemma completingStep {command : EpochMicroOp} {rest : List EpochMicroOp} {index : ℕ}
    {machine final : EpochMachine R} {counters : EpochCounters} {result : EpochResult}
    (h : executeCommands step epoch (command :: rest) index machine counters = (final, result))
    (hstop : result.stop = .completed) :
    CompletingStep step epoch command rest index machine counters final result := by
  rw [executeCommands] at h
  by_cases hend : command.kind = kindEnd
  · rw [if_pos hend, Prod.mk.injEq] at h
    obtain ⟨hmachine, rfl⟩ := h
    refine .finish hend ?_ hmachine rfl
    by_contra hvalid
    simp only [if_neg hvalid, reduceCtorEq] at hstop
  rw [if_neg hend] at h
  by_cases hunpack : command.kind = kindVifUnpack
  · rw [if_pos hunpack] at h
    rcases hrun : runUnpack epoch command machine with stop | ⟨machine', vectors⟩
    · simp only [hrun, Prod.mk.injEq] at h
      obtain ⟨-, rfl⟩ := h
      exact absurd hstop (runUnpack_error_ne hrun)
    · simp only [hrun] at h
      exact .unpack hunpack machine' vectors hrun h
  rw [if_neg hunpack] at h
  by_cases hexecute : command.kind = kindExecuteVu1
  · rw [if_pos hexecute] at h
    rcases hprogram : executeProgramOf epoch command with stop | program
    · simp only [hprogram, Prod.mk.injEq] at h
      obtain ⟨-, rfl⟩ := h
      exact absurd hstop (executeProgramOf_error_ne hprogram)
    by_cases hstart : validStart command = true
    swap
    · simp only [hprogram, if_pos hstart, Prod.mk.injEq] at h
      obtain ⟨-, rfl⟩ := h
      cases hstop
    simp only [hprogram, if_neg (not_not_intro hstart)] at h
    rcases hrun : executeProgram step (beginExecute command machine).vu program
      (command.arguments 2).toNat (command.arguments 4) with ⟨vu, run⟩
    simp only [hrun] at h
    by_cases hfinished : run.result = .programFinished
    · rw [if_neg (not_not_intro hfinished)] at h
      exact .execute hexecute program vu run hprogram hstart hrun hfinished h
    · rw [if_pos hfinished, Prod.mk.injEq] at h
      obtain ⟨-, rfl⟩ := h
      exact absurd hstop (mapVuStop_ne hfinished)
  · rw [if_neg hexecute, Prod.mk.injEq] at h
    obtain ⟨-, rfl⟩ := h
    cases hstop

lemma executeProgramOf_ok {command : EpochMicroOp} {program : P}
    (h : executeProgramOf epoch command = .ok program) :
    0 < (command.arguments 2).toNat ∧
      (command.arguments 2).toNat ≤ maximumPairsPerExecute := by
  unfold executeProgramOf at h
  split at h
  · cases h
  · rename_i hchecks
    simp only [not_or, Nat.not_lt] at hchecks
    refine ⟨?_, hchecks.2.2.2⟩
    rw [Nat.pos_iff_ne_zero]
    intro hzero
    exact hchecks.2.2.1 (BitVec.eq_of_toNat_eq hzero)

/-- A completing run counts at least the pairs that it starts with, and at most
`maximumPairsPerExecute` more for every command. -/
lemma vuPairs_bounds (commands : List EpochMicroOp) :
    ∀ {index : ℕ} {machine final : EpochMachine R} {counters : EpochCounters}
      {result : EpochResult},
      executeCommands step epoch commands index machine counters = (final, result) →
      result.stop = .completed →
      counters.vuPairs ≤ result.counters.vuPairs ∧
        result.counters.vuPairs ≤
          counters.vuPairs + maximumPairsPerExecute * commands.length := by
  induction commands with
  | nil =>
    intro index machine final counters result h hstop
    rw [executeCommands, Prod.mk.injEq] at h
    obtain ⟨-, rfl⟩ := h
    cases hstop
  | cons command rest ih =>
    intro index machine final counters result h hstop
    rw [List.length_cons, Nat.mul_succ]
    cases completingStep h hstop with
    | finish _ _ _ hcounters =>
      rw [hcounters]
      omega
    | unpack _ _ _ _ hcontinues =>
      have hrest := ih hcontinues hstop
      simp only [EpochCounters.add] at hrest
      omega
    | execute _ _ _ run hprogram _ hrun hfinished hcontinues =>
      have hrest := ih hcontinues hstop
      simp only [EpochCounters.add] at hrest
      have := executedPairs_le hrun hfinished
      have := executeProgramOf_ok hprogram
      omega

/-! ### What remains of a run -/

/-- The turns that the loop of a submission takes over the commands, if no limit
stops it: an Execute command is first accepted and then run. -/
def epochTurns : List EpochMicroOp → ℕ
  | [] => 1
  | command :: rest =>
    if command.kind = kindEnd then 1
    else if command.kind = kindExecuteVu1 then epochTurns rest + 2
    else epochTurns rest + 1

/-- The turns from a continuation on. -/
def turnsFrom (commands : List EpochMicroOp) (continuation : Continuation) : ℕ :=
  if continuation.executeActive then
    epochTurns (commands.drop (continuation.commandCursor + 1)) + 1
  else epochTurns (commands.drop continuation.commandCursor)

lemma turnsFrom_active {commands : List EpochMicroOp} {continuation : Continuation}
    (h : continuation.executeActive = true) :
    turnsFrom commands continuation =
      epochTurns (commands.drop (continuation.commandCursor + 1)) + 1 := by
  rw [turnsFrom, if_pos h]

lemma turnsFrom_idle {commands : List EpochMicroOp} {continuation : Continuation}
    (h : continuation.executeActive = false) :
    turnsFrom commands continuation =
      epochTurns (commands.drop continuation.commandCursor) := by
  rw [turnsFrom, if_neg (by simp [h])]

/-- A one-shot run that completes in `final` with `result`, as it goes on from a
continuation; an active Execute command has pairs to execute until it finishes. -/
inductive Remaining (step : PairStep P R) (epoch : EpochView P) (machine : EpochMachine R)
    (continuation : Continuation) (final : EpochMachine R) (result : EpochResult) : Prop
  | idle (open_ : continuation.completed = false) (inactive : continuation.executeActive = false)
      (continues : executeCommands step epoch (epoch.commands.drop continuation.commandCursor)
        continuation.commandCursor machine continuation.total = (final, result))
  | active (open_ : continuation.completed = false)
      (isActive : continuation.executeActive = true) (command : EpochMicroOp)
      (command_eq : epoch.commands[continuation.commandCursor]? = some command)
      (kind_eq : command.kind = kindExecuteVu1) (program : P)
      (accepted : executeProgramOf epoch command = .ok program)
      (vu : VuRegs (BitVec 32) R) (run : RunResult)
      (ran : executeProgram step machine.vu program continuation.activePairsRemaining
        (command.arguments 4) = (vu, run))
      (finished : run.result = .programFinished)
      (continues : executeCommands step epoch
        (epoch.commands.drop (continuation.commandCursor + 1)) (continuation.commandCursor + 1)
        { machine with vu := vu } (continuation.total.add 1 0 run.executedPairs) =
          (final, result))

lemma epochTurns_pos (commands : List EpochMicroOp) : 0 < epochTurns commands := by
  cases commands with
  | nil => decide
  | cons command rest =>
    rw [epochTurns]
    split
    · decide
    · split <;> omega

lemma drop_eq_cons {commands rest : List EpochMicroOp} {command : EpochMicroOp} {cursor : ℕ}
    (h : commands.drop cursor = command :: rest) :
    commands[cursor]? = some command ∧ commands.drop (cursor + 1) = rest := by
  constructor
  · have hdrop : (commands.drop cursor)[0]? = commands[cursor + 0]? := List.getElem?_drop
    rw [h, Nat.add_zero] at hdrop
    exact hdrop.symm
  · rw [← List.drop_drop, h, List.drop_one, List.tail_cons]

section Submission

variable {machine machine' final : EpochMachine R} {continuation continuation' : Continuation}
  {result : EpochResult}

lemma vuPairs_le_of_remaining (hstop : result.stop = .completed)
    (h : Remaining step epoch machine continuation final result) :
    continuation.total.vuPairs ≤ result.counters.vuPairs := by
  cases h with
  | idle _ _ hcontinues => exact (vuPairs_bounds _ hcontinues hstop).1
  | active _ _ _ _ _ _ _ _ run _ _ hcontinues =>
    have := (vuPairs_bounds _ hcontinues hstop).1
    simp only [EpochCounters.add] at this
    omega

/-- What a submission gets to in so many turns and pairs, from a continuation
with a completing rest. -/
inductive Progress (step : PairStep P R) (epoch : EpochView P) (final : EpochMachine R)
    (result : EpochResult) (turns pairs : ℕ) (continuation : Continuation)
    (machine' : EpochMachine R) (continuation' : Continuation) (stop : EpochStop) : Prop
  | completed (stop_eq : stop = .completed) (machine_eq : machine' = final)
      (total_eq : continuation'.total = result.counters)
      (turns_le : turnsFrom epoch.commands continuation ≤ turns)
  | paused (stop_eq : stop = .submissionLimitReached)
      (remaining : Remaining step epoch machine' continuation' final result)
      (turns_le : turnsFrom epoch.commands continuation' ≤ turnsFrom epoch.commands continuation)
      (pairs_eq : continuation'.total.vuPairs = continuation.total.vuPairs + pairs)
  | outOfTurns (stop_eq : stop = .commandLimitReached)
      (turns_lt : turns < turnsFrom epoch.commands continuation)

/-- A turn of the loop that goes on. -/
lemma Progress.of_turn {turns pairs pairsNext : ℕ} {next : Continuation} {stop : EpochStop}
    (hturns : turnsFrom epoch.commands continuation = turnsFrom epoch.commands next + 1)
    (hpairs : next.total.vuPairs + pairsNext = continuation.total.vuPairs + pairs)
    (h : Progress step epoch final result turns pairsNext next machine' continuation' stop) :
    Progress step epoch final result (turns + 1) pairs continuation machine' continuation'
      stop := by
  cases h with
  | completed hstop hmachine htotal hle => exact .completed hstop hmachine htotal (by omega)
  | paused hstop hremaining hle hpairs' => exact .paused hstop hremaining (by omega) (by omega)
  | outOfTurns hstop hlt => exact .outOfTurns hstop (by omega)

/-- The loop of a submission makes progress in so many turns. -/
def LoopProgress (step : PairStep P R) (epoch : EpochView P) (final : EpochMachine R)
    (result : EpochResult) (turns : ℕ) : Prop :=
  ∀ (machine : EpochMachine R) (continuation : Continuation) (pairs : ℕ) (sofar : EpochResult)
    (machine' : EpochMachine R) (continuation' : Continuation) (outcome : EpochResult),
    Remaining step epoch machine continuation final result →
    continueCommands step epoch turns machine continuation pairs sofar =
      (machine', continuation', outcome) →
    Progress step epoch final result turns pairs continuation machine' continuation' outcome.stop

lemma progress_idle {turns pairs : ℕ} {sofar outcome : EpochResult}
    (hstop : result.stop = .completed) (ih : LoopProgress step epoch final result turns)
    (hopen : continuation.completed = false) (hinactive : continuation.executeActive = false)
    (hcontinues : executeCommands step epoch (epoch.commands.drop continuation.commandCursor)
      continuation.commandCursor machine continuation.total = (final, result))
    (hloop : continueCommands step epoch (turns + 1) machine continuation pairs sofar =
      (machine', continuation', outcome)) :
    Progress step epoch final result (turns + 1) pairs continuation machine' continuation'
      outcome.stop := by
  have hremaining := Remaining.idle hopen hinactive hcontinues
  rcases hdrop : epoch.commands.drop continuation.commandCursor with _ | ⟨command, rest⟩
  · rw [hdrop, executeCommands, Prod.mk.injEq] at hcontinues
    obtain ⟨-, rfl⟩ := hcontinues
    cases hstop
  obtain ⟨hcommand, hrest⟩ := drop_eq_cons hdrop
  have hturns : turnsFrom epoch.commands continuation = epochTurns (command :: rest) := by
    rw [turnsFrom_idle hinactive, hdrop]
  rw [hdrop] at hcontinues
  rw [continueCommands] at hloop
  simp only [hcommand, hinactive, Bool.false_eq_true, if_false] at hloop
  cases completingStep hcontinues hstop with
  | finish hkind hvalid hmachine hcounters =>
    rw [if_pos hkind, if_pos hvalid] at hloop
    obtain ⟨rfl, rfl, rfl⟩ := hloop
    refine .completed rfl hmachine hcounters ?_
    rw [hturns, epochTurns, if_pos hkind]
    omega
  | unpack hkind unpacked vectors hunpacked hnext =>
    rw [if_neg (by rw [hkind]; decide), if_pos hkind] at hloop
    simp only [hunpacked] at hloop
    refine .of_turn ?_ ?_ (ih _ _ _ _ _ _ _ ?_ hloop)
    rotate_left
    · rfl
    · refine .idle hopen rfl ?_
      rw [hrest]
      exact hnext
    rw [hturns, epochTurns, if_neg (by rw [hkind]; decide), if_neg (by rw [hkind]; decide),
      turnsFrom_idle rfl, hrest]
  | execute hkind program vu run haccepted hvalid hran hfinished hnext =>
    rw [if_neg (by rw [hkind]; decide), if_neg (by rw [hkind]; decide), if_pos hkind] at hloop
    simp only [haccepted, if_neg (not_not_intro hvalid)] at hloop
    by_cases hpairs : pairs = 0
    · rw [if_pos hpairs] at hloop
      obtain ⟨rfl, rfl, rfl⟩ := hloop
      exact .paused rfl hremaining le_rfl (by omega)
    · rw [if_neg hpairs] at hloop
      refine .of_turn ?_ ?_ (ih _ _ _ _ _ _ _ ?_ hloop)
      rotate_left
      · rfl
      · refine .active hopen rfl command hcommand hkind program haccepted vu run hran hfinished ?_
        rw [hrest]
        exact hnext
      rw [hturns, epochTurns, if_neg (by rw [hkind]; decide), if_pos hkind,
        turnsFrom_active rfl, hrest]

lemma progress_active {turns pairs : ℕ} {sofar outcome : EpochResult}
    (ih : LoopProgress step epoch final result turns)
    (hopen : continuation.completed = false) (hactive : continuation.executeActive = true)
    {command : EpochMicroOp} {program : P} {vu : VuRegs (BitVec 32) R} {run : RunResult}
    (hcommand : epoch.commands[continuation.commandCursor]? = some command)
    (hkind : command.kind = kindExecuteVu1)
    (haccepted : executeProgramOf epoch command = .ok program)
    (hran : executeProgram step machine.vu program continuation.activePairsRemaining
      (command.arguments 4) = (vu, run))
    (hfinished : run.result = .programFinished)
    (hcontinues : executeCommands step epoch
      (epoch.commands.drop (continuation.commandCursor + 1)) (continuation.commandCursor + 1)
      { machine with vu := vu } (continuation.total.add 1 0 run.executedPairs) = (final, result))
    (hloop : continueCommands step epoch (turns + 1) machine continuation pairs sofar =
      (machine', continuation', outcome)) :
    Progress step epoch final result (turns + 1) pairs continuation machine' continuation'
      outcome.stop := by
  have hremaining := Remaining.active hopen hactive command hcommand hkind program haccepted vu
    run hran hfinished hcontinues
  have hturns := @turnsFrom_active epoch.commands _ hactive
  obtain ⟨-, -, hbound, -⟩ := run_of_finished hran hfinished
  rw [continueCommands] at hloop
  simp only [hcommand, hactive, if_true, haccepted] at hloop
  by_cases hpairs : pairs = 0
  · rw [if_pos hpairs] at hloop
    obtain ⟨rfl, rfl, rfl⟩ := hloop
    exact .paused rfl hremaining le_rfl (by omega)
  rw [if_neg hpairs] at hloop
  have hcutPos : 0 < min pairs continuation.activePairsRemaining := by omega
  rcases executeProgram_cut hran hfinished hcutPos (Nat.min_le_right _ _) with ⟨hcut, hexecuted⟩ |
      ⟨vuCut, runCut, runRest, hcut, hlimit, hall, hless, hrest, hfinishedRest, hsum⟩
  · -- the program finishes in this submission
    simp only [hcut, hfinished, if_true] at hloop
    have hnext : Remaining step epoch { machine with vu := vu }
        { commandCursor := continuation.commandCursor + 1
          activePairsRemaining := 0
          total := (continuation.total.add 0 0 run.executedPairs).add 1 0 0
          executeActive := false
          completed := continuation.completed } final result :=
      .idle hopen rfl hcontinues
    by_cases hleft : pairs - run.executedPairs = 0
    · rw [if_pos hleft] at hloop
      obtain ⟨rfl, rfl, rfl⟩ := hloop
      refine .paused rfl hnext ?_ ?_
      · rw [hturns, turnsFrom_idle rfl]
        exact Nat.le_succ _
      · simp only [EpochCounters.add]
        omega
    · rw [if_neg hleft] at hloop
      refine .of_turn ?_ ?_ (ih _ _ _ _ _ _ _ hnext hloop)
      · rw [hturns, turnsFrom_idle rfl]
      · simp only [EpochCounters.add]
        omega
  · -- the submission ends inside of the program
    simp only [hcut, hlimit, hall, reduceCtorEq, if_false, if_true] at hloop
    obtain ⟨rfl, rfl, rfl⟩ := hloop
    have hcutPairs : min pairs continuation.activePairsRemaining = pairs := by omega
    refine .paused ?_ (.active hopen rfl command hcommand hkind program haccepted vu runRest
      hrest hfinishedRest ?_) ?_ ?_
    · rw [if_neg (by omega)]
    · rw [hsum] at hcontinues
      simpa only [EpochCounters.add, Nat.add_assoc, Nat.add_zero, Nat.zero_add] using hcontinues
    · rw [hturns, turnsFrom_active rfl]
    · simp only [EpochCounters.add, hcutPairs]

lemma loopProgress (hstop : result.stop = .completed) (turns : ℕ) :
    LoopProgress step epoch final result turns := by
  induction turns with
  | zero =>
    intro machine continuation pairs sofar machine' continuation' outcome h hloop
    rw [continueCommands] at hloop
    obtain ⟨rfl, rfl, rfl⟩ := hloop
    refine .outOfTurns rfl ?_
    rw [turnsFrom]
    split
    · omega
    · exact epochTurns_pos _
  | succ turns ih =>
    intro machine continuation pairs sofar machine' continuation' outcome h hloop
    cases h with
    | idle hopen hinactive hcontinues =>
      exact progress_idle hstop ih hopen hinactive hcontinues hloop
    | active hopen hactive command hcommand hkind program haccepted vu run hran hfinished
        hcontinues =>
      exact progress_active ih hopen hactive hcommand hkind haccepted hran hfinished
        hcontinues hloop

/-! ### All submissions of an epoch -/

/-- The checks on an epoch that both interpreters make. -/
def ValidEpoch (epoch : EpochView P) : Prop :=
  epoch.commands.length ≠ 0 ∧ epoch.commands.length ≤ maximumCommands ∧
    epoch.formatVersion = formatVersion

/-- A one-shot run that completes is what remains at the empty continuation. -/
lemma remaining_of_completed
    (h : executeUniversalCommandEpochReference step epoch machine = (final, result))
    (hstop : result.stop = .completed) :
    ValidEpoch epoch ∧ Remaining step epoch machine {} final result := by
  rw [executeUniversalCommandEpochReference] at h
  split at h
  · rw [Prod.mk.injEq] at h
    obtain ⟨-, rfl⟩ := h
    cases hstop
  · rename_i hchecks
    simp only [not_or, not_not, Nat.not_lt] at hchecks
    exact ⟨hchecks, .idle rfl rfl h⟩

lemma validContinuation_of_remaining {limit : ℕ} (hvalid : ValidEpoch epoch) (hlimit : 0 < limit)
    (hstop : result.stop = .completed)
    (h : Remaining step epoch machine continuation final result) :
    validContinuation epoch continuation limit = true ∧ continuation.completed = false := by
  obtain ⟨hlength, hmaximum, hversion⟩ := hvalid
  have hne : limit ≠ 0 := by omega
  cases h with
  | idle hopen hinactive hcontinues =>
    have hcursor : continuation.commandCursor ≤ epoch.commands.length := by
      by_contra hpast
      rw [List.drop_eq_nil_of_le (by omega), executeCommands, Prod.mk.injEq] at hcontinues
      obtain ⟨-, rfl⟩ := hcontinues
      cases hstop
    refine ⟨?_, hopen⟩
    simp [validContinuation, hlength, hmaximum, hversion, hne, hcursor, hinactive]
  | active hopen hactive command hcommand hkind program haccepted vu run hran hfinished _ =>
    obtain ⟨-, -, hpos, -⟩ := run_of_finished hran hfinished
    have hcursor : continuation.commandCursor < epoch.commands.length :=
      (List.getElem?_eq_some_iff.1 hcommand).1
    have hremaining : continuation.activePairsRemaining ≠ 0 := by omega
    refine ⟨?_, hopen⟩
    simp [validContinuation, hlength, hmaximum, hversion, hne, hcursor.le, hopen, hcommand,
      hkind, hremaining]

/-- One submission. -/
lemma progress_continue {limit : ℕ} {outcome : EpochResult} (hvalid : ValidEpoch epoch)
    (hlimit : 0 < limit) (hstop : result.stop = .completed)
    (h : Remaining step epoch machine continuation final result)
    (hcall : continueUniversalCommandEpochReference step epoch machine continuation limit =
      (machine', continuation', outcome)) :
    Progress step epoch final result (maximumCommands + 1) limit continuation machine'
      continuation' outcome.stop := by
  obtain ⟨hchecks, hopen⟩ := validContinuation_of_remaining hvalid hlimit hstop h
  rw [continueUniversalCommandEpochReference, if_neg (not_not_intro hchecks),
    if_neg (by simp [hopen])] at hcall
  exact loopProgress hstop _ _ _ _ _ _ _ _ h hcall

/-- The submissions with the given limits end in the machine and the counters of
the one-shot run. -/
def SubmissionsAgree (step : PairStep P R) (epoch : EpochView P) (machine : EpochMachine R)
    (limits : ℕ → ℕ) (final : EpochMachine R) (counters : EpochCounters) : Prop :=
  ∃ calls continuation,
    runSubmissions step epoch machine limits calls = (final, continuation, .completed) ∧
      continuation.total = counters

variable {limits : ℕ → ℕ}

lemma runSubmissions_succ {calls : ℕ} {stop : EpochStop}
    (h : runSubmissions step epoch machine limits calls = (machine', continuation, stop))
    (hstop : stop ≠ .submissionLimitReached) :
    runSubmissions step epoch machine limits (calls + 1) = (machine', continuation, stop) := by
  rw [runSubmissions, h]
  cases stop <;> first | rfl | exact absurd rfl hstop

/-- Submissions that have ended have ended for good. -/
lemma not_submissionsAgree_of_stop {counters : EpochCounters} {outcome : EpochResult}
    (hcall : continueUniversalCommandEpochReference step epoch machine {} (limits 0) =
      (machine', continuation, outcome))
    (hlimit : outcome.stop ≠ .submissionLimitReached) (hcompleted : outcome.stop ≠ .completed) :
    ¬ SubmissionsAgree step epoch machine limits final counters := by
  have hended : ∀ calls, runSubmissions step epoch machine limits (calls + 1) =
      (machine', continuation, outcome.stop) := by
    intro calls
    induction calls with
    | zero => simp only [runSubmissions, hcall]
    | succ calls ih => exact runSubmissions_succ ih hlimit
  rintro ⟨calls, last, hruns, -⟩
  cases calls with
  | zero => cases hruns
  | succ calls =>
    rw [hended, Prod.mk.injEq, Prod.mk.injEq] at hruns
    exact hcompleted hruns.2.2

/-- After each number of submissions the run has either completed or executed at
least one pair for each. -/
lemma runSubmissions_progress (hvalid : ValidEpoch epoch) (hlimits : ∀ i, 0 < limits i)
    (hstop : result.stop = .completed) (h : Remaining step epoch machine {} final result)
    (hturns : epochTurns epoch.commands ≤ maximumCommands + 1) (calls : ℕ) :
    ∀ {machine' : EpochMachine R} {continuation : Continuation} {stop : EpochStop},
      runSubmissions step epoch machine limits calls = (machine', continuation, stop) →
      (stop = .completed ∧ machine' = final ∧ continuation.total = result.counters) ∨
        (stop = .submissionLimitReached ∧
          Remaining step epoch machine' continuation final result ∧
          turnsFrom epoch.commands continuation ≤ maximumCommands + 1 ∧
          calls ≤ continuation.total.vuPairs) := by
  induction calls with
  | zero =>
    rintro machine' continuation stop ⟨⟩
    exact .inr ⟨rfl, h, hturns, Nat.zero_le _⟩
  | succ calls ih =>
    intro machine' continuation stop hruns
    rcases hbefore : runSubmissions step epoch machine limits calls with
      ⟨machineBefore, before, stopBefore⟩
    rcases ih hbefore with ⟨rfl, rfl, htotal⟩ | ⟨rfl, hremaining, hle, hcalls⟩
    · rw [runSubmissions_succ hbefore (by decide)] at hruns
      obtain ⟨rfl, rfl, rfl⟩ := hruns
      exact .inl ⟨rfl, rfl, htotal⟩
    · rcases hcall : continueUniversalCommandEpochReference step epoch machineBefore before
        (limits calls) with ⟨machineAfter, after, outcome⟩
      have hlimit := hlimits calls
      have hprogress := progress_continue hvalid hlimit hstop hremaining hcall
      simp only [runSubmissions, hbefore, hcall] at hruns
      obtain ⟨rfl, rfl, rfl⟩ := hruns
      cases hprogress with
      | completed hcompleted hmachine htotal _ => exact .inl ⟨hcompleted, hmachine, htotal⟩
      | paused hpaused hnext hless hpairs =>
        exact .inr ⟨hpaused, hnext, by omega, by omega⟩
      | outOfTurns _ hlt => omega

lemma submissionsAgree_of_turns (hvalid : ValidEpoch epoch) (hlimits : ∀ i, 0 < limits i)
    (hstop : result.stop = .completed) (h : Remaining step epoch machine {} final result)
    (hturns : epochTurns epoch.commands ≤ maximumCommands + 1) :
    SubmissionsAgree step epoch machine limits final result.counters := by
  rcases hruns : runSubmissions step epoch machine limits (result.counters.vuPairs + 1) with
    ⟨machine', continuation, stop⟩
  rcases runSubmissions_progress hvalid hlimits hstop h hturns _ hruns with
    ⟨rfl, rfl, htotal⟩ | ⟨-, hremaining, -, hcalls⟩
  · exact ⟨_, _, hruns, htotal⟩
  · have := vuPairs_le_of_remaining hstop hremaining
    omega

/-- A submission without an effective limit runs out of turns. -/
lemma not_submissionsAgree_of_turns (hvalid : ValidEpoch epoch)
    (hlimit : maximumPairsPerExecute * maximumCommands < limits 0)
    (hstop : result.stop = .completed) (h : Remaining step epoch machine {} final result)
    (hturns : maximumCommands + 1 < epochTurns epoch.commands) :
    ¬ SubmissionsAgree step epoch machine limits final result.counters := by
  rcases hcall : continueUniversalCommandEpochReference step epoch machine {} (limits 0) with
    ⟨machine', continuation, outcome⟩
  cases progress_continue hvalid (by omega) hstop h hcall with
  | completed _ _ _ hle =>
    rw [turnsFrom_idle rfl] at hle
    simp only [List.drop_zero] at hle
    omega
  | paused _ hremaining _ hpairs =>
    exfalso
    have hle := vuPairs_le_of_remaining hstop hremaining
    have hall : result.counters.vuPairs ≤ 0 + maximumPairsPerExecute * epoch.commands.length := by
      cases h with
      | idle _ _ hcontinues => exact (vuPairs_bounds _ hcontinues hstop).2
      | active _ hactive => cases hactive
    have hmul := Nat.mul_le_mul_left maximumPairsPerExecute hvalid.2.1
    simp only [Nat.zero_add] at hpairs
    omega
  | outOfTurns hstopped _ =>
    exact not_submissionsAgree_of_stop hcall (by simp [hstopped]) (by simp [hstopped])

end Submission

/-- Submissions with any limits end in the machine and the counters of a
one-shot run that completes exactly if the loop has the turns for a submission
of the whole epoch. -/
theorem submissionsAgree_iff (step : PairStep P R) (epoch : EpochView P)
    (machine final : EpochMachine R) (result : EpochResult)
    (hrun : executeUniversalCommandEpochReference step epoch machine = (final, result))
    (hstop : result.stop = .completed) :
    (∀ limits : ℕ → ℕ, (∀ i, 0 < limits i ∧ limits i < 2 ^ 32) →
      SubmissionsAgree step epoch machine limits final result.counters) ↔
      epochTurns epoch.commands ≤ maximumCommands + 1 := by
  obtain ⟨hvalid, hremaining⟩ := remaining_of_completed hrun hstop
  constructor
  · intro hagree
    by_contra hturns
    refine not_submissionsAgree_of_turns hvalid ?_ hstop hremaining (Nat.not_le.1 hturns)
      (hagree (fun _ => 2 ^ 32 - 1) fun _ => by decide)
    decide
  · intro hturns limits hlimits
    exact submissionsAgree_of_turns hvalid (fun i => (hlimits i).1) hstop hremaining hturns

/-! ### Epochs of Execute commands -/

/-- A pair step whose every program is one pair long. -/
def onePairStep : PairStep Unit Unit := fun _ _ vu => (vu, .programFinished)

def executeCommand : EpochMicroOp where
  kind := kindExecuteVu1
  arguments := ![0, 0, 1, 0, 0, 0]

/-- An epoch of Execute commands for a single program. -/
def executesEpoch (count : ℕ) : EpochView Unit where
  commands := List.replicate count executeCommand ++ [{}]
  programs := [some ()]

def initialMachine : EpochMachine Unit where
  vu :=
    { tpc := 0
      memory := fun _ => 0
      vifRegs := ⟨0, 0⟩
      threadVifRegs := ⟨0, 0⟩
      onThread := false
      rest := () }
  state := {}

theorem submissionsAgree_executes :
    (∀ limits : ℕ → ℕ, (∀ i, 0 < limits i ∧ limits i < 2 ^ 32) →
      SubmissionsAgree onePairStep (executesEpoch 2) initialMachine limits
        (executeUniversalCommandEpochReference onePairStep (executesEpoch 2) initialMachine).1
        { commandsExecuted := 2, vuPairs := 2 }) ↔
      epochTurns (executesEpoch 2).commands ≤ maximumCommands + 1 :=
  submissionsAgree_iff onePairStep (executesEpoch 2) initialMachine _
    { stop := .completed, stopCommand := 2, counters := { commandsExecuted := 2, vuPairs := 2 } }
    rfl rfl

/-- 33 Execute commands complete in one go, but not in submissions of 100 pairs. -/
theorem not_submissionsAgree_executes :
    (executesEpoch 33).commands.length ≤ maximumCommands ∧
      (executeUniversalCommandEpochReference onePairStep (executesEpoch 33)
        initialMachine).2.stop = .completed ∧
      ¬ SubmissionsAgree onePairStep (executesEpoch 33) initialMachine (fun _ => 100)
        (executeUniversalCommandEpochReference onePairStep (executesEpoch 33) initialMachine).1
        (executeUniversalCommandEpochReference onePairStep (executesEpoch 33)
          initialMachine).2.counters := by
  refine ⟨by decide, by decide +kernel, ?_⟩
  have hstop : (continueUniversalCommandEpochReference onePairStep (executesEpoch 33)
      initialMachine {} 100).2.2.stop = .commandLimitReached := by decide +kernel
  rcases hcall : continueUniversalCommandEpochReference onePairStep (executesEpoch 33)
    initialMachine {} 100 with ⟨machine', continuation, outcome⟩
  rw [hcall] at hstop
  have hstopped : outcome.stop = .commandLimitReached := hstop
  exact not_submissionsAgree_of_stop hcall (by simp [hstopped]) (by simp [hstopped])

end VitaSX2.Vu
