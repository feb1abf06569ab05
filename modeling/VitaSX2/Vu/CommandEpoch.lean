/-
The two interpreters of VU command epochs (`VitaGpuVuCommandEpoch.cpp`).

`executeUniversalCommandEpochReference` runs an epoch in one go.
`continueUniversalCommandEpochReference` runs it in submissions that execute a
bounded number of VU pairs each, and keeps a continuation in between.

The VU pair step is a parameter.  Outside of a program run the TPC register is a
pair index; while pairs execute it is a byte address, which is a multiple of the
pair size at every pair boundary.
-/
import VitaSX2.Lib.BoundedRun
import VitaSX2.Vu.Unpack

namespace VitaSX2.Vu

/-! ### VU state and program runs -/

/-- The byte address of a pair of the micro memory. -/
structure PairAddress where
  byte : BitVec 32
  aligned : byte.toNat % 8 = 0

/-- The TOP and ITOP registers that `XTOP` and `XITOP` read. -/
structure VifRegisters where
  top : ℕ
  itop : ℕ

/-- The registers of a VU, with the TPC register of type `T` and everything the
interpreters do not name in `rest`. -/
structure VuRegs (T R : Type*) where
  tpc : T
  memory : ℕ → BitVec 8
  vifRegs : VifRegisters
  /-- `vu1Thread.vifRegs`, which is kept in step when VU1 runs on its own thread. -/
  threadVifRegs : VifRegisters
  onThread : Bool
  rest : R

inductive StepResult
  | pairCompleted
  | programFinished
  | dbitObserver
  | tbitObserver
  | pairLimitReached
  | invalidEncoding
deriving DecidableEq, Repr

/-- A VU pair step, for a program and the value of FBRST. -/
abbrev PairStep (P R : Type*) :=
  P → BitVec 32 → VuRegs PairAddress R → VuRegs PairAddress R × StepResult

structure RunResult where
  result : StepResult := .invalidEncoding
  executedPairs : ℕ := 0
  stopPc : BitVec 32 := 0

/-- `VU1_PROGMASK`. -/
def vu1ProgMask : BitVec 32 := 0x3fff

section Run

variable {P R : Type*}

lemma aligned_shiftLeft (index : BitVec 32) : (index <<< 3).toNat % 8 = 0 := by
  rw [BitVec.toNat_shiftLeft, Nat.shiftLeft_eq]
  omega

def enterProvider (vu : VuRegs (BitVec 32) R) : VuRegs PairAddress R :=
  { vu with tpc := ⟨vu.tpc <<< 3, aligned_shiftLeft vu.tpc⟩ }

def leaveProvider (vu : VuRegs PairAddress R) : VuRegs (BitVec 32) R :=
  { vu with tpc := vu.tpc.byte >>> 3 }

/-- Leaving and entering again finds the pair at which the run was cut. -/
@[simp] lemma enterProvider_leaveProvider (vu : VuRegs PairAddress R) :
    enterProvider (leaveProvider vu) = vu := by
  obtain ⟨⟨byte, haligned⟩, memory, vifRegs, threadVifRegs, onThread, rest⟩ := vu
  have hbyte : byte >>> 3 <<< 3 = byte := by
    apply BitVec.eq_of_toNat_eq
    rw [BitVec.toNat_shiftLeft, BitVec.toNat_ushiftRight, Nat.shiftLeft_eq,
      Nat.shiftRight_eq_div_pow]
    have := byte.isLt
    omega
  simp only [enterProvider, leaveProvider, hbyte]

/-- A pair step, seen as a step that goes on or reports a result. -/
def boundedStep (step : PairStep P R) (program : P) (fbrst : BitVec 32)
    (vu : VuRegs PairAddress R) : VuRegs PairAddress R × Option StepResult :=
  match step program fbrst vu with
  | (vu', .pairCompleted) => (vu', none)
  | (vu', result) => (vu', some result)

/-- The result of a program run; the pair that finishes the program counts. -/
def closeRun :
    VuRegs PairAddress R × ℕ × Option StepResult → VuRegs (BitVec 32) R × RunResult
  | (running, pairs, some result) =>
    (leaveProvider running,
      { result := result
        executedPairs := if result = .programFinished then pairs + 1 else pairs
        stopPc := running.tpc.byte &&& vu1ProgMask })
  | (running, pairs, none) =>
    (leaveProvider running,
      { result := .pairLimitReached
        executedPairs := pairs
        stopPc := running.tpc.byte &&& vu1ProgMask })

/-- `ExecuteUniversalReferenceProgramWithFbrst`. -/
def executeProgram (step : PairStep P R) (vu : VuRegs (BitVec 32) R) (program : P)
    (maximumPairs : ℕ) (fbrst : BitVec 32) : VuRegs (BitVec 32) R × RunResult :=
  if maximumPairs = 0 then (vu, { stopPc := vu.tpc &&& vu1ProgMask })
  else closeRun (BoundedRun.run (boundedStep step program fbrst) maximumPairs (enterProvider vu))

end Run

/-! ### Epochs -/

/-- `UniversalCommandEpochView`, with null programs as `none`. -/
structure EpochView (P : Type*) where
  formatVersion : BitVec 32 := 1
  commands : List EpochMicroOp
  payload : Option Payload := none
  programs : List (Option P) := []

inductive EpochStop
  | completed
  | submissionLimitReached
  | commandLimitReached
  | invalidFormat
  | invalidCommand
  | payloadOutOfRange
  | programOutOfRange
  | vuObserver
  | vuPairLimitReached
  | vuInvalidEncoding
  | path1Rejected
deriving DecidableEq, Repr

structure EpochCounters where
  commandsExecuted : ℕ := 0
  unpackVectors : ℕ := 0
  vuPairs : ℕ := 0
deriving DecidableEq, Repr

structure EpochResult where
  stop : EpochStop := .invalidFormat
  stopCommand : ℕ := 0
  counters : EpochCounters := {}

/-- The VU generation and the epoch state that the commands work on. -/
structure EpochMachine (R : Type*) where
  vu : VuRegs (BitVec 32) R
  state : EpochState

def formatVersion : BitVec 32 := 1
def maximumCommands : ℕ := 64
def maximumPairsPerExecute : ℕ := 16384

def mapVuStop : StepResult → EpochStop
  | .programFinished => .completed
  | .dbitObserver => .vuObserver
  | .tbitObserver => .vuObserver
  | .pairLimitReached => .vuPairLimitReached
  | .invalidEncoding => .vuInvalidEncoding
  | .pairCompleted => .vuInvalidEncoding

section Commands

variable {P R : Type*}

def validEnd (command : EpochMicroOp) : Bool :=
  command.control == 0 && (List.finRange 6).all fun index => command.arguments index == 0

/-- The VifUnpack case of both interpreters; the result counts the vectors. -/
def runUnpack (epoch : EpochView P) (command : EpochMicroOp) (machine : EpochMachine R) :
    Except EpochStop (EpochMachine R × ℕ) :=
  match decodeVifCommand command with
  | none => .error .invalidCommand
  | some decoded =>
    match decoded.requiredPayloadBytes with
    | none => .error .invalidCommand
    | some requiredBytes =>
      match epoch.payload with
      | none => .error .payloadOutOfRange
      | some payload =>
        if decoded.sourceSize < requiredBytes ∨ decoded.payloadOffset > payload.size ∨
            decoded.sourceSize > payload.size - decoded.payloadOffset then
          .error .payloadOutOfRange
        else
          match executeVifUnpack decoded epoch.payload machine.vu.memory machine.state with
          | none => .error .invalidCommand
          | some (memory, state) =>
            .ok ({ vu := { machine.vu with memory := memory }, state := state },
              decoded.vectorCount)

/-- The checks on the pair bound and the program of an Execute command. -/
def executeProgramOf (epoch : EpochView P) (command : EpochMicroOp) : Except EpochStop P :=
  if command.control &&& ~~~ 1 ≠ 0 ∨ command.arguments 5 ≠ 0 ∨ command.arguments 2 = 0 ∨
      (command.arguments 2).toNat > maximumPairsPerExecute then .error .invalidCommand
  else
    match epoch.programs[(command.arguments 0).toNat]? with
    | some (some program) => .ok program
    | _ => .error .programOutOfRange

def isResume (command : EpochMicroOp) : Bool := command.control.getLsbD 0

/-- The check on the start of an Execute command. -/
def validStart (command : EpochMicroOp) : Bool :=
  if isResume command then command.arguments 1 == 0
  else command.arguments 1 &&& 7 == 0 && decide (command.arguments 1 ≤ vu1ProgMask)

/-- The registers that an accepted Execute command sets before its first pair. -/
def beginExecute (command : EpochMicroOp) (machine : EpochMachine R) : EpochMachine R :=
  let top := lowHalf (command.arguments 3)
  let itop := highHalf (command.arguments 3)
  let vu := machine.vu
  { state := { machine.state with vifTop := top, vifItop := itop }
    vu :=
      { vu with
        vifRegs := ⟨top, itop⟩
        threadVifRegs := if vu.onThread then ⟨top, itop⟩ else vu.threadVifRegs
        tpc := if isResume command then vu.tpc else command.arguments 1 >>> 3 } }

/-! ### The one-shot interpreter -/

/-- The loop over the commands from `index` on. -/
def executeCommands (step : PairStep P R) (epoch : EpochView P) :
    List EpochMicroOp → ℕ → EpochMachine R → EpochCounters → EpochMachine R × EpochResult
  | [], index, machine, counters => (machine, ⟨.commandLimitReached, index, counters⟩)
  | command :: rest, index, machine, counters =>
    if command.kind = kindEnd then
      (machine, ⟨if validEnd command then .completed else .invalidCommand, index, counters⟩)
    else if command.kind = kindVifUnpack then
      match runUnpack epoch command machine with
      | .error stop => (machine, ⟨stop, index, counters⟩)
      | .ok (machine', vectors) =>
        executeCommands step epoch rest (index + 1) machine'
          { counters with
            unpackVectors := counters.unpackVectors + vectors
            commandsExecuted := counters.commandsExecuted + 1 }
    else if command.kind = kindExecuteVu1 then
      match executeProgramOf epoch command with
      | .error stop => (machine, ⟨stop, index, counters⟩)
      | .ok program =>
        if ¬ validStart command then (machine, ⟨.invalidCommand, index, counters⟩)
        else
          let started := beginExecute command machine
          let (vu, run) := executeProgram step started.vu program (command.arguments 2).toNat
            (command.arguments 4)
          let counters := { counters with vuPairs := counters.vuPairs + run.executedPairs }
          if run.result ≠ .programFinished then
            ({ started with vu := vu }, ⟨mapVuStop run.result, index, counters⟩)
          else
            executeCommands step epoch rest (index + 1) { started with vu := vu }
              { counters with commandsExecuted := counters.commandsExecuted + 1 }
    else (machine, ⟨.invalidCommand, index, counters⟩)

def executeUniversalCommandEpochReference (step : PairStep P R) (epoch : EpochView P)
    (machine : EpochMachine R) : EpochMachine R × EpochResult :=
  if epoch.commands.length = 0 ∨ epoch.commands.length > maximumCommands ∨
      epoch.formatVersion ≠ formatVersion then (machine, {})
  else executeCommands step epoch epoch.commands 0 machine {}

/-! ### The resumable interpreter -/

/-- `UniversalCommandEpochContinuationState`. -/
structure Continuation where
  commandCursor : ℕ := 0
  activePairsRemaining : ℕ := 0
  total : EpochCounters := {}
  executeActive : Bool := false
  completed : Bool := false

/-- The counters after a unit of work. -/
def EpochCounters.add (counters : EpochCounters) (commands vectors pairs : ℕ) : EpochCounters where
  commandsExecuted := counters.commandsExecuted + commands
  unpackVectors := counters.unpackVectors + vectors
  vuPairs := counters.vuPairs + pairs

/-- The guarded loop of a submission: `turns` are left, and `pairs` may still be
executed. -/
def continueCommands (step : PairStep P R) (epoch : EpochView P) :
    ℕ → EpochMachine R → Continuation → ℕ → EpochResult →
      EpochMachine R × Continuation × EpochResult
  | 0, machine, continuation, _, result =>
    (machine, continuation, { result with stop := .commandLimitReached })
  | turns + 1, machine, continuation, pairs, result =>
    let result := { result with stopCommand := continuation.commandCursor }
    match epoch.commands[continuation.commandCursor]? with
    | none => (machine, continuation, { result with stop := .commandLimitReached })
    | some command =>
      if continuation.executeActive then
        match executeProgramOf epoch command with
        | .error stop => (machine, continuation, { result with stop := stop })
        | .ok program =>
          if pairs = 0 then
            (machine, continuation, { result with stop := .submissionLimitReached })
          else
            let (vu, run) := executeProgram step machine.vu program
              (min pairs continuation.activePairsRemaining) (command.arguments 4)
            let machine := { machine with vu := vu }
            let result := { result with counters := result.counters.add 0 0 run.executedPairs }
            let pairs := pairs - run.executedPairs
            let continuation :=
              { continuation with
                total := continuation.total.add 0 0 run.executedPairs
                activePairsRemaining := continuation.activePairsRemaining - run.executedPairs }
            if run.result = .programFinished then
              let continuation :=
                { continuation with
                  executeActive := false
                  activePairsRemaining := 0
                  commandCursor := continuation.commandCursor + 1
                  total := continuation.total.add 1 0 0 }
              let result := { result with counters := result.counters.add 1 0 0 }
              if pairs = 0 then
                (machine, continuation,
                  { result with
                    stop := .submissionLimitReached
                    stopCommand := continuation.commandCursor })
              else continueCommands step epoch turns machine continuation pairs result
            else if run.result = .pairLimitReached then
              (machine, continuation,
                { result with
                  stop :=
                    if continuation.activePairsRemaining = 0 then .vuPairLimitReached
                    else .submissionLimitReached })
            else (machine, continuation, { result with stop := mapVuStop run.result })
      else if command.kind = kindEnd then
        if validEnd command then
          (machine, { continuation with completed := true }, { result with stop := .completed })
        else (machine, continuation, { result with stop := .invalidCommand })
      else if command.kind = kindVifUnpack then
        match runUnpack epoch command machine with
        | .error stop => (machine, continuation, { result with stop := stop })
        | .ok (machine, vectors) =>
          continueCommands step epoch turns machine
            { continuation with
              total := continuation.total.add 1 vectors 0
              commandCursor := continuation.commandCursor + 1 }
            pairs { result with counters := result.counters.add 1 vectors 0 }
      else if command.kind = kindExecuteVu1 then
        match executeProgramOf epoch command with
        | .error stop => (machine, continuation, { result with stop := stop })
        | .ok _ =>
          if ¬ validStart command then
            (machine, continuation, { result with stop := .invalidCommand })
          else if pairs = 0 then
            (machine, continuation, { result with stop := .submissionLimitReached })
          else
            continueCommands step epoch turns (beginExecute command machine)
              { continuation with
                activePairsRemaining := (command.arguments 2).toNat
                executeActive := true }
              pairs result
      else (machine, continuation, { result with stop := .invalidCommand })

/-- The checks on the epoch and the continuation before a submission. -/
def validContinuation (epoch : EpochView P) (continuation : Continuation)
    (submissionPairLimit : ℕ) : Bool :=
  epoch.commands.length != 0 && epoch.commands.length ≤ maximumCommands &&
    epoch.formatVersion == formatVersion && submissionPairLimit != 0 &&
    continuation.commandCursor ≤ epoch.commands.length &&
    !(continuation.completed && continuation.executeActive) &&
    (!continuation.executeActive ||
      (continuation.activePairsRemaining != 0 &&
        epoch.commands[continuation.commandCursor]?.any fun command =>
          command.kind == kindExecuteVu1))

/-- One submission without PATH1 ownership. -/
def continueUniversalCommandEpochReference (step : PairStep P R) (epoch : EpochView P)
    (machine : EpochMachine R) (continuation : Continuation) (submissionPairLimit : ℕ) :
    EpochMachine R × Continuation × EpochResult :=
  if ¬ validContinuation epoch continuation submissionPairLimit then (machine, continuation, {})
  else if continuation.completed then
    (machine, continuation,
      { stop := .completed, stopCommand := continuation.commandCursor })
  else
    continueCommands step epoch (maximumCommands + 1) machine continuation submissionPairLimit
      { stopCommand := continuation.commandCursor }

/-- The submissions with the given limits from the empty continuation, repeated
while the last one stopped at its limit. -/
def runSubmissions (step : PairStep P R) (epoch : EpochView P) (machine : EpochMachine R)
    (limits : ℕ → ℕ) : ℕ → EpochMachine R × Continuation × EpochStop
  | 0 => (machine, {}, .submissionLimitReached)
  | calls + 1 =>
    match runSubmissions step epoch machine limits calls with
    | (machine', continuation, .submissionLimitReached) =>
      match continueUniversalCommandEpochReference step epoch machine' continuation
          (limits calls) with
      | (machine'', continuation', result) => (machine'', continuation', result.stop)
    | ended => ended

end Commands

end VitaSX2.Vu
