/-
The MTGS command ring and its PATH1 reservation runs (`VitaGsMailbox.cpp`).

The EE thread queues one reservation for every VU1 dispatch.  It extends the run
word of its open command by a compare and exchange, until the GS worker claims
the word; every other command closes the run first.  Each load, each exchange and
each store that another thread can see is one step.

A position is counted from the start and stands for its slot of the ring: a
command is only stored where there is room, so no slot is in use twice.
-/
import Mathlib.Algebra.Group.Nat.Defs
import Mathlib.Data.Nat.Notation
import Mathlib.Logic.Function.Basic

namespace VitaSX2.Path1

variable {κ : Type}

/-! ### Reservation runs -/

/-- A word of `s_mtvu_reservation_runs`: `MtvuReservationRunOpen` and the count. -/
structure Run where
  isOpen : Bool
  count : ℕ
deriving DecidableEq

/-- `MaximumMtvuReservationRun`. -/
def maximumReservationRun : ℕ := 256

/-- `RingBufferSize`. -/
def ringBufferSize : ℕ := 2 ^ 14

/-- A command of the ring; `κ` are those other than `MTVUGSPacket`. -/
inductive Command (κ : Type)
  | path1
  | other (command : κ)

/-- What the EE thread has queued: a reservation or another command. -/
inductive Item (κ : Type)
  | reservation
  | other (command : κ)

/-- Where the EE thread is. -/
inductive EePc (κ : Type)
  | idle
  /-- In `QueueMtvuPath1Reservation`. -/
  | reserve
  /-- The loop over the open run, with the word that it has loaded. -/
  | extend (slot : ℕ) (state : Run)
  /-- In `GenericStall`, for a new run. -/
  | stall
  /-- In `FinishSimplePacket`, for a new run. -/
  | finish
  /-- The loop of `CloseOpenMtvuReservationRun`, with the word that it has loaded. -/
  | close (slot : ℕ) (state : Run) (command : κ)
  /-- In `GenericStall`, for another command. -/
  | send (command : κ)
  /-- In `FinishSimplePacket`, for another command. -/
  | sent (command : κ)

structure Ring (κ : Type) where
  command : ℕ → Command κ
  run : ℕ → Run
  /-- `s_write_pos` and `s_read_pos`. -/
  write : ℕ
  read : ℕ
  /-- `s_open_mtvu_reservation_run`. -/
  openRun : Option ℕ
  ee : EePc κ
  /-- `s_mtvu_reservations_remaining`. -/
  remaining : ℕ
  /-- The worker has claimed the run at its head. -/
  owned : Bool
  /-- The dispatches that the EE thread has begun. -/
  dispatched : ℕ
  /-- What the EE thread has queued so far, and what the worker has done of it. -/
  issued : List (Item κ)
  executed : List (Item κ)

def Ring.empty : Ring κ where
  command _ := .path1
  run _ := ⟨false, 0⟩
  write := 0
  read := 0
  openRun := none
  ee := .idle
  remaining := 0
  owned := false
  dispatched := 0
  issued := []
  executed := []

namespace Ring

/-! ### The EE thread -/

/-- The test of the loop of `QueueMtvuPath1Reservation` on the word that it has loaded. -/
def test (r : Ring κ) (slot : ℕ) (state : Run) : Ring κ :=
  if state.isOpen = true ∧ state.count < maximumReservationRun then
    { r with ee := .extend slot state }
  else { r with openRun := none, ee := .stall }

/-- The test of the loop of `CloseOpenMtvuReservationRun`. -/
def testClose (r : Ring κ) (slot : ℕ) (state : Run) (command : κ) : Ring κ :=
  if state.isOpen = true then { r with ee := .close slot state command }
  else { r with openRun := none, ee := .send command }

/-- `GenericStall` lets one more command pass. -/
def HasRoom (r : Ring κ) : Prop := 1 < ringBufferSize - (r.write - r.read)

end Ring

/-- The EE thread: `QueueMtvuPath1Reservation` for a dispatch, and any other command. -/
inductive EeMove (r : Ring κ) : Ring κ → Prop
  /-- The record of a dispatch is visible to MTVU before its reservation is queued. -/
  | dispatch (h : r.ee = .idle) : EeMove r { r with ee := .reserve, dispatched := r.dispatched + 1 }
  | load {slot : ℕ} (h : r.ee = .reserve) (hslot : r.openRun = some slot) :
      EeMove r (r.test slot (r.run slot))
  | noRun (h : r.ee = .reserve) (hslot : r.openRun = none) : EeMove r { r with ee := .stall }
  | exchange {slot : ℕ} {state : Run} (h : r.ee = .extend slot state) (hstate : r.run slot = state) :
      EeMove r
        { r with
          run := Function.update r.run slot ⟨state.isOpen, state.count + 1⟩
          ee := .idle
          issued := r.issued ++ [.reservation] }
  /-- A weak exchange may also fail on its own. -/
  | failExchange {slot : ℕ} {state : Run} (h : r.ee = .extend slot state) :
      EeMove r (r.test slot (r.run slot))
  | store (h : r.ee = .stall) (hroom : r.HasRoom) :
      EeMove r
        { r with
          command := Function.update r.command r.write .path1
          run := Function.update r.run r.write ⟨true, 1⟩
          openRun := some r.write
          ee := .finish }
  | finish (h : r.ee = .finish) :
      EeMove r
        { r with
          write := r.write + 1
          ee := .idle
          issued := r.issued ++ [.reservation] }
  | loadClose {slot : ℕ} (h : r.ee = .idle) (hslot : r.openRun = some slot) (command : κ) :
      EeMove r (r.testClose slot (r.run slot) command)
  | noClose (h : r.ee = .idle) (hslot : r.openRun = none) (command : κ) :
      EeMove r { r with ee := .send command }
  | exchangeClose {slot : ℕ} {state : Run} {command : κ} (h : r.ee = .close slot state command)
      (hstate : r.run slot = state) :
      EeMove r
        { r with
          run := Function.update r.run slot ⟨false, state.count⟩
          openRun := none
          ee := .send command }
  | failClose {slot : ℕ} {state : Run} {command : κ} (h : r.ee = .close slot state command) :
      EeMove r (r.testClose slot (r.run slot) command)
  | write {command : κ} (h : r.ee = .send command) (hroom : r.HasRoom) :
      EeMove r
        { r with
          command := Function.update r.command r.write (.other command)
          ee := .sent command }
  | publish {command : κ} (h : r.ee = .sent command) :
      EeMove r
        { r with
          write := r.write + 1
          ee := .idle
          issued := r.issued ++ [.other command] }

namespace Ring

/-! ### The GS worker -/

/-- The worker claims the run at its head, unless it still has reservations of it. -/
def claim (r : Ring κ) : Ring κ :=
  if r.remaining = 0 then
    let claimed := (r.run r.read).count
    { r with
      run := Function.update r.run r.read ⟨false, 0⟩
      remaining := if claimed = 0 then 1 else claimed
      owned := true }
  else r

/-- Reservations are consumed. -/
def consume (r : Ring κ) (count : ℕ) : Ring κ :=
  { r with
    remaining := r.remaining - count
    executed := r.executed ++ List.replicate count .reservation }

/-- `ring_advance` after a reservation. -/
def advance (r : Ring κ) : Ring κ :=
  if r.remaining = 0 then { r with read := r.read + 1, owned := false } else r

/-- Another command is executed. -/
def execute (r : Ring κ) (command : κ) : Ring κ :=
  { r with read := r.read + 1, executed := r.executed ++ [.other command] }

/-! ### Accounts -/

/-- What a command in the ring stands for. -/
def itemsAt (r : Ring κ) (p : ℕ) : List (Item κ) :=
  match r.command p with
  | .path1 => List.replicate (r.run p).count .reservation
  | .other command => [.other command]

/-- What the commands from a position on stand for. -/
def itemsFrom (r : Ring κ) (p count : ℕ) : List (Item κ) :=
  (List.range' p count).flatMap r.itemsAt

/-- What the worker has not done yet. -/
def pending (r : Ring κ) : List (Item κ) :=
  List.replicate r.remaining .reservation ++ r.itemsFrom r.read (r.write - r.read)

/-- The words that the place of the EE thread relies on. -/
def PcOk (r : Ring κ) : Prop :=
  match r.ee with
  | .idle | .reserve => ∀ slot ∈ r.openRun, slot < r.write
  | .extend slot state =>
    r.openRun = some slot ∧ slot < r.write ∧ state.isOpen = true ∧
      state.count < maximumReservationRun
  | .stall | .send _ => r.openRun = none
  | .finish => r.openRun = some r.write ∧ r.command r.write = .path1 ∧ r.run r.write = ⟨true, 1⟩
  | .close slot state _ => r.openRun = some slot ∧ slot < r.write ∧ state.isOpen = true
  | .sent command => r.openRun = none ∧ r.command r.write = .other command

/-- The account of a ring, and what its run words say. -/
structure Ok (r : Ring κ) : Prop where
  le : r.read ≤ r.write
  items : r.issued = r.executed ++ r.pending
  /-- The run that the EE thread may extend is the last command. -/
  last : ∀ p ∈ r.openRun, p < r.write → (r.run p).isOpen = true →
    p + 1 = r.write ∧ r.read ≤ p ∧ r.command p = .path1
  pos : ∀ p, r.read ≤ p → p < r.write → r.command p = .path1 → (r.owned = true → p ≠ r.read) →
    0 < (r.run p).count
  owned : r.owned = true →
    r.read < r.write ∧ r.command r.read = .path1 ∧ r.run r.read = ⟨false, 0⟩
  free : r.owned = false → r.remaining = 0
  pc : r.PcOk

end Ring

end VitaSX2.Path1
