/-
The UNPACK command of a VU command epoch (`VitaGpuVuCommandEpoch.cpp`).

A command word carries the VIF code, the CYCLE register and the write mode, its
arguments the payload range, the mask and the destination.  The payload is read
one vector at a time; the row registers change under modes 2 and 3.
-/
import Mathlib.Algebra.Group.Nat.Defs
import Mathlib.Data.Fin.VecNotation
import Mathlib.Data.Nat.Basic
import VitaSX2.Lib.FixedSize

namespace VitaSX2.Vu

/-- `UniversalEpochMicroOp`. -/
structure EpochMicroOp where
  kind : BitVec 32 := 0
  control : BitVec 32 := 0
  arguments : Fin 6 → BitVec 32 := fun _ => 0

def kindEnd : BitVec 32 := 0
def kindVifUnpack : BitVec 32 := 1
def kindExecuteVu1 : BitVec 32 := 2

def lowHalf (value : BitVec 32) : ℕ := value.toNat % 2 ^ 16

def highHalf (value : BitVec 32) : ℕ := value.toNat / 2 ^ 16

/-- `UniversalCommandEpochState`. -/
structure EpochState where
  row : Fin 4 → BitVec 32 := fun _ => 0
  column : Fin 4 → BitVec 32 := fun _ => 0
  vifTop : ℕ := 0
  vifItop : ℕ := 0

structure DecodedVifCommand where
  command : ℕ
  cycleCl : ℕ
  cycleWl : ℕ
  mode : ℕ
  unsignedData : Bool
  startAlignment : ℕ
  payloadOffset : ℕ
  sourceSize : ℕ
  mask : BitVec 32
  destinationQword : ℕ
  vectorCount : ℕ
  vifTop : ℕ
  vifItop : ℕ

def vifControlMask : BitVec 32 := 0x3fffffff

def decodeVifCommand (command : EpochMicroOp) : Option DecodedVifCommand :=
  if command.kind ≠ kindVifUnpack ∨ command.control &&& ~~~ vifControlMask ≠ 0 ∨
      command.arguments 5 ≠ 0 then none
  else
    some
      { command := command.control.toNat % 2 ^ 8
        cycleCl := command.control.toNat / 2 ^ 8 % 2 ^ 8
        cycleWl := command.control.toNat / 2 ^ 16 % 2 ^ 8
        mode := command.control.toNat / 2 ^ 24 % 4
        unsignedData := command.control.getLsbD 26
        startAlignment := command.control.toNat / 2 ^ 27 % 8
        payloadOffset := (command.arguments 0).toNat
        sourceSize := (command.arguments 1).toNat
        mask := command.arguments 2
        destinationQword := lowHalf (command.arguments 3)
        vectorCount := highHalf (command.arguments 3)
        vifTop := lowHalf (command.arguments 4)
        vifItop := highHalf (command.arguments 4) }

/-- The bytes of one source vector, zero for the formats that do not exist. -/
def sourceVectorBytes : List ℕ := [4, 2, 1, 0, 8, 4, 2, 0, 12, 6, 3, 0, 16, 8, 4, 2]

def vectorReadBytes (format : ℕ) : ℕ :=
  match format with
  | 0x08 => 16
  | 0x09 => 8
  | 0x0a => 4
  | _ => sourceVectorBytes.getD format 0

/-- The position in source and destination between two vectors. -/
structure UnpackCursor where
  sourceOffset : ℕ := 0
  destinationQword : ℕ := 0
  cycle : ℕ := 0
  generatedIteration : ℕ := 0

namespace DecodedVifCommand

variable (command : DecodedVifCommand)

def format : ℕ := command.command % 16

/-- WL zero stands for a cycle of 256 vectors. -/
def writeCycle : ℕ := if command.cycleWl ≠ 0 then command.cycleWl else 256

def isFill : Bool := command.cycleCl < command.writeCycle

def vectorBytes : ℕ := sourceVectorBytes.getD command.format 0

/-- The cursor behind one vector. -/
def advance (cursor : UnpackCursor) : UnpackCursor :=
  let cycle := cursor.cycle + 1
  let next := { cursor with destinationQword := cursor.destinationQword + 1, cycle := cycle }
  if command.isFill then
    if cycle ≤ command.cycleCl then
      { next with sourceOffset := cursor.sourceOffset + command.vectorBytes }
    else if cycle = command.writeCycle then { next with cycle := 0 }
    else next
  else
    let next := { next with sourceOffset := cursor.sourceOffset + command.vectorBytes }
    if command.writeCycle ≤ cycle then
      { next with
        destinationQword := next.destinationQword + (command.cycleCl - command.writeCycle)
        cycle := 0 }
    else next

/-- The end of the furthest vector that the command reads. -/
def maximumEnd : ℕ → UnpackCursor → ℕ → Option ℕ
  | 0, _, furthest => some furthest
  | count + 1, cursor, furthest =>
    if cursor.sourceOffset > 2 ^ 32 - 1 - vectorReadBytes command.format then none
    else maximumEnd count (command.advance cursor)
      (max furthest (cursor.sourceOffset + vectorReadBytes command.format))

def requiredPayloadBytes : Option ℕ :=
  if command.vectorCount = 0 ∨ 1024 ≤ command.destinationQword ∨ 3 < command.mode ∨
      command.command.testBit 7 ∨ ¬ (command.command.testBit 6 ∧ command.command.testBit 5) then
    none
  else if command.vectorBytes = 0 then none
  else command.maximumEnd command.vectorCount {} 0

end DecodedVifCommand

/-! ### One vector -/

section Vector

variable (bytes : ℕ → BitVec 8)

def loadU16 (offset : ℕ) : BitVec 16 := bytes (offset + 1) ++ bytes offset

def loadU32 (offset : ℕ) : BitVec 32 :=
  bytes (offset + 3) ++ bytes (offset + 2) ++ bytes (offset + 1) ++ bytes offset

def extendU8 (value : BitVec 8) (unsignedData : Bool) : BitVec 32 :=
  if unsignedData then value.setWidth 32 else value.signExtend 32

def extendU16 (value : BitVec 16) (unsignedData : Bool) : BitVec 32 :=
  if unsignedData then value.setWidth 32 else value.signExtend 32

/-- `LoadVector`: the four words of the vector at an offset of the payload. -/
def loadVector (command : DecodedVifCommand) (offset generatedIteration generatedAlignment : ℕ) :
    Fin 4 → BitVec 32 :=
  let half (index : ℕ) := extendU16 (loadU16 bytes (offset + 2 * index)) command.unsignedData
  let byte (index : ℕ) := extendU8 (bytes (offset + index)) command.unsignedData
  let word (index : ℕ) := loadU32 bytes (offset + 4 * index)
  match command.format with
  | 0x00 => fun _ => word 0
  | 0x01 => fun _ => half 0
  | 0x02 => fun _ => byte 0
  | 0x04 => ![word 0, word 1, word 0, word 1]
  | 0x05 => ![half 0, half 1, half 0, half 1]
  | 0x06 => ![byte 0, byte 1, byte 0, byte 1]
  | 0x08 => ![word 0, word 1, word 2, if generatedIteration = generatedAlignment then word 3 else 0]
  | 0x09 =>
    ![half 0, half 1, half 2,
      if generatedIteration % 2 = 0 ∧
          (generatedIteration / 4 + 1 + (4 + 2 ^ 32 - generatedAlignment)) % 4 = 0 then 0
      else half 3]
  | 0x0a => ![byte 0, byte 1, byte 2, if generatedIteration = generatedAlignment then byte 3 else 0]
  | 0x0c => ![word 0, word 1, word 2, word 3]
  | 0x0d => ![half 0, half 1, half 2, half 3]
  | 0x0e => ![byte 0, byte 1, byte 2, byte 3]
  | 0x0f =>
    let packed := (loadU16 bytes offset).setWidth 32
    ![(packed &&& 0x001f) <<< 3, (packed &&& 0x03e0) >>> 2, (packed &&& 0x7c00) >>> 7,
      (packed &&& 0x8000) >>> 8]
  | _ => fun _ => 0

end Vector

def storeWord (memory : ℕ → BitVec 8) (offset : ℕ) (value : BitVec 32) : ℕ → BitVec 8 :=
  fun address =>
    if offset ≤ address ∧ address < offset + 4 then
      value.extractLsb' (8 * (address - offset)) 8
    else memory address

/-- One lane of `StoreVector`: the row registers and the word that is stored. -/
def storeLane (command : DecodedVifCommand) (cycle : ℕ) (input : Fin 4 → BitVec 32)
    (old : BitVec 32) (state : EpochState) (lane : Fin 4) : EpochState × BitVec 32 :=
  let maskCycle := min cycle 3
  let cycleMask :=
    if command.command.testBit 4 then command.mask.toNat / 2 ^ (maskCycle * 8) % 2 ^ 8 else 0
  let mode := if command.format = 0x0f then 0 else command.mode
  match cycleMask / 2 ^ (lane.val * 2) % 4 with
  | 0 =>
    match mode with
    | 1 => (state, input lane + state.row lane)
    | 2 =>
      let sum := state.row lane + input lane
      ({ state with row := Function.update state.row lane sum }, sum)
    | 3 => ({ state with row := Function.update state.row lane (input lane) }, input lane)
    | _ => (state, input lane)
  | 1 => (state, state.row lane)
  | 2 => (state, state.column (Fin.ofNat 4 maskCycle))
  | _ => (state, old)

/-- `StoreVector`: the four lanes in order, at a byte offset of the VU memory. -/
def storeVector (command : DecodedVifCommand) (cycle : ℕ) (input : Fin 4 → BitVec 32)
    (destination : ℕ) (memory : ℕ → BitVec 8) (state : EpochState) :
    (ℕ → BitVec 8) × EpochState :=
  (List.finRange 4).foldl (fun (acc : (ℕ → BitVec 8) × EpochState) lane =>
    let stored := storeLane command cycle input
      (loadU32 acc.1 (destination + 4 * lane.val)) acc.2 lane
    (storeWord acc.1 (destination + 4 * lane.val) stored.2, stored.1)) (memory, state)

/-! ### One command -/

/-- The vectors of an UNPACK, one after another. -/
def unpackVectors (command : DecodedVifCommand) (payload : ℕ → BitVec 8)
    (generatedAlignment : ℕ) :
    ℕ → UnpackCursor → (ℕ → BitVec 8) → EpochState → (ℕ → BitVec 8) × EpochState
  | 0, _, memory, state => (memory, state)
  | count + 1, cursor, memory, state =>
    -- V3-16 and V3-8 count the vectors before the load, V3-32 after it
    let early := command.format = 0x09 ∨ command.format = 0x0a
    let iteration :=
      if early then cursor.generatedIteration + 1 else cursor.generatedIteration
    let vector := loadVector payload command (command.payloadOffset + cursor.sourceOffset)
      iteration generatedAlignment
    let stored := storeVector command cursor.cycle vector (cursor.destinationQword % 1024 * 16)
      memory state
    let generated :=
      if early then iteration
      else if command.format = 0x08 then (iteration + 1) % 2 else iteration
    unpackVectors command payload generatedAlignment count
      (command.advance { cursor with generatedIteration := generated }) stored.1 stored.2

/-- The payload buffer of an epoch. -/
structure Payload where
  bytes : ℕ → BitVec 8
  size : ℕ

/-- `ExecuteVifUnpack`. -/
def executeVifUnpack (command : DecodedVifCommand) (payload : Option Payload)
    (memory : ℕ → BitVec 8) (state : EpochState) : Option ((ℕ → BitVec 8) × EpochState) :=
  match command.requiredPayloadBytes, payload with
  | some requiredBytes, some payload =>
    if command.sourceSize < requiredBytes ∨ command.payloadOffset > payload.size ∨
        command.sourceSize > payload.size - command.payloadOffset then none
    else
      let generatedAlignment :=
        if command.format = 0x09 then command.startAlignment else command.startAlignment % 2
      let result := unpackVectors command payload.bytes generatedAlignment command.vectorCount
        { destinationQword := command.destinationQword } memory state
      some (result.1, { result.2 with vifTop := command.vifTop, vifItop := command.vifItop })
  | _, _ => none

end VitaSX2.Vu
