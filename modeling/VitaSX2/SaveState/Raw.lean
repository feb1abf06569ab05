/-
The raw savestate container (`SaveStateRaw.cpp`).

Both writers and both readers of the format are modelled, with every check in
the order of the source and a failure for every message.  A read outside of the
input is a failure of its own, so that it can be shown not to happen.  The file
calls of the two file paths are taken to succeed.
-/
import Mathlib.Algebra.Group.Nat.Defs
import Mathlib.Data.FinEnum
import Mathlib.Logic.Function.Iterate
import VitaSX2.Lib.LittleEndian

namespace VitaSX2.SaveStateRaw

open LittleEndian

/-! ### Constants -/

def ascii (text : String) : List UInt8 := text.toList.map fun c => UInt8.ofNat c.toNat

def magic : List UInt8 := ascii "PCSX2RAW"

def formatVersion : ℕ := 2
def portablePayloadVersion : ℕ := 1
/-- `g_SaveVersion`. -/
def saveVersion : ℕ := 0x9A59 <<< 16

def headerSize : ℕ := 56
def directoryEntrySize : ℕ := 64
def directoryNameCapacity : ℕ := 40
def maxEntrySize : ℕ := 64 * 1024 * 1024
def maxContainerSize : ℕ := 128 * 1024 * 1024

def canonicalEntryNames : List (List UInt8) := List.map ascii
  ["PCSX2 Portable Replay Version.id", "PCSX2 Internal Structures.dat", "eeMemory.bin",
    "iopMemory.bin", "eeHwRegs.bin", "iopHwRegs.bin", "Scratchpad.bin", "vu0Memory.bin",
    "vu1Memory.bin", "vu0MicroMem.bin", "vu1MicroMem.bin", "SPU2.bin", "USB.bin", "PAD.bin",
    "GS.bin", "Achievements.bin"]

/-- `CANONICAL_ENTRY_NAMES.size()`. -/
def entryCount : ℕ := 16

def canonicalName (i : ℕ) : List UInt8 := canonicalEntryNames.getD i []

/-- `ENTRY_MAY_BE_EMPTY`. -/
def entryMayBeEmpty (i : ℕ) : Bool := i == 15

def directorySize : ℕ := entryCount * directoryEntrySize
def payloadStart : ℕ := headerSize + directorySize
def fileCrcChunkSize : ℕ := 16 * 1024

/-- `PORTABLE_VERSION_ENTRY_PAYLOAD`. -/
def portableVersionPayload : List UInt8 := ascii "PCSX2PRP" ++ toBytes 4 portablePayloadVersion

/-! ### Checksums -/

/-- `CRC32_TABLE`. -/
def crc32Table (i : BitVec 32) : BitVec 32 :=
  Nat.iterate (fun value => (value >>> 1) ^^^ (if value.getLsbD 0 then 0xedb88320#32 else 0)) 8 i

def updateCrc32 (crc : BitVec 32) (data : List UInt8) : BitVec 32 :=
  data.foldl
    (fun crc value =>
      crc32Table ((crc ^^^ value.toBitVec.setWidth 32) &&& 0xff#32) ^^^ (crc >>> 8)) crc

def calculateCrc32 (data : List UInt8) : BitVec 32 :=
  updateCrc32 0xffffffff#32 data ^^^ 0xffffffff#32

/-! ### Failures -/

/-- What a reader or writer reports: one constructor for each message. -/
inductive Failure
  /-- A read outside of the input. -/
  | outside
  | truncatedHeader (available : ℕ)
  | magic
  | formatVersion (value : ℕ)
  | headerSize (value : ℕ)
  | saveVersion (value : ℕ)
  | portablePayloadVersion (value : ℕ)
  | reserved (value : ℕ)
  | entryCount (value : ℕ)
  | directoryOffset (value : ℕ)
  | payloadOffset (value : ℕ)
  | missesDirectory (total : ℕ)
  | exceedsLimit (total : ℕ)
  | truncated (total available : ℕ)
  | trailing (bytes : ℕ)
  | truncatedDirectory (available : ℕ)
  | flags (i value : ℕ)
  | nameLength (i value : ℕ)
  | afterName (i : ℕ)
  | unknownName (i : ℕ) (name : List UInt8)
  | duplicated (name : List UInt8)
  | misplaced (i : ℕ) (name : List UInt8)
  | tooLarge (name : List UInt8) (size : ℕ)
  | emptyEntry (name : List UInt8)
  | intoDirectory (name : List UInt8)
  | outOfBounds (name : List UInt8) (offset size total : ℕ)
  | overlap (name : List UInt8)
  | gap (name : List UInt8)
  | unowned (bytes : ℕ)
  | checksum (i : ℕ) (expected actual : BitVec 32)
  | marker
  | unread (i : ℕ)
  | sourceOutside (name : List UInt8) (offset size buffer : ℕ)
  | sourceOverlap (previous : ℕ) (name : List UInt8)
  | containerLimit (name : List UInt8)
  | provider (i : ℕ)
  | notFinalized

/-- A check. -/
def require (p : Prop) [Decidable p] (failure : Failure) : Except Failure Unit :=
  if p then .ok () else .error failure

def checkedAdd (lhs rhs : ℕ) : Option ℕ :=
  if 2 ^ 64 - 1 - lhs < rhs then none else some (lhs + rhs)

/-- `FindCanonicalEntry`. -/
def findCanonicalEntry (name : List UInt8) : ℕ := canonicalEntryNames.findIdx (name == ·)

/-! ### The directory -/

def readBytes (bytes : List UInt8) (offset count : ℕ) : Except Failure (List UInt8) :=
  if offset + count ≤ bytes.length then .ok (window bytes offset count) else .error .outside

/-- `LoadU16`, `LoadU32` and `LoadU64`. -/
def load (count : ℕ) (bytes : List UInt8) (offset : ℕ) : Except Failure ℕ := do
  let data ← readBytes bytes offset count
  return ofBytes data

structure DecodedEntry where
  payloadOffset : ℕ
  size : ℕ
  crc32 : BitVec 32
deriving DecidableEq

/-- One turn of the loop of `ParseContainerDirectory`; `seen` holds the entries before. -/
def parseEntry (bytes : List UInt8) (totalSize i : ℕ) (seen : List ℕ) (expected : ℕ) :
    Except Failure DecodedEntry := do
  let descriptor := headerSize + i * directoryEntrySize
  let entryOffset ← load 8 bytes descriptor
  let entrySize ← load 8 bytes (descriptor + 8)
  let expectedCrc32 ← load 4 bytes (descriptor + 16)
  let nameSize ← load 2 bytes (descriptor + 20)
  let flags ← load 2 bytes (descriptor + 22)
  require (flags = 0) (.flags i flags)
  require (nameSize ≠ 0 ∧ nameSize ≤ directoryNameCapacity) (.nameLength i nameSize)
  let name ← readBytes bytes (descriptor + 24) nameSize
  let unused ← readBytes bytes (descriptor + 24 + nameSize) (directoryNameCapacity - nameSize)
  require (∀ byte ∈ unused, byte = 0) (.afterName i)
  let canonicalIndex := findCanonicalEntry name
  require (canonicalIndex ≠ entryCount) (.unknownName i name)
  require (canonicalIndex ∉ seen) (.duplicated name)
  require (canonicalIndex = i) (.misplaced i name)
  require (entrySize ≤ maxEntrySize) (.tooLarge name entrySize)
  require (entrySize ≠ 0 ∨ entryMayBeEmpty i) (.emptyEntry name)
  require (payloadStart ≤ entryOffset) (.intoDirectory name)
  require ((checkedAdd entryOffset entrySize).any (· ≤ totalSize))
    (.outOfBounds name entryOffset entrySize totalSize)
  require (expected ≤ entryOffset) (.overlap name)
  require (entryOffset ≤ expected) (.gap name)
  return ⟨entryOffset, entrySize, BitVec.ofNat 32 expectedCrc32⟩

/-- The loop of `ParseContainerDirectory`: `count` entries from `i` on. -/
def parseEntries (bytes : List UInt8) (totalSize : ℕ) :
    (count i : ℕ) → List ℕ → ℕ → Except Failure (List DecodedEntry × ℕ)
  | 0, _, _, expected => return ([], expected)
  | count + 1, i, seen, expected => do
    let entry ← parseEntry bytes totalSize i seen expected
    let (entries, last) ←
      parseEntries bytes totalSize count (i + 1) (i :: seen) (entry.payloadOffset + entry.size)
    return (entry :: entries, last)

def parseContainerDirectory (bytes : List UInt8) (actualSize : ℕ) :
    Except Failure (List DecodedEntry) := do
  require (headerSize ≤ actualSize ∧ headerSize ≤ bytes.length) (.truncatedHeader actualSize)
  let start ← readBytes bytes 0 8
  require (start = magic) .magic
  let format ← load 4 bytes 8
  let header ← load 4 bytes 12
  let save ← load 4 bytes 16
  let portable ← load 4 bytes 20
  let count ← load 4 bytes 24
  let reserved ← load 4 bytes 28
  let directoryOffset ← load 8 bytes 32
  let payloadOffset ← load 8 bytes 40
  let totalSize ← load 8 bytes 48
  require (format = formatVersion) (.formatVersion format)
  require (header = headerSize) (.headerSize header)
  require (save = saveVersion) (.saveVersion save)
  require (portable = portablePayloadVersion) (.portablePayloadVersion portable)
  require (reserved = 0) (.reserved reserved)
  require (count = entryCount) (.entryCount count)
  require (directoryOffset = headerSize) (.directoryOffset directoryOffset)
  require (payloadOffset = payloadStart) (.payloadOffset payloadOffset)
  require (payloadStart ≤ totalSize) (.missesDirectory totalSize)
  require (totalSize ≤ maxContainerSize) (.exceedsLimit totalSize)
  require (totalSize ≤ actualSize) (.truncated totalSize actualSize)
  require (actualSize ≤ totalSize) (.trailing (actualSize - totalSize))
  require (payloadStart ≤ bytes.length) (.truncatedDirectory bytes.length)
  let (entries, last) ← parseEntries bytes totalSize entryCount 0 [] payloadStart
  require (last = totalSize) (.unowned (totalSize - last))
  return entries

/-! ### Entry lists -/

structure ArchiveEntry where
  filename : List UInt8
  dataIndex : ℕ
  /-- `m_datasize`, of which `GetDataSize` returns 32 bits. -/
  dataSize : ℕ
deriving DecidableEq

def ArchiveEntry.getDataSize (entry : ArchiveEntry) : ℕ := entry.dataSize % 2 ^ 32

structure ArchiveEntryList where
  entries : List ArchiveEntry
  buffer : List UInt8

/-- The bytes of an entry. -/
def ArchiveEntryList.payload (list : ArchiveEntryList) (entry : ArchiveEntry) : List UInt8 :=
  window list.buffer entry.dataIndex entry.getDataSize

/-! ### Decode -/

/-- The checks of one payload. -/
def checkPayload (i : ℕ) (entry : DecodedEntry) (payload : List UInt8) : Except Failure Unit := do
  require (calculateCrc32 payload = entry.crc32)
    (.checksum i entry.crc32 (calculateCrc32 payload))
  require (i = 0 → payload = portableVersionPayload) .marker

/-- The first loop of `Decode`, from entry `i` on. -/
def checkPayloads (input : List UInt8) : ℕ → List DecodedEntry → Except Failure Unit
  | _, [] => return ()
  | i, entry :: entries => do
    let payload ← readBytes input entry.payloadOffset entry.size
    checkPayload i entry payload
    checkPayloads input (i + 1) entries

/-- The second loop of `Decode`: the entries of the list, from entry `i` on. -/
def addEntries : (i offset : ℕ) → List DecodedEntry → List ArchiveEntry
  | _, _, [] => []
  | i, offset, entry :: entries =>
    ⟨canonicalName i, offset, entry.size⟩ :: addEntries (i + 1) (offset + entry.size) entries

def decode (input : List UInt8) : Except Failure ArchiveEntryList := do
  let decoded ← parseContainerDirectory input input.length
  checkPayloads input 0 decoded
  return ⟨addEntries 0 0 decoded,
    decoded.flatMap fun entry => window input entry.payloadOffset entry.size⟩

/-! ### FileReader -/

/-- The marker bytes that one chunk adds to those before it. -/
def extendMarker (i : ℕ) (marker chunk : List UInt8) : List UInt8 :=
  if i = 0 ∧ marker.length < portableVersionPayload.length then
    marker ++ chunk.take (portableVersionPayload.length - marker.length)
  else marker

/-- The loop of `VerifyFileEntry`: the file from its position on, what remains of the entry,
the checksum and the marker so far. -/
def verifyChunks (i : ℕ) (file : List UInt8) (remaining : ℕ) (crc : BitVec 32)
    (marker : List UInt8) : Except Failure (BitVec 32 × List UInt8) :=
  if _h : remaining = 0 then .ok (crc, marker)
  else
    let chunkSize := min remaining fileCrcChunkSize
    let chunk := file.take chunkSize
    if chunk.length ≠ chunkSize then .error (.unread i)
    else
      verifyChunks i (file.drop chunkSize) (remaining - chunkSize) (updateCrc32 crc chunk)
        (extendMarker i marker chunk)
termination_by remaining
decreasing_by
  simp only [fileCrcChunkSize]
  omega

def verifyFileEntry (file : List UInt8) (i : ℕ) (entry : DecodedEntry) : Except Failure Unit := do
  let (crc, marker) ←
    verifyChunks i (file.drop entry.payloadOffset) entry.size 0xffffffff#32 []
  let crc := crc ^^^ 0xffffffff#32
  require (crc = entry.crc32) (.checksum i entry.crc32 crc)
  let padding := List.replicate (portableVersionPayload.length - marker.length) 0
  require (i = 0 → entry.size = portableVersionPayload.length ∧
    marker ++ padding = portableVersionPayload) .marker

def verifyFileEntries (file : List UInt8) : ℕ → List DecodedEntry → Except Failure Unit
  | _, [] => return ()
  | i, entry :: entries => do
    verifyFileEntry file i entry
    verifyFileEntries file (i + 1) entries

/-- `FileReader::Open` on a file with these bytes. -/
def openFile (file : List UInt8) : Except Failure (List DecodedEntry) := do
  let decoded ← parseContainerDirectory (file.take (min file.length payloadStart)) file.length
  verifyFileEntries file 0 decoded
  return decoded

/-! ### Encode -/

structure EncodedEntry where
  sourceOffset : ℕ
  size : ℕ
  payloadOffset : ℕ
  crc32 : BitVec 32

/-- The interval of a source entry meets the one of an earlier entry. -/
def EncodedEntry.meets (other : EncodedEntry) (sourceOffset sourceEnd : ℕ) : Bool :=
  other.size ≠ 0 && (sourceOffset < other.sourceOffset + other.size && other.sourceOffset < sourceEnd)

/-- An entry with bytes meets no entry before it. -/
def checkOverlap (previous : List EncodedEntry) (name : List UInt8) (sourceOffset size : ℕ) :
    Except Failure Unit :=
  match previous.findIdx? (·.meets sourceOffset (sourceOffset + size)) with
  | some other => require (size = 0) (.sourceOverlap other name)
  | none => .ok ()

/-- One turn of the first loop of `Encode`. -/
def scanEntry (source : List UInt8) (i : ℕ) (entry : ArchiveEntry) (seen : List ℕ)
    (previous : List EncodedEntry) (containerSize : ℕ) : Except Failure EncodedEntry := do
  let name := entry.filename
  let canonicalIndex := findCanonicalEntry name
  require (canonicalIndex ≠ entryCount) (.unknownName i name)
  require (canonicalIndex ∉ seen) (.duplicated name)
  require (canonicalIndex = i) (.misplaced i name)
  let sourceOffset := entry.dataIndex
  let size := entry.getDataSize
  require (size ≤ maxEntrySize) (.tooLarge name size)
  require (size ≠ 0 ∨ entryMayBeEmpty i) (.emptyEntry name)
  require ((checkedAdd sourceOffset size).any (· ≤ source.length))
    (.sourceOutside name sourceOffset size source.length)
  let data := window source sourceOffset size
  require (i = 0 → data = portableVersionPayload) .marker
  checkOverlap previous name sourceOffset size
  require ((checkedAdd containerSize size).any (· ≤ maxContainerSize)) (.containerLimit name)
  return ⟨sourceOffset, size, containerSize, calculateCrc32 data⟩

/-- The first loop of `Encode`, from entry `i` on; `previous` holds the entries before. -/
def scanEntries (source : List UInt8) :
    List ArchiveEntry → ℕ → List ℕ → List EncodedEntry → ℕ →
      Except Failure (List EncodedEntry × ℕ)
  | [], _, _, previous, containerSize => return (previous, containerSize)
  | entry :: entries, i, seen, previous, containerSize => do
    let encoded ← scanEntry source i entry seen previous containerSize
    scanEntries source entries (i + 1) (i :: seen) (previous ++ [encoded])
      (containerSize + encoded.size)

def storeNat (count : ℕ) (bytes : List UInt8) (offset value : ℕ) : List UInt8 :=
  store bytes offset (toBytes count value)

def storeHeader (bytes : List UInt8) (containerSize : ℕ) : List UInt8 :=
  let bytes := store bytes 0 magic
  let bytes := storeNat 4 bytes 8 formatVersion
  let bytes := storeNat 4 bytes 12 headerSize
  let bytes := storeNat 4 bytes 16 saveVersion
  let bytes := storeNat 4 bytes 20 portablePayloadVersion
  let bytes := storeNat 4 bytes 24 entryCount
  let bytes := storeNat 4 bytes 28 0
  let bytes := storeNat 8 bytes 32 headerSize
  let bytes := storeNat 8 bytes 40 payloadStart
  storeNat 8 bytes 48 containerSize

def storeRecord (bytes : List UInt8) (i : ℕ) (entry : EncodedEntry) : List UInt8 :=
  let directory := headerSize + i * directoryEntrySize
  let bytes := storeNat 8 bytes directory entry.payloadOffset
  let bytes := storeNat 8 bytes (directory + 8) entry.size
  let bytes := storeNat 4 bytes (directory + 16) entry.crc32.toNat
  let bytes := storeNat 2 bytes (directory + 20) (canonicalName i).length
  let bytes := storeNat 2 bytes (directory + 22) 0
  store bytes (directory + 24) (canonicalName i)

/-- The second loop of `Encode`, from entry `i` on. -/
def storeEntries (source : List UInt8) : ℕ → List EncodedEntry → List UInt8 → List UInt8
  | _, [], bytes => bytes
  | i, entry :: entries, bytes =>
    let bytes := storeRecord bytes i entry
    let bytes :=
      if entry.size ≠ 0 then
        store bytes entry.payloadOffset (window source entry.sourceOffset entry.size)
      else bytes
    storeEntries source (i + 1) entries bytes

def encode (list : ArchiveEntryList) : Except Failure (List UInt8) := do
  require (list.entries.length = entryCount) (.entryCount list.entries.length)
  let (encoded, containerSize) ← scanEntries list.buffer list.entries 0 [] [] payloadStart
  let bytes := storeHeader (List.replicate containerSize 0) containerSize
  return storeEntries list.buffer 0 encoded bytes

/-! ### EncodeFile -/

/-- The loop of `EncodeFile` over the entries from `i` on: the file so far and the entries
before. -/
def writeEntries (provider : ℕ → Option (List UInt8)) :
    (count i : ℕ) → List UInt8 → List EncodedEntry → ℕ →
      Except Failure (List UInt8 × List EncodedEntry × ℕ)
  | 0, _, file, encoded, containerSize => return (file, encoded, containerSize)
  | count + 1, i, file, encoded, containerSize =>
    match provider i with
    | none => .error (.provider i)
    | some data => do
      require (data.length ≤ maxEntrySize) (.tooLarge (canonicalName i) data.length)
      require (data.length ≠ 0 ∨ entryMayBeEmpty i) (.emptyEntry (canonicalName i))
      require (i = 0 → data = portableVersionPayload) .marker
      require ((checkedAdd containerSize data.length).any (· ≤ maxContainerSize))
        (.containerLimit (canonicalName i))
      writeEntries provider count (i + 1) (file ++ data)
        (encoded ++ [⟨0, data.length, containerSize, calculateCrc32 data⟩])
        (containerSize + data.length)

/-- The records of the directory, from entry `i` on. -/
def storeRecords : ℕ → List EncodedEntry → List UInt8 → List UInt8
  | _, [], bytes => bytes
  | i, entry :: entries, bytes => storeRecords (i + 1) entries (storeRecord bytes i entry)

/-- `EncodeFile`: the bytes of the completed file. -/
def encodeFile (provider : ℕ → Option (List UInt8)) : Except Failure (List UInt8) := do
  let placeholder := List.replicate payloadStart 0
  let (file, encoded, containerSize) ←
    writeEntries provider entryCount 0 placeholder [] payloadStart
  let header := storeRecords 0 encoded (storeHeader placeholder containerSize)
  require (file.length = containerSize) .notFinalized
  return store file 0 header

end VitaSX2.SaveStateRaw
