/-
What a raw savestate is: sixteen payloads, and the one container they have.

A container is its header, a record for each payload and the payloads, with
nothing between or behind them.  A reader that has read a field knows what the
input starts with at the offset of the field; a reader that has read them all
knows the input.
-/
import VitaSX2.SaveState.Raw

namespace VitaSX2.SaveStateRaw

open LittleEndian

/-! ### Containers -/

/-- What a reader learns of payloads that start at an offset. -/
def entriesOf : ℕ → List (List UInt8) → List DecodedEntry
  | _, [] => []
  | offset, payload :: payloads =>
    ⟨offset, payload.length, calculateCrc32 payload⟩ ::
      entriesOf (offset + payload.length) payloads

def headerBytes (totalSize : ℕ) : List UInt8 :=
  magic ++ (toBytes 4 formatVersion ++ (toBytes 4 headerSize ++ (toBytes 4 saveVersion ++
    (toBytes 4 portablePayloadVersion ++ (toBytes 4 entryCount ++ (toBytes 4 0 ++
      (toBytes 8 headerSize ++ (toBytes 8 payloadStart ++ toBytes 8 totalSize))))))))

def recordBytes (i : ℕ) (entry : DecodedEntry) : List UInt8 :=
  toBytes 8 entry.payloadOffset ++ (toBytes 8 entry.size ++ (toBytes 4 entry.crc32.toNat ++
    (toBytes 2 (canonicalName i).length ++ (toBytes 2 0 ++ (canonicalName i ++
      List.replicate (directoryNameCapacity - (canonicalName i).length) 0)))))

def directoryBytes : ℕ → List DecodedEntry → List UInt8
  | _, [] => []
  | i, entry :: entries => recordBytes i entry ++ directoryBytes (i + 1) entries

def container (payloads : List (List UInt8)) : List UInt8 :=
  headerBytes (payloadStart + payloads.flatten.length) ++
    (directoryBytes 0 (entriesOf payloadStart payloads) ++ payloads.flatten)

/-- The entry `i` may have this payload. -/
structure PayloadOk (i : ℕ) (payload : List UInt8) : Prop where
  size : payload.length ≤ maxEntrySize
  empty : payload.length ≠ 0 ∨ entryMayBeEmpty i = true
  marker : i = 0 → payload = portableVersionPayload

/-- The entries from `i` on may have these payloads. -/
def PayloadsOk : ℕ → List (List UInt8) → Prop
  | _, [] => True
  | i, payload :: payloads => PayloadOk i payload ∧ PayloadsOk (i + 1) payloads

/-- The payloads of a savestate. -/
structure Valid (payloads : List (List UInt8)) : Prop where
  count : payloads.length = entryCount
  each : PayloadsOk 0 payloads
  limit : payloadStart + payloads.flatten.length ≤ maxContainerSize

/-! ### Names and sizes -/

lemma findCanonicalEntry_canonicalName {i : ℕ} (h : i < entryCount) :
    findCanonicalEntry (canonicalName i) = i := by
  revert i
  decide

lemma length_canonicalName {i : ℕ} (h : i < entryCount) :
    (canonicalName i).length ≠ 0 ∧ (canonicalName i).length ≤ directoryNameCapacity := by
  revert i
  decide

lemma length_canonicalEntryNames : canonicalEntryNames.length = entryCount := by decide

/-- A name that is found is the canonical one. -/
lemma eq_canonicalName {name : List UInt8} {i : ℕ} (h : findCanonicalEntry name = i)
    (hi : i ≠ entryCount) : i < entryCount ∧ name = canonicalName i := by
  subst h
  have hlt : findCanonicalEntry name < canonicalEntryNames.length :=
    Nat.lt_of_le_of_ne List.findIdx_le_length (by rw [length_canonicalEntryNames]; exact hi)
  refine ⟨length_canonicalEntryNames ▸ hlt, ?_⟩
  have hname := List.findIdx_getElem (w := hlt)
  rw [canonicalName, List.getD_eq_getElem?_getD, List.getElem?_eq_getElem hlt]
  exact beq_iff_eq.mp hname

lemma length_headerBytes (totalSize : ℕ) : (headerBytes totalSize).length = headerSize := by
  simp only [headerBytes, List.length_append, length_toBytes]
  decide

lemma length_recordBytes {i : ℕ} (h : i < entryCount) (entry : DecodedEntry) :
    (recordBytes i entry).length = directoryEntrySize := by
  have hname := (length_canonicalName h).2
  simp only [recordBytes, List.length_append, length_toBytes, List.length_replicate,
    directoryNameCapacity, directoryEntrySize] at *
  omega

lemma length_entriesOf (offset : ℕ) (payloads : List (List UInt8)) :
    (entriesOf offset payloads).length = payloads.length := by
  induction payloads generalizing offset with
  | nil => rfl
  | cons payload payloads ih => simp [entriesOf, ih]

lemma length_directoryBytes (i : ℕ) (entries : List DecodedEntry)
    (h : i + entries.length ≤ entryCount) :
    (directoryBytes i entries).length = entries.length * directoryEntrySize := by
  induction entries generalizing i with
  | nil => simp [directoryBytes]
  | cons entry entries ih =>
    rw [List.length_cons] at h
    rw [directoryBytes, List.length_append, length_recordBytes (by omega), ih (i + 1) (by omega),
      List.length_cons, Nat.add_mul, Nat.one_mul, Nat.add_comm]

/-! ### Checks and reads -/

variable {α β : Type}

/-- A step of a reader that has gone on. -/
lemma bind_ok {x : Except Failure α} {f : α → Except Failure β} {b : β}
    (h : (x >>= f) = .ok b) : ∃ a, x = .ok a ∧ f a = .ok b := by
  cases x with
  | error failure => cases h
  | ok a => exact ⟨a, rfl, h⟩

/-- A check that has been passed. -/
lemma require_ok {p : Prop} [Decidable p] {failure : Failure} {f : Unit → Except Failure β} {b : β}
    (h : (require p failure >>= f) = .ok b) : p ∧ f () = .ok b := by
  unfold require at h
  split at h
  next hp => exact ⟨hp, h⟩
  next => cases h

@[simp] lemma require_pos {p : Prop} [Decidable p] (hp : p) (failure : Failure) :
    require p failure = .ok () := if_pos hp

lemma require_iff {p : Prop} [Decidable p] {failure : Failure} :
    require p failure = .ok () ↔ p := by
  unfold require
  split
  next hp => exact iff_of_true rfl hp
  next hp => exact iff_of_false nofun hp

@[simp] lemma ok_bind (a : α) (f : α → Except Failure β) : ((.ok a : Except Failure α) >>= f) = f a :=
  rfl

lemma readBytes_ok {bytes data : List UInt8} {offset count : ℕ}
    (h : readBytes bytes offset count = .ok data) :
    data.length = count ∧ bytes.drop offset = data ++ bytes.drop (offset + count) := by
  unfold readBytes at h
  split at h
  next hin =>
    obtain rfl := Except.ok.inj h
    refine ⟨length_window hin, ?_⟩
    rw [window, ← List.drop_drop, List.take_append_drop]
  next => cases h

/-- What the input starts with at an offset can be read there. -/
lemma readBytes_of_drop {bytes data after : List UInt8} {offset count : ℕ} (hcount : data.length = count)
    (hpos : offset ≤ bytes.length) (h : bytes.drop offset = data ++ after) :
    readBytes bytes offset count = .ok data := by
  have hlength := congrArg List.length h
  rw [List.length_drop, List.length_append] at hlength
  rw [readBytes, if_pos (by omega), window, h]
  simp [hcount]

lemma load_ok {bytes : List UInt8} {offset count value : ℕ} (h : load count bytes offset = .ok value) :
    value < 256 ^ count ∧ bytes.drop offset = toBytes count value ++ bytes.drop (offset + count) := by
  obtain ⟨data, hdata, hvalue⟩ := bind_ok h
  obtain ⟨rfl, hdrop⟩ := readBytes_ok hdata
  obtain rfl := Except.ok.inj hvalue
  exact ⟨ofBytes_lt data, by rw [toBytes_ofBytes]; exact hdrop⟩

lemma load_of_drop {bytes after : List UInt8} {offset count value : ℕ} (hvalue : value < 256 ^ count)
    (hpos : offset ≤ bytes.length) (h : bytes.drop offset = toBytes count value ++ after) :
    load count bytes offset = .ok value := by
  rw [load, readBytes_of_drop (length_toBytes _ _) hpos h]
  show Except.ok (ofBytes (toBytes count value)) = _
  rw [ofBytes_toBytes, Nat.mod_eq_of_lt hvalue]

/-- The rest of the input behind a field. -/
lemma drop_add {bytes data after : List UInt8} {offset count : ℕ} (hcount : data.length = count)
    (h : bytes.drop offset = data ++ after) : bytes.drop (offset + count) = after := by
  rw [← List.drop_drop, h, List.drop_left' hcount]

end VitaSX2.SaveStateRaw
