/-
The raw savestate container is a canonical codec.

Writers and readers meet in the containers of valid payloads: what is written is
such a container, and only these are read.  One payload list has one container,
so decoding and encoding undo each other in both directions.
-/
import VitaSX2.SaveState.Writers

namespace VitaSX2.SaveStateRaw

open LittleEndian

/-- Two lists with the same names, sizes and payload bytes in order. -/
structure SameEntries (left right : ArchiveEntryList) : Prop where
  names : left.entries.map (·.filename) = right.entries.map (·.filename)
  sizes : left.entries.map ArchiveEntry.getDataSize = right.entries.map ArchiveEntry.getDataSize
  payloads : left.entries.map left.payload = right.entries.map right.payload

/-- The sizes of packed payloads are their lengths. -/
lemma sizes_addEntries {i offset expected : ℕ} {payloads : List (List UInt8)}
    (h : PayloadsOk i payloads) :
    (addEntries i offset (entriesOf expected payloads)).map ArchiveEntry.getDataSize =
      payloads.map List.length := by
  induction payloads generalizing i offset expected with
  | nil => rfl
  | cons payload payloads ih =>
    obtain ⟨hpayload, h⟩ := h
    rw [entriesOf, addEntries, List.map_cons, List.map_cons, ih h]
    exact congrArg (· :: _) (Nat.mod_eq_of_lt (Nat.lt_of_le_of_lt hpayload.size (by decide)))

/-- `Decode` gives back what `Encode` has been given. -/
lemma decode_encode {list : ArchiveEntryList} {bytes : List UInt8} (h : encode list = .ok bytes) :
    list.entries.length = entryCount ∧
      ∃ decoded, decode bytes = .ok decoded ∧ SameEntries decoded list := by
  obtain ⟨hnames, hsizes, hvalid, rfl⟩ := encode_ok h
  have hcount := hvalid.count
  refine ⟨by rw [← hcount, List.length_map], _, decode_container hvalid, ?_, ?_, ?_⟩
  · rw [hnames, packed, names_addEntries, length_entriesOf, hcount]
  · rw [hsizes, packed, sizes_addEntries hvalid.each]
  · exact payloads_packed hvalid

/-- `Encode` gives back what `Decode` has been given. -/
lemma encode_decode {input : List UInt8} {list : ArchiveEntryList} (h : decode input = .ok list) :
    encode list = .ok input := by
  obtain ⟨payloads, hvalid, rfl, rfl⟩ := decode_ok h
  exact encode_packed hvalid

/-- What `Encode` writes of a list, `EncodeFile` writes of its payloads. -/
lemma encodeFile_encode {list : ArchiveEntryList} {bytes : List UInt8}
    {provider : ℕ → Option (List UInt8)} (h : encode list = .ok bytes)
    (hprovider : ∀ i entry, list.entries[i]? = some entry →
      provider i = some (list.payload entry)) : encodeFile provider = .ok bytes := by
  obtain ⟨-, -, hvalid, rfl⟩ := encode_ok h
  refine encodeFile_eq hvalid fun i payload hpayload => ?_
  rw [List.getElem?_map, Option.map_eq_some_iff] at hpayload
  obtain ⟨entry, hentry, rfl⟩ := hpayload
  exact hprovider i entry hentry

/-- The raw savestate container is a canonical codec. -/
theorem canonical_codec :
    (∀ list bytes, encode list = .ok bytes → list.entries.length = entryCount ∧
      ∃ decoded, decode bytes = .ok decoded ∧ SameEntries decoded list) ∧
    (∀ input list, decode input = .ok list → encode list = .ok input) ∧
    (∀ input other list, decode input = .ok list → decode other = .ok list → input = other) ∧
    (∀ file, (∃ entries, openFile file = .ok entries) ↔ ∃ list, decode file = .ok list) ∧
    (∀ list bytes provider, encode list = .ok bytes →
      (∀ i entry, list.entries[i]? = some entry → provider i = some (list.payload entry)) →
        encodeFile provider = .ok bytes) ∧
    ∀ bytes actualSize, parseContainerDirectory bytes actualSize ≠ .error .outside := by
  refine ⟨fun list bytes h => decode_encode h, fun input list h => encode_decode h, ?_,
    openFile_iff, fun list bytes provider h hprovider => encodeFile_encode h hprovider,
    parseContainerDirectory_inside⟩
  intro input other list hinput hother
  have hsame := (encode_decode hinput).symm.trans (encode_decode hother)
  exact Except.ok.inj hsame

/-! ### A savestate -/

/-- The marker, fourteen entries of one byte and no achievements. -/
def smallPayloads : List (List UInt8) :=
  portableVersionPayload :: List.replicate 14 [7] ++ [[]]

lemma smallPayloads_valid : Valid smallPayloads where
  count := rfl
  each := by
    repeat' first
      | exact trivial
      | refine ⟨⟨by decide, by decide, by decide⟩, ?_⟩
  limit := by decide

theorem canonical_codec_small :
    encode (packed smallPayloads) = .ok (container smallPayloads) ∧
      (∃ decoded, decode (container smallPayloads) = .ok decoded ∧
        SameEntries decoded (packed smallPayloads)) ∧
      decode (container smallPayloads) = .ok (packed smallPayloads) ∧
      encodeFile (smallPayloads[·]?) = .ok (container smallPayloads) := by
  have hencode := encode_packed smallPayloads_valid
  obtain ⟨hdecode, -, -, -, hfile, -⟩ := canonical_codec
  refine ⟨hencode, (hdecode _ _ hencode).2, decode_container smallPayloads_valid,
    hfile _ _ _ hencode fun i entry hentry => ?_⟩
  have hpayload := congrArg (Option.map (packed smallPayloads).payload) hentry
  rw [← List.getElem?_map, payloads_packed smallPayloads_valid] at hpayload
  exact hpayload

end VitaSX2.SaveStateRaw
