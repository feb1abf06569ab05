/-
`Decode` and `FileReader::Open` accept the containers of valid payloads, and nothing else.
-/
import VitaSX2.SaveState.Readers

namespace VitaSX2.SaveStateRaw

open LittleEndian

/-! ### Payloads -/

/-- The pieces of the input that the entries stand for. -/
def payloadsOf (input : List UInt8) (entries : List DecodedEntry) : List (List UInt8) :=
  entries.map fun entry => window input entry.payloadOffset entry.size

/-- What `Decode` makes of payloads. -/
def packed (payloads : List (List UInt8)) : ArchiveEntryList :=
  ⟨addEntries 0 0 (entriesOf payloadStart payloads), payloads.flatten⟩

lemma checkPayload_iff {i : ℕ} {entry : DecodedEntry} {payload : List UInt8} :
    checkPayload i entry payload = .ok () ↔
      calculateCrc32 payload = entry.crc32 ∧ (i = 0 → payload = portableVersionPayload) := by
  refine ⟨fun h => ?_, fun h => ?_⟩
  · obtain ⟨hcrc, h⟩ := require_ok h
    exact ⟨hcrc, require_iff.mp h⟩
  · rw [checkPayload, require_pos h.1, ok_bind, require_pos h.2]

/-- A chain reaches no further than the total size. -/
lemma Chained.le {totalSize i expected last : ℕ} {entries : List DecodedEntry}
    (h : Chained totalSize i expected entries last) (hexpected : expected ≤ totalSize) :
    expected ≤ last ∧ last ≤ totalSize := by
  induction entries generalizing i expected with
  | nil =>
    obtain rfl : expected = last := h
    exact ⟨Nat.le_refl _, hexpected⟩
  | cons entry entries ih =>
    obtain ⟨⟨-, -, -, hbound⟩, h⟩ := h
    exact ⟨Nat.le_trans (Nat.le_add_right _ _) (ih h hbound).1, (ih h hbound).2⟩

/-- The entries of payloads that have their space follow each other. -/
lemma chained_entriesOf {totalSize i expected : ℕ} {payloads : List (List UInt8)}
    (hpayloads : PayloadsOk i payloads) (h : expected + payloads.flatten.length ≤ totalSize) :
    Chained totalSize i expected (entriesOf expected payloads)
      (expected + payloads.flatten.length) := by
  induction payloads generalizing i expected with
  | nil => rfl
  | cons payload payloads ih =>
    obtain ⟨hpayload, hpayloads⟩ := hpayloads
    rw [List.flatten_cons, List.length_append, ← Nat.add_assoc] at h ⊢
    exact ⟨⟨rfl, hpayload.size, hpayload.empty, Nat.le_trans (Nat.le_add_right _ _) h⟩,
      ih hpayloads h⟩

/-- Entries that follow each other and pass the checks are the entries of their payloads. -/
lemma checkPayloads_ok {input : List UInt8} {i expected last : ℕ} {entries : List DecodedEntry}
    (hchained : Chained input.length i expected entries last)
    (h : checkPayloads input i entries = .ok ()) :
    entriesOf expected (payloadsOf input entries) = entries ∧
      PayloadsOk i (payloadsOf input entries) ∧
      input.drop expected = (payloadsOf input entries).flatten ++ input.drop last := by
  induction entries generalizing i expected with
  | nil =>
    obtain rfl : expected = last := hchained
    exact ⟨rfl, trivial, rfl⟩
  | cons entry entries ih =>
    obtain ⟨⟨rfl, hsize, hempty, hbound⟩, hchained⟩ := hchained
    obtain ⟨payload, hread, h⟩ := bind_ok h
    obtain ⟨⟨⟩, hcheck, h⟩ := bind_ok h
    obtain ⟨hcrc, hmarker⟩ := checkPayload_iff.mp hcheck
    obtain ⟨hentries, hpayloads, hdrop⟩ := ih hchained h
    obtain ⟨hlength, hfirst⟩ := readBytes_ok hread
    have hpayload : window input entry.payloadOffset entry.size = payload := by
      rw [window, hfirst, List.take_left' hlength]
    simp only [payloadsOf, List.map_cons, hpayload]
    refine ⟨?_, ⟨⟨hlength ▸ hsize, hlength ▸ hempty, hmarker⟩, hpayloads⟩, ?_⟩
    · rw [entriesOf, hlength, hcrc]
      exact congrArg _ hentries
    · rw [hfirst, hdrop, List.flatten_cons, List.append_assoc]
      rfl

/-- The entries of payloads pass the checks where the payloads stand. -/
lemma checkPayloads_of_drop {input : List UInt8} {i expected : ℕ}
    {payloads : List (List UInt8)} (after : List UInt8) (hpayloads : PayloadsOk i payloads)
    (hexpected : expected ≤ input.length)
    (hdrop : input.drop expected = payloads.flatten ++ after) :
    checkPayloads input i (entriesOf expected payloads) = .ok () ∧
      payloadsOf input (entriesOf expected payloads) = payloads := by
  induction payloads generalizing i expected with
  | nil => exact ⟨rfl, rfl⟩
  | cons payload payloads ih =>
    obtain ⟨hpayload, hpayloads⟩ := hpayloads
    rw [List.flatten_cons, List.append_assoc] at hdrop
    have hlength := congrArg List.length hdrop
    simp only [List.length_drop, List.length_append] at hlength
    obtain ⟨hchecks, hrest⟩ := ih hpayloads (by omega) (drop_add rfl hdrop)
    refine ⟨?_, ?_⟩
    · rw [entriesOf, checkPayloads, readBytes_of_drop rfl hexpected hdrop, ok_bind,
        checkPayload_iff.mpr ⟨rfl, hpayload.marker⟩, ok_bind, hchecks]
    · rw [entriesOf, payloadsOf, List.map_cons]
      refine congr (congrArg List.cons ?_) hrest
      rw [window, hdrop, List.take_left' rfl]

/-! ### Decode -/

lemma length_container {payloads : List (List UInt8)} (hcount : payloads.length = entryCount) :
    (container payloads).length = payloadStart + payloads.flatten.length := by
  have hentries := length_entriesOf payloadStart payloads
  rw [container, List.length_append, List.length_append, length_headerBytes,
    length_directoryBytes 0 _ (by omega), hentries, hcount, ← Nat.add_assoc]
  rfl

/-- The payloads stand behind the directory. -/
lemma drop_container {payloads : List (List UInt8)} (hcount : payloads.length = entryCount) :
    (container payloads).drop payloadStart = payloads.flatten := by
  have hentries := length_entriesOf payloadStart payloads
  rw [container, ← List.append_assoc]
  refine List.drop_left' ?_
  rw [List.length_append, length_headerBytes, length_directoryBytes 0 _ (by omega), hentries,
    hcount]
  rfl

/-- An input whose directory and payloads are accepted is a container. -/
lemma eq_container {input : List UInt8} {entries : List DecodedEntry}
    (hparse : parseContainerDirectory input input.length = .ok entries)
    (hcheck : checkPayloads input 0 entries = .ok ()) :
    Valid (payloadsOf input entries) ∧ input = container (payloadsOf input entries) ∧
      entries = entriesOf payloadStart (payloadsOf input entries) := by
  obtain ⟨hstart, hlimit, hcount, hchained, hinput⟩ := parseContainerDirectory_ok hparse
  obtain ⟨hentries, hpayloads, hdrop⟩ := checkPayloads_ok hchained hcheck
  rw [List.drop_length, List.append_nil] at hdrop
  have htotal : payloadStart + (payloadsOf input entries).flatten.length = input.length := by
    rw [← hdrop, List.length_drop]
    omega
  refine ⟨⟨?_, hpayloads, htotal ▸ hlimit⟩, ?_, hentries.symm⟩
  · rw [payloadsOf, List.length_map, hcount]
  · rw [container, htotal, hentries, ← hdrop]
    exact hinput

/-- The directory of a container is accepted. -/
lemma parseContainerDirectory_container {payloads : List (List UInt8)} (h : Valid payloads) :
    parseContainerDirectory (container payloads) (container payloads).length =
      .ok (entriesOf payloadStart payloads) := by
  have hlength := length_container h.count
  refine parseContainerDirectory_of_eq payloads.flatten ?_ ?_ ?_ ?_ ?_
  · omega
  · rw [hlength]
    exact h.limit
  · rw [length_entriesOf, h.count]
  · have hchained := chained_entriesOf h.each (Nat.le_refl (payloadStart + payloads.flatten.length))
    rw [hlength]
    exact hchained
  · rw [hlength]
    rfl

/-- The payloads of a container are accepted. -/
lemma checkPayloads_container {payloads : List (List UInt8)} (h : Valid payloads) :
    checkPayloads (container payloads) 0 (entriesOf payloadStart payloads) = .ok () ∧
      payloadsOf (container payloads) (entriesOf payloadStart payloads) = payloads := by
  refine checkPayloads_of_drop [] h.each ?_ ?_
  · rw [length_container h.count]
    exact Nat.le_add_right _ _
  · rw [drop_container h.count, List.append_nil]

/-- `Decode` accepts containers of valid payloads only. -/
lemma decode_ok {input : List UInt8} {list : ArchiveEntryList} (h : decode input = .ok list) :
    ∃ payloads, Valid payloads ∧ input = container payloads ∧ list = packed payloads := by
  obtain ⟨entries, hparse, h⟩ := bind_ok h
  obtain ⟨⟨⟩, hcheck, h⟩ := bind_ok h
  obtain ⟨hvalid, hinput, hentries⟩ := eq_container hparse hcheck
  refine ⟨_, hvalid, hinput, ?_⟩
  rw [packed, ← hentries]
  exact (Except.ok.inj h).symm

/-- `Decode` accepts all of them. -/
lemma decode_container {payloads : List (List UInt8)} (h : Valid payloads) :
    decode (container payloads) = .ok (packed payloads) := by
  obtain ⟨hcheck, hpayloads⟩ := checkPayloads_container h
  rw [decode, parseContainerDirectory_container h, ok_bind, hcheck, ok_bind]
  show Except.ok (⟨_, (payloadsOf _ _).flatten⟩ : ArchiveEntryList) = _
  rw [hpayloads, packed]

/-! ### FileReader -/

lemma take_take_append (l r : List UInt8) (n : ℕ) : (l.take n ++ r).take n = (l ++ r).take n := by
  rw [List.take_append, List.take_append, List.take_take, Nat.min_self, List.length_take,
    show n - min n l.length = n - l.length by omega]

lemma extendMarker_eq {marker : List UInt8} (chunk : List UInt8)
    (h : marker.length ≤ portableVersionPayload.length) :
    extendMarker 0 marker chunk = (marker ++ chunk).take portableVersionPayload.length := by
  rw [extendMarker, List.take_append, List.take_of_length_le h]
  split
  next => rfl
  next hfull =>
    rw [Nat.sub_eq_zero_of_le (by omega), List.take_zero, List.append_nil]

/-- Chunk by chunk an entry that the file holds is read whole. -/
lemma verifyChunks_eq (i : ℕ) (file : List UInt8) (remaining : ℕ) (crc : BitVec 32)
    (marker : List UInt8) (h : remaining ≤ file.length) :
    ∃ read, verifyChunks i file remaining crc marker =
        .ok (updateCrc32 crc (file.take remaining), read) ∧
      (i = 0 → marker.length ≤ portableVersionPayload.length →
        read = (marker ++ file.take remaining).take portableVersionPayload.length) := by
  induction remaining using Nat.strongRecOn generalizing file crc marker with
  | ind remaining ih =>
    unfold verifyChunks
    split
    next hzero =>
      subst hzero
      refine ⟨marker, rfl, fun _ hmarker => ?_⟩
      rw [List.take_zero, List.append_nil, List.take_of_length_le hmarker]
    next hpos =>
      set chunkSize := min remaining fileCrcChunkSize
      have hchunk : 0 < chunkSize ∧ chunkSize ≤ remaining := by
        simp only [chunkSize, fileCrcChunkSize]
        omega
      have hlength : (file.take chunkSize).length = chunkSize := by
        rw [List.length_take]
        omega
      have htake : file.take remaining =
          file.take chunkSize ++ (file.drop chunkSize).take (remaining - chunkSize) := by
        rw [← List.take_add, Nat.add_sub_cancel' hchunk.2]
      obtain ⟨read, hread, hmarkerRead⟩ := ih (remaining - chunkSize) (by omega)
        (file.drop chunkSize) (updateCrc32 crc (file.take chunkSize))
        (extendMarker i marker (file.take chunkSize)) (by rw [List.length_drop]; omega)
      refine ⟨read, ?_, ?_⟩
      · rw [if_neg (not_not_intro hlength), hread, htake]
        simp only [updateCrc32, List.foldl_append]
      · rintro rfl hmarker
        have hextend := extendMarker_eq (file.take chunkSize) hmarker
        rw [hmarkerRead rfl (by rw [hextend]; exact List.length_take_le _ _), hextend, htake,
          ← List.append_assoc]
        exact take_take_append _ _ _

/-- The chunks of an entry pass their checks when its payload does. -/
lemma verifyFileEntry_iff {file : List UInt8} {i : ℕ} {entry : DecodedEntry}
    (h : entry.payloadOffset + entry.size ≤ file.length) :
    verifyFileEntry file i entry = .ok () ↔
      checkPayload i entry (window file entry.payloadOffset entry.size) = .ok () := by
  obtain ⟨read, hread, hmarker⟩ := verifyChunks_eq i (file.drop entry.payloadOffset) entry.size
    0xffffffff#32 [] (by rw [List.length_drop]; omega)
  have hlength := length_window h
  rw [verifyFileEntry, hread, checkPayload_iff]
  refine ⟨fun hok => ?_, fun ⟨hcrc, hpayload⟩ => ?_⟩
  · obtain ⟨hcrc, hok⟩ := require_ok hok
    refine ⟨hcrc, fun hi => ?_⟩
    obtain ⟨hsize, hfirst⟩ := require_iff.mp hok hi
    rw [hmarker hi (Nat.zero_le _), List.nil_append, List.take_take, ← hsize, Nat.min_self]
      at hfirst
    rwa [show (file.drop entry.payloadOffset).take entry.size =
      window file entry.payloadOffset entry.size from rfl, hlength, Nat.sub_self,
      List.replicate_zero, List.append_nil] at hfirst
  · rw [ok_bind]
    show (require (calculateCrc32 (window file entry.payloadOffset entry.size) = entry.crc32) _ >>=
      _) = _
    rw [require_pos hcrc, ok_bind, require_pos]
    intro hi
    have hsize : entry.size = portableVersionPayload.length := by rw [← hlength, hpayload hi]
    refine ⟨hsize, ?_⟩
    rw [hmarker hi (Nat.zero_le _), List.nil_append, List.take_take, ← hsize, Nat.min_self]
    show window file entry.payloadOffset entry.size ++ List.replicate (entry.size -
      (window file entry.payloadOffset entry.size).length) 0 = _
    rw [hlength, Nat.sub_self, List.replicate_zero, List.append_nil, hpayload hi]

lemma verifyFileEntries_iff {file : List UInt8} {i expected last : ℕ} {entries : List DecodedEntry}
    (h : Chained file.length i expected entries last) :
    verifyFileEntries file i entries = .ok () ↔ checkPayloads file i entries = .ok () := by
  induction entries generalizing i expected with
  | nil => exact Iff.rfl
  | cons entry entries ih =>
    obtain ⟨⟨rfl, -, -, hbound⟩, hchained⟩ := h
    have hentry := verifyFileEntry_iff (i := i) hbound
    rw [verifyFileEntries, checkPayloads, readBytes, if_pos hbound, ok_bind]
    refine ⟨fun hok => ?_, fun hok => ?_⟩
    · obtain ⟨⟨⟩, hfirst, hrest⟩ := bind_ok hok
      rw [hentry.mp hfirst, ok_bind]
      exact (ih hchained).mp hrest
    · obtain ⟨⟨⟩, hfirst, hrest⟩ := bind_ok hok
      rw [hentry.mpr hfirst, ok_bind]
      exact (ih hchained).mpr hrest

/-- The directory that `Open` reads from the start of the file is the directory of the file. -/
lemma parseContainerDirectory_take (file : List UInt8) (entries : List DecodedEntry) :
    parseContainerDirectory (file.take (min file.length payloadStart)) file.length =
        .ok entries ↔
      parseContainerDirectory file file.length = .ok entries := by
  refine ⟨fun h => ?_, fun h => ?_⟩
  · obtain ⟨hstart, hlimit, hcount, hchained, hbytes⟩ := parseContainerDirectory_ok h
    rw [Nat.min_eq_right hstart] at hbytes
    refine parseContainerDirectory_of_eq (file.drop payloadStart) hstart hlimit hcount hchained ?_
    have hnone : (file.take payloadStart).drop payloadStart = [] :=
      List.drop_eq_nil_of_le (List.length_take_le _ _)
    rw [hnone, List.append_nil] at hbytes
    rw [← List.append_assoc, ← hbytes, List.take_append_drop]
  · obtain ⟨hstart, hlimit, hcount, hchained, hbytes⟩ := parseContainerDirectory_ok h
    refine parseContainerDirectory_of_eq [] hstart hlimit hcount hchained ?_
    rw [Nat.min_eq_right hstart, List.append_nil]
    conv =>
      lhs
      rw [hbytes, ← List.append_assoc]
    refine List.take_left' ?_
    rw [List.length_append, length_headerBytes, length_directoryBytes 0 _ (by omega), hcount]
    rfl

/-- `Open` accepts the files of which `Decode` accepts the bytes. -/
lemma openFile_iff (file : List UInt8) :
    (∃ entries, openFile file = .ok entries) ↔ ∃ list, decode file = .ok list := by
  refine ⟨fun ⟨entries, h⟩ => ?_, fun ⟨list, h⟩ => ?_⟩
  · obtain ⟨entries, hparse, h⟩ := bind_ok h
    obtain ⟨⟨⟩, hverify, h⟩ := bind_ok h
    rw [parseContainerDirectory_take] at hparse
    obtain ⟨-, -, -, hchained, -⟩ := parseContainerDirectory_ok hparse
    exact ⟨_, by rw [decode, hparse, ok_bind, (verifyFileEntries_iff hchained).mp hverify]; rfl⟩
  · obtain ⟨entries, hparse, h⟩ := bind_ok h
    obtain ⟨⟨⟩, hcheck, h⟩ := bind_ok h
    obtain ⟨-, -, -, hchained, -⟩ := parseContainerDirectory_ok hparse
    refine ⟨entries, ?_⟩
    rw [openFile, (parseContainerDirectory_take file entries).mpr hparse, ok_bind,
      (verifyFileEntries_iff hchained).mpr hcheck]
    rfl

end VitaSX2.SaveStateRaw
